import Mathlib.Data.List.Perm.Basic
import Freestanding.Proofs.Json.Items

/-!
# What a record reads

A record is read from an object that holds its fields in any order or from the list of their values.
The fields that have been read so far never depend on the order, so each order and the list give the
same record.
-/
namespace Freestanding.Json

/-- A value that presents these fields: the list of their values, or an object that has each of them
once and nothing else. -/
inductive Record (fields : List (String × Value)) : Value → Prop
  | list : Record fields (.list (fields.map Prod.snd))
  | object {members : List (String × Value)} : members.Perm fields → Record fields (.object members)

namespace Shape

variable {κ : Type} {α : κ → Type} {ρ : Type}

/-- What the reading of a record relies on: its fields have keys of their own, and the record is made
exactly when each of them holds its part. -/
structure Lawful (shape : Shape κ α ρ) (part : ρ → (k : κ) → α k) : Prop where
  every (k : κ) : k ∈ shape.fields
  nodup : shape.fields.Nodup
  injective {j k : κ} : shape.key j = shape.key k → j = k
  made {slots : Slots α} {r : ρ} : shape.make slots = .ok r ↔ ∀ k, slots k = some (part r k)

def member (shape : Shape κ α ρ) (values : κ → Value) (k : κ) : String × Value :=
  (shape.key k, values k)

/-- The value presents fields that mean the parts of the record. -/
def Denotes (shape : Shape κ α ρ) (part : ρ → (k : κ) → α k) (means : (k : κ) → α k → Value → Prop)
    (r : ρ) (v : Value) : Prop :=
  ∃ values, (∀ k, means k (part r k) (values k)) ∧
    Record (shape.fields.map (shape.member values)) v

/-- The slot of a field holds what the value of the field means. -/
def Holds (means : (k : κ) → α k → Value → Prop) (slots : Slots α) (values : κ → Value) (k : κ) :
    Prop := ∃ a, slots k = some a ∧ means k a (values k)

variable {shape : Shape κ α ρ} {part : ρ → (k : κ) → α k}
  {means : (k : κ) → α k → Value → Prop} {depth : Nat}

theorem finish_eq_ok {slots : Slots α} {cs rest : List Char} {r : ρ} :
    shape.finish slots cs = .ok (r, rest) ↔ shape.make slots = .ok r ∧ cs = rest := by
  unfold finish
  split
  · next record hmake => simp [hmake]
  · next k hmake => simp [hmake]

theorem find?_key (hlaw : shape.Lawful part) (k : κ) :
    shape.fields.find? (shape.key · == shape.key k) = some k := by
  cases hfind : shape.fields.find? (shape.key · == shape.key k) with
  | none =>
    have hnone := List.find?_eq_none.mp hfind k (hlaw.every k)
    exact absurd (beq_self_eq_true _) hnone
  | some j =>
    have hkey := List.find?_some hfind
    rw [hlaw.injective (beq_iff_eq.mp hkey)]

theorem perm_map {fields : List κ} {f : κ → String × Value}
    {members : List (String × Value)} (h : members.Perm (fields.map f)) :
    ∃ order : List κ, members = order.map f ∧ order.Perm fields := by
  have hcomp := congrFun (congrFun (List.eq_map_comp_perm f) members) fields
  exact hcomp.mpr h

theorem means_part (hlaw : shape.Lawful part) {final : Slots α} {r : ρ}
    (hmake : shape.make final = .ok r) {values : κ → Value}
    (hholds : ∀ k, Holds means final values k) (k : κ) : means k (part r k) (values k) := by
  obtain ⟨a, ha, hmeans⟩ := hholds k
  rw [hlaw.made.mp hmake k] at ha
  exact Option.some.inj ha ▸ hmeans

section

variable [DecidableEq κ]

/-- The values of fields, with one more. -/
def withValue (values : κ → Value) (k : κ) (v : Value) : κ → Value :=
  fun j => if j = k then v else values j

theorem withValue_self (values : κ → Value) (k : κ) (v : Value) : withValue values k v k = v := by
  simp [withValue]

theorem map_withValue {β : Type} {fields : List κ} {k : κ} (h : k ∉ fields) (values : κ → Value)
    (v : Value) (f : κ → Value → β) :
    fields.map (fun j => f j (withValue values k v j)) = fields.map fun j => f j (values j) := by
  refine List.map_congr_left ?_
  intro j hj
  rw [withValue, if_neg]
  rintro rfl
  exact h hj

/-- A field that has been read stays as it was read, and the fields before it are not touched. -/
theorem holds_withValue {final slots : Slots α} {values : κ → Value} {fields : List κ} {k : κ}
    {a : α k} {v : Value} (hmeans : means k a v) (hk : k ∉ fields)
    (hholds : ∀ j ∈ fields, Holds means final values j)
    (hothers : ∀ j, j ∉ fields → final j = slots.put k a j) :
    (∀ j ∈ k :: fields, Holds means final (withValue values k v) j) ∧
      ∀ j, j ∉ k :: fields → final j = slots j := by
  constructor
  · rintro j hj
    by_cases hjk : j = k
    · subst hjk
      exact ⟨a, by rw [hothers j hk, Slots.put_self], by rwa [withValue_self]⟩
    · obtain ⟨b, hb, hmean⟩ := hholds j ((List.mem_cons.mp hj).resolve_left hjk)
      exact ⟨b, hb, by rwa [withValue, if_neg hjk]⟩
  · intro j hj
    rw [List.mem_cons, not_or] at hj
    rw [hothers j hj.2, Slots.put_of_ne slots (Ne.symm hj.1)]

theorem kept_put {final slots : Slots α} {fields : List κ} {k : κ} {a : α k} (ha : final k = some a)
    (hkept : ∀ j, j ∉ k :: fields → final j = slots j) :
    ∀ j, j ∉ fields → final j = slots.put k a j := by
  intro j hj
  by_cases hkj : k = j
  · subst hkj
    rw [ha, Slots.put_self]
  · rw [Slots.put_of_ne slots hkj, hkept j (by simp [Ne.symm hkj, hj])]

/-! ## Lists -/

theorem elements_sound (hread : ∀ k, Reads (shape.read k depth) (means k)) {pending : List κ}
    (hnodup : pending.Nodup) {slots : Slots α} {first : Bool} {cs rest : List Char} {r : ρ}
    (h : shape.elements depth slots first pending cs = .ok (r, rest)) :
    ∃ final values body, shape.make final = .ok r ∧ (∀ k ∈ pending, Holds means final values k) ∧
      (∀ k, k ∉ pending → final k = slots k) ∧ cs = body ++ rest ∧
      ∀ blank, Blank blank → Listed first Spells (pending.map values) (body ++ blank) := by
  -- the white space behind the last element is only taken with the closing bracket
  induction pending generalizing slots first cs with
  | nil =>
    obtain ⟨hmake, rfl⟩ := finish_eq_ok.mp h
    exact ⟨slots, fun _ => .null, [], hmake, by simp, by simp, rfl, fun _ hb => Listed.nil hb⟩
  | cons k pending ih =>
    obtain ⟨hk, hothers⟩ := List.nodup_cons.mp hnodup
    obtain ⟨next, hnext, hitem⟩ := ok_of_bind h
    cases next with
    | closing left => cases hitem
    | item left =>
      obtain ⟨⟨a, after⟩, hvalue, hrec⟩ := ok_of_bind hitem
      obtain ⟨lead, hlead, rfl⟩ := lead_of_nextElement hnext
      obtain ⟨v, before, written, hb, hw, hmeans, rfl⟩ := (hread k).sound hvalue
      obtain ⟨final, values, body, hmake, hholds, hkept, rfl, hlisted⟩ := ih hothers hrec
      obtain ⟨hholds, hkept⟩ := holds_withValue hmeans hk hholds hkept
      refine ⟨final, withValue values k v, lead ++ before ++ written ++ body, hmake, hholds, hkept,
        by simp, ?_⟩
      intro blank hblank
      rw [List.map_cons, withValue_self, map_withValue hk values v fun _ v => v, List.append_assoc]
      exact Listed.cons (hlead.append hb) hw (hlisted blank hblank)

theorem elements_complete (hread : ∀ k, Reads (shape.read k depth) (means k)) {pending : List κ}
    (hnodup : pending.Nodup) {final slots : Slots α} {values : κ → Value}
    (hholds : ∀ k ∈ pending, Holds means final values k)
    (hkept : ∀ k, k ∉ pending → final k = slots k) {first : Bool} {body : List Char}
    (hbody : Listed first Spells (pending.map values) body) (rest : List Char) :
    ∃ blank, Blank blank ∧ shape.elements depth slots first pending (body ++ ']' :: rest)
      = shape.finish final (blank ++ ']' :: rest) := by
  induction pending generalizing slots first body with
  | nil =>
    obtain rfl : final = slots := funext fun k => hkept k (by simp)
    exact ⟨body, hbody.blank, rfl⟩
  | cons k pending ih =>
    obtain ⟨hk, hothers⟩ := List.nodup_cons.mp hnodup
    obtain ⟨lead, written, others, hlead, hw, ho, rfl⟩ := hbody.uncons
    obtain ⟨a, ha, hmeans⟩ := hholds k (by simp)
    have hclose : Delimited (']' :: rest) := by
      rintro _ ⟨⟩
      exact .inr (.inr (.inl rfl))
    obtain ⟨blank, hblank, hrec⟩ :=
      ih hothers (fun j hj => hholds j (by simp [hj])) (kept_put ha hkept) ho
    refine ⟨blank, hblank, ?_⟩
    rw [← hrec]
    have hvalue := (hread k).complete hmeans hw blank_nil (ho.delimited hclose)
    obtain ⟨c, cs, rfl, hspace, -, hbracket, -⟩ := hw.head
    have hnext := nextElement_of_lead hlead hspace hbracket (cs ++ (others ++ ']' :: rest))
    simp only [List.nil_append, List.cons_append] at hvalue
    simp only [elements, List.append_assoc, List.cons_append, hnext, bind, Except.bind, hvalue]

/-! ## Objects -/

theorem members_sound_step (hread : ∀ k, Reads (shape.read k depth) (means k)) {pending : List κ}
    {slots : Slots α} {first : Bool} {cs rest : List Char} {r : ρ}
    (h : shape.members depth pending slots first cs = .ok (r, rest)) :
    (∃ blank after, Blank blank ∧ rest = '\x7d' :: after ∧ cs = blank ++ rest ∧
      shape.make slots = .ok r) ∨
    ∃ k a v lead written left, k ∈ pending ∧ Lead first lead ∧ means k a v ∧
      SpellsMember Spells (shape.key k, v) written ∧ cs = lead ++ written ++ left ∧
      shape.members depth (pending.erase k) (slots.put k a) false left = .ok (r, rest) := by
  rw [members] at h
  obtain ⟨next, hnext, hitem⟩ := ok_of_bind h
  cases next with
  | closing left =>
    obtain ⟨hmake, rfl⟩ := finish_eq_ok.mp hitem
    obtain ⟨blank, after, hblank, hrest, hcut⟩ := closing_of_nextMember hnext
    exact .inl ⟨blank, after, hblank, hrest, hcut, hmake⟩
  | item left =>
    obtain ⟨⟨name, afterName⟩, hname, hfield⟩ := ok_of_bind hitem
    dsimp only at hfield
    split at hfield
    · cases hfield
    · next k hfind =>
      split at hfield
      · next hk =>
        obtain ⟨afterColon, hcolon, hfield⟩ := ok_of_bind hfield
        obtain ⟨⟨a, afterValue⟩, hvalue, hrec⟩ := ok_of_bind hfield
        obtain ⟨lead, hlead, rfl⟩ := lead_of_nextMember hnext
        obtain ⟨body, hbody, rfl⟩ := spells_of_textBody hname
        obtain ⟨before, hbefore, rfl⟩ := blank_of_colon hcolon
        obtain ⟨v, after, written, hafter, hw, hmeans, rfl⟩ := (hread k).sound hvalue
        have hkey : shape.key k = String.ofList name := by
          have hfound := List.find?_some hfind
          exact beq_iff_eq.mp hfound
        refine .inr ⟨k, a, v, lead, '"' :: body ++ ['"'] ++ before ++ ':' :: after ++ written,
          afterValue, hk, hlead, hmeans, ?_, by simp, hrec⟩
        rw [hkey]
        exact .mk (.mk hbody) hbefore hafter hw
      · cases hfield

theorem members_complete_step (hlaw : shape.Lawful part)
    (hread : ∀ k, Reads (shape.read k depth) (means k)) {pending : List κ} {k : κ}
    (hk : k ∈ pending) {first : Bool} {lead written : List Char} (hlead : Lead first lead) {a : α k}
    {v : Value} (hmeans : means k a v) (hw : SpellsMember Spells (shape.key k, v) written)
    (slots : Slots α) {left : List Char} (hleft : Delimited left) :
    shape.members depth pending slots first (lead ++ written ++ left)
      = shape.members depth (pending.erase k) (slots.put k a) false left := by
  cases hw with
  | @mk _ _ name before after value hname hbefore hafter hvalue =>
    obtain ⟨chars, hchars, hbody⟩ : ∃ chars, shape.key k = String.ofList chars ∧
        ∃ body, SpellsChars chars body ∧ name = '"' :: body ++ ['"'] := by
      generalize shape.key k = key at hname
      cases hname with
      | mk hbody => exact ⟨_, rfl, _, hbody, rfl⟩
    obtain ⟨body, hbody, rfl⟩ := hbody
    have hread' := (hread k).complete hmeans hvalue hafter hleft
    have hcolon := colon_of_blank hbefore (after ++ value ++ left)
    have htext := textBody_of_spells hbody (before ++ ':' :: (after ++ value ++ left))
    have hnext := nextMember_of_lead hlead
      (body ++ '"' :: (before ++ ':' :: (after ++ value ++ left)))
    have hcut : lead ++ ('"' :: body ++ ['"'] ++ before ++ ':' :: after ++ value) ++ left
        = lead ++ '"' :: (body ++ '"' :: (before ++ ':' :: (after ++ value ++ left))) := by simp
    rw [hcut, members, hnext]
    simp only [bind, Except.bind, htext, ← hchars, find?_key hlaw, hk, ↓reduceDIte, hcolon, hread']

theorem members_sound (hread : ∀ k, Reads (shape.read k depth) (means k)) {pending : List κ}
    (hnodup : pending.Nodup) {slots : Slots α} {first : Bool} {cs rest : List Char} {r : ρ}
    (h : shape.members depth pending slots first cs = .ok (r, rest)) :
    ∃ (order : List κ) (final : Slots α) (values : κ → Value) (body after : List Char),
      order.Nodup ∧ (∀ k ∈ order, k ∈ pending) ∧ shape.make final = .ok r ∧
      (∀ k ∈ order, Holds means final values k) ∧
      (∀ k, k ∉ order → final k = slots k) ∧ rest = '\x7d' :: after ∧ cs = body ++ rest ∧
      Listed first (SpellsMember Spells) (order.map (shape.member values)) body := by
  -- each member leaves one field less pending, so no key comes twice
  rcases members_sound_step hread h with
    ⟨blank, after, hblank, hrest, hcut, hmake⟩ |
    ⟨k, a, v, lead, written, left, hk, hlead, hmeans, hw, hcut, hrec⟩
  · exact ⟨[], slots, fun _ => .null, blank, after, by simp, by simp, hmake, by simp, by simp,
      hrest, hcut, Listed.nil hblank⟩
  · have hshorter : (pending.erase k).length < pending.length := erase_shorter hk
    obtain ⟨order, final, values, body, after, horder, hsub, hmake, hholds, hkept, hrest, rfl,
      hlisted⟩ := members_sound hread (hnodup.erase k) hrec
    have hfresh : k ∉ order := fun hmem => hnodup.not_mem_erase (hsub k hmem)
    obtain ⟨hholds, hkept⟩ := holds_withValue hmeans hfresh hholds hkept
    refine ⟨k :: order, final, withValue values k v, lead ++ written ++ body, after,
      List.nodup_cons.mpr ⟨hfresh, horder⟩, ?_, hmake, hholds, hkept, hrest, by simp [hcut], ?_⟩
    · rintro j (_ | ⟨_, hj⟩)
      · exact hk
      · exact List.mem_of_mem_erase (hsub j hj)
    · have hmap := map_withValue hfresh values v fun j v => (shape.key j, v)
      have hself : shape.member (withValue values k v) k = (shape.key k, v) := by
        rw [member, withValue_self]
      rw [List.map_cons, hself]
      refine Listed.cons hlead hw ?_
      rw [show order.map (shape.member (withValue values k v)) = order.map (shape.member values)
        from hmap]
      exact hlisted
termination_by pending.length

theorem members_complete (hlaw : shape.Lawful part)
    (hread : ∀ k, Reads (shape.read k depth) (means k)) {order pending : List κ}
    (hnodup : order.Nodup) (hsub : ∀ k ∈ order, k ∈ pending) {final slots : Slots α}
    {values : κ → Value} (hholds : ∀ k ∈ order, Holds means final values k)
    (hkept : ∀ k, k ∉ order → final k = slots k) {first : Bool} {body : List Char}
    (hbody : Listed first (SpellsMember Spells) (order.map (shape.member values)) body)
    (rest : List Char) :
    shape.members depth pending slots first (body ++ '\x7d' :: rest)
      = shape.finish final ('\x7d' :: rest) := by
  -- the order is that of the text; the fields that are pending only have to cover it
  induction order generalizing pending slots first body with
  | nil =>
    obtain rfl : final = slots := funext fun k => hkept k (by simp)
    rw [members, nextMember_closing hbody.blank]
    rfl
  | cons k order ih =>
    obtain ⟨hk, hothers⟩ := List.nodup_cons.mp hnodup
    obtain ⟨lead, written, others, hlead, hw, ho, rfl⟩ := hbody.uncons
    obtain ⟨a, ha, hmeans⟩ := hholds k (by simp)
    have hclose : Delimited ('\x7d' :: rest) := by
      rintro _ ⟨⟩
      exact .inr (.inr (.inr rfl))
    rw [List.append_assoc, members_complete_step hlaw hread (hsub k (by simp)) hlead hmeans hw slots
      (ho.delimited hclose)]
    refine ih hothers ?_ (fun j hj => hholds j (by simp [hj])) ?_ ho
    · intro j hj
      have hjk : j ≠ k := by
        rintro rfl
        exact hk hj
      exact (List.mem_erase_of_ne hjk).mpr (hsub j (by simp [hj]))
    · exact kept_put ha hkept

/-! ## Records -/

theorem perm_fields (hlaw : shape.Lawful part) {order : List κ} (horder : order.Nodup)
    {final : Slots α} {r : ρ} (hmake : shape.make final = .ok r)
    (hkept : ∀ k, k ∉ order → final k = Slots.none k) : order.Perm shape.fields := by
  refine (List.perm_ext_iff_of_nodup horder hlaw.nodup).mpr fun k => ?_
  refine ⟨fun _ => hlaw.every k, fun _ => ?_⟩
  by_contra hk
  have hmade := hlaw.made.mp hmake k
  rw [hkept k hk] at hmade
  cases hmade

theorem record_list (hdepth : 1 < depth) {cs left : List Char} (h : skipSpace cs = '[' :: left) :
    shape.record depth cs = (do
      let (record, rest) ← placedAt afterList
        (shape.elements (depth - 1) Slots.none true shape.fields left)
      return (record, ← endOfList rest)) := by
  rw [record, h]
  exact if_neg (Nat.not_le.mpr hdepth)

theorem record_object (hdepth : 1 < depth) {cs left : List Char}
    (h : skipSpace cs = '\x7b' :: left) :
    shape.record depth cs = (do
      let (record, rest) ← placedAt afterObject
        (shape.members (depth - 1) shape.fields Slots.none true left)
      return (record, afterObject rest)) := by
  rw [record, h]
  exact if_neg (Nat.not_le.mpr hdepth)

theorem afterObject_closing (rest : List Char) : afterObject ('\x7d' :: rest) = rest := by
  rw [afterObject, skipSpace_cons (by decide)]
  rfl

/-- A record ends with its bracket, so it is read whatever follows it. -/
theorem record_complete (hlaw : shape.Lawful part) (hdepth : 1 < depth)
    (hread : ∀ k, Reads (shape.read k (depth - 1)) (means k)) {r : ρ} {v : Value}
    {before written : List Char} (hv : shape.Denotes part means r v) (hw : Spells v written)
    (hb : Blank before) (rest : List Char) :
    shape.record depth (before ++ written ++ rest) = .ok (r, rest) := by
  obtain ⟨values, hmeans, hrecord⟩ := hv
  let final : Slots α := fun k => some (part r k)
  have hmake : shape.make final = .ok r := hlaw.made.mpr fun _ => rfl
  have hholds : ∀ k, Holds means final values k := fun k => ⟨part r k, rfl, hmeans k⟩
  have hskip := hw.skipSpace hb rest
  cases hrecord with
  | list =>
    cases hw with
    | @list _ body hbody =>
      rw [List.map_map] at hbody
      have hlisted : Listed true Spells (shape.fields.map values) body := hbody
      obtain ⟨blank, hblank, hlist⟩ := elements_complete hread hlaw.nodup
        (fun k _ => hholds k) (fun k hk => absurd (hlaw.every k) hk) hlisted rest
      have hfinish := finish_eq_ok.mpr ⟨hmake, Eq.refl (blank ++ ']' :: rest)⟩
      have hcut : '[' :: body ++ [']'] ++ rest = '[' :: (body ++ ']' :: rest) := by simp
      rw [record_list hdepth (hskip.trans hcut), hlist, hfinish]
      simp [placedAt, bind, Except.bind, endOfList_of_blank hblank, pure, Except.pure]
  | object hperm =>
    cases hw with
    | @object _ body hbody =>
      obtain ⟨order, rfl, horder⟩ := perm_map hperm
      have hmem : ∀ k, k ∈ order := fun k => horder.mem_iff.mpr (hlaw.every k)
      have hlisted : Listed true (SpellsMember Spells) (order.map (shape.member values)) body :=
        hbody
      have hkept : ∀ k, k ∉ order → final k = Slots.none k := fun k hk => absurd (hmem k) hk
      have hobject := members_complete hlaw hread (horder.nodup_iff.mpr hlaw.nodup)
        (fun k _ => hlaw.every k) (fun k _ => hholds k) hkept hlisted rest
      have hfinish := finish_eq_ok.mpr ⟨hmake, Eq.refl ('\x7d' :: rest)⟩
      have hcut : '\x7b' :: body ++ ['\x7d'] ++ rest = '\x7b' :: (body ++ '\x7d' :: rest) := by
        simp
      rw [record_object hdepth (hskip.trans hcut), hobject, hfinish]
      simp [placedAt, bind, Except.bind, afterObject_closing, pure, Except.pure]

theorem reads_record (hlaw : shape.Lawful part) (hdepth : 1 < depth)
    (hread : ∀ k, Reads (shape.read k (depth - 1)) (means k)) :
    Reads (shape.record depth) (shape.Denotes part means) where
  sound {cs rest r} h := by
    unfold record at h
    split at h
    · cases h
    · next left hleft =>
      rw [if_neg (Nat.not_le.mpr hdepth)] at h
      obtain ⟨⟨record, after⟩, hlist, hrest⟩ := ok_of_bind h
      obtain ⟨left', hend, heq⟩ := ok_of_bind hrest
      obtain ⟨rfl, rfl⟩ := Prod.mk.inj (Except.ok.inj heq)
      obtain ⟨final, values, body, hmake, hholds, -, hcut, hlisted⟩ :=
        elements_sound hread hlaw.nodup (placedAt_eq_ok.mp hlist)
      obtain ⟨before, hb, rfl⟩ := blank_of_skipSpace hleft
      obtain ⟨blank, hblank, rfl⟩ := blank_of_endOfList hend
      refine ⟨.list (shape.fields.map values), before, '[' :: (body ++ blank) ++ [']'], hb,
        .list (hlisted blank hblank), ?_, by simp [hcut]⟩
      refine ⟨values, means_part hlaw hmake fun k => hholds k (hlaw.every k), ?_⟩
      have hvalues : (shape.fields.map (shape.member values)).map Prod.snd
          = shape.fields.map values := by
        rw [List.map_map]
        rfl
      exact hvalues ▸ .list
    · next left hleft =>
      rw [if_neg (Nat.not_le.mpr hdepth)] at h
      obtain ⟨⟨record, after⟩, hobject, hrest⟩ := ok_of_bind h
      obtain ⟨rfl, rfl⟩ := Prod.mk.inj (Except.ok.inj hrest)
      obtain ⟨order, final, values, body, tail, horder, -, hmake, hholds, hkept, rfl, hcut,
        hlisted⟩ := members_sound hread hlaw.nodup (placedAt_eq_ok.mp hobject)
      obtain ⟨before, hb, rfl⟩ := blank_of_skipSpace hleft
      have hperm := perm_fields hlaw horder hmake hkept
      refine ⟨.object (order.map (shape.member values)), before, '\x7b' :: body ++ ['\x7d'], hb,
        .object hlisted, ?_, by simp [hcut, afterObject_closing]⟩
      have hmem : ∀ k, k ∈ order := fun k => hperm.mem_iff.mpr (hlaw.every k)
      exact ⟨values, means_part hlaw hmake fun k => hholds k (hmem k), .object (hperm.map _)⟩
    · exact absurd h refuseKind_ne_ok
  complete hv hw hb _ := record_complete hlaw hdepth hread hv hw hb _

/-- A record is read from the texts that hold one value that denotes it. -/
theorem parse_eq_ok (hlaw : shape.Lawful part)
    (hread : ∀ k, Reads (shape.read k (nesting - 1)) (means k)) {cs : List Char} {r : ρ} :
    shape.parse cs = .ok r ↔ ∃ v, Document v cs ∧ shape.Denotes part means r v := by
  have hrecord := reads_record hlaw (by decide : 1 < nesting) hread
  constructor
  · intro h
    obtain ⟨⟨record, rest⟩, hfirst, hrest⟩ := ok_of_bind h
    dsimp only at hrest
    split at hrest
    · next hblank =>
      obtain rfl := Except.ok.inj hrest
      obtain ⟨after, hafter, rfl⟩ := blank_of_skipSpace hblank
      obtain ⟨v, before, written, hb, hw, hdenotes, rfl⟩ := hrecord.sound hfirst
      rw [List.append_nil]
      exact ⟨v, .mk hb hw hafter, hdenotes⟩
    · cases hrest
  · rintro ⟨v, hdocument, hdenotes⟩
    cases hdocument with
    | @mk before written after hb hw hafter =>
      have hend : Delimited after := by
        have hnil : Delimited [] := by rintro _ ⟨⟩
        have hblank := delimited_blank hafter hnil
        rwa [List.append_nil] at hblank
      have hskip : skipSpace after = [] := by
        have hnil := skipSpace_blank hafter []
        rwa [List.append_nil] at hnil
      have hfirst := hrecord.complete hdenotes hw hb hend
      simp only [parse, hfirst, bind, Except.bind, hskip, pure, Except.pure]

/-- A record has one end: behind a text that holds one, only white space leaves a text that does. -/
theorem parse_append (hlaw : shape.Lawful part)
    (hread : ∀ k, Reads (shape.read k (nesting - 1)) (means k)) {cs : List Char} {r : ρ}
    (h : shape.parse cs = .ok r) (more : List Char) (r' : ρ) :
    shape.parse (cs ++ more) = .ok r' ↔ Blank more ∧ r' = r := by
  obtain ⟨v, hdocument, hdenotes⟩ := (parse_eq_ok hlaw hread).mp h
  cases hdocument with
  | @mk before written after hb hw hafter =>
    -- with more behind it the same record is read, and the rest must be white space as a whole
    have hrecord := record_complete hlaw (by decide) hread hdenotes hw hb (after ++ more)
    rw [← List.append_assoc] at hrecord
    simp only [parse, hrecord, bind, Except.bind]
    rw [skipSpace_blank hafter]
    constructor
    · intro hmore
      split at hmore
      · next hblank =>
        obtain ⟨rest, hrest, rfl⟩ := blank_of_skipSpace hblank
        rw [List.append_nil]
        exact ⟨hrest, (Except.ok.inj hmore).symm⟩
      · cases hmore
    · rintro ⟨hmore, rfl⟩
      have hskip := skipSpace_blank hmore []
      rw [List.append_nil] at hskip
      rw [hskip]
      rfl

end

end Shape

end Freestanding.Json
