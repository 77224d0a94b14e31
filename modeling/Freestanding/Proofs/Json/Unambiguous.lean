import Freestanding.Proofs.Json.Record

/-!
# A text holds one value

No two values are written in the same way. A value ends where its last bracket or quotation mark
stands, or, for a number and a word, where no token goes on, so of two values at the front of a text
neither can end before the other. The induction is on the length of what is written: an item is
shorter than the list or the object around it.
-/
namespace Freestanding.Json

/-- What stands at the front of a text, if it is at most so long, is one thing and has one end. -/
def Unambiguous {α : Type} (limit : Nat) (item : α → List Char → Prop) : Prop :=
  ∀ ⦃a a' : α⦄ ⦃written written' rest rest' : List Char⦄, written.length < limit →
    item a written → item a' written' → Delimited rest → Delimited rest' →
    written ++ rest = written' ++ rest' → a = a' ∧ rest = rest'

variable {rest rest' : List Char}

/-! ## Numbers -/

theorem Delimited.ne {c : Char} {cs : List Char} (h : Delimited (c :: cs)) :
    c ≠ '.' ∧ c ≠ 'e' ∧ c ≠ 'E' ∧ ¬('0' ≤ c ∧ c ≤ '9') := by
  rcases h c rfl with hspace | rfl | rfl | rfl
  · rcases isSpace_iff.mp hspace with rfl | rfl | rfl | rfl <;> decide
  all_goals decide

/-- No digit stands at the front. -/
def Stops (rest : List Char) : Prop := ∀ c ∈ rest.head?, ¬('0' ≤ c ∧ c ≤ '9')

/-- Neither a point nor a digit stands at the front. -/
def StopsFraction (rest : List Char) : Prop := ∀ c ∈ rest.head?, c ≠ '.' ∧ ¬('0' ≤ c ∧ c ≤ '9')

theorem StopsFraction.stops (h : StopsFraction rest) : Stops rest := fun c hc => (h c hc).2

theorem Delimited.stops (h : Delimited rest) : Stops rest := by
  cases rest with
  | nil => exact nofun
  | cons c cs =>
    rintro _ ⟨⟩
    exact h.ne.2.2.2

theorem digits_unique {digits digits' : List Char} (h : ∀ c ∈ digits, '0' ≤ c ∧ c ≤ '9')
    (h' : ∀ c ∈ digits', '0' ≤ c ∧ c ≤ '9') (hrest : Stops rest) (hrest' : Stops rest')
    (heq : digits ++ rest = digits' ++ rest') : digits = digits' ∧ rest = rest' := by
  induction digits generalizing digits' with
  | nil =>
    cases digits' with
    | nil => exact ⟨rfl, heq⟩
    | cons c cs =>
      rw [List.nil_append] at heq
      subst heq
      exact absurd (h' c List.mem_cons_self) (hrest c rfl)
  | cons c cs ih =>
    cases digits' with
    | nil =>
      rw [List.nil_append] at heq
      subst heq
      exact absurd (h c List.mem_cons_self) (hrest' c rfl)
    | cons c' cs' =>
      obtain ⟨rfl, hcs⟩ := List.cons.inj heq
      obtain ⟨rfl, hends⟩ := ih (fun x hx => h x (List.mem_cons_of_mem _ hx))
        (fun x hx => h' x (List.mem_cons_of_mem _ hx)) hcs
      exact ⟨rfl, hends⟩

theorem sign_unique {sign sign' digits digits' : List Char} (h : sign ∈ [[], ['+'], ['-']])
    (h' : sign' ∈ [[], ['+'], ['-']]) (hd : Digits digits) (hd' : Digits digits')
    (heq : sign ++ digits ++ rest = sign' ++ digits' ++ rest') :
    sign = sign' ∧ digits ++ rest = digits' ++ rest' := by
  have hfirst {ds : List Char} (hds : Digits ds) :
      ∃ c cs, ds = c :: cs ∧ c ≠ '+' ∧ c ≠ '-' := by
    obtain ⟨c, cs, rfl⟩ := List.exists_cons_of_ne_nil hds.1
    have hc := hds.2 c List.mem_cons_self
    exact ⟨c, cs, rfl, by rintro rfl; exact absurd hc (by decide),
      by rintro rfl; exact absurd hc (by decide)⟩
  obtain ⟨c, cs, rfl, hplus, hminus⟩ := hfirst hd
  obtain ⟨c', cs', rfl, hplus', hminus'⟩ := hfirst hd'
  simp only [List.mem_cons, List.not_mem_nil, or_false] at h h'
  -- A sign is told from a digit, and from the other sign, by the first character.
  rcases h with rfl | rfl | rfl <;> rcases h' with rfl | rfl | rfl <;>
    simp_all [eq_comm]

namespace Exponent

def Valid (e : Exponent) : Prop :=
  (e.mark = 'e' ∨ e.mark = 'E') ∧ e.sign ∈ [[], ['+'], ['-']] ∧ Digits e.digits

def chars (e : Exponent) : List Char := e.mark :: e.sign ++ e.digits

end Exponent

/-- What may follow the digits of a number is an exponent, or nothing that goes on with it. -/
theorem exponent_stops {exponent : Option Exponent} (h : ∀ e, exponent = some e → e.Valid)
    (hrest : Delimited rest) : StopsFraction (exponent.elim [] Exponent.chars ++ rest) := by
  cases exponent with
  | none =>
    cases rest with
    | nil => exact nofun
    | cons c cs =>
      rintro _ ⟨⟩
      exact ⟨hrest.ne.1, hrest.ne.2.2.2⟩
  | some e =>
    rintro _ ⟨⟩
    rcases (h e rfl).1 with hmark | hmark <;> rw [hmark] <;> decide

theorem exponent_unique {exponent exponent' : Option Exponent}
    (h : ∀ e, exponent = some e → e.Valid) (h' : ∀ e, exponent' = some e → e.Valid)
    (hrest : Delimited rest) (hrest' : Delimited rest')
    (heq : exponent.elim [] Exponent.chars ++ rest = exponent'.elim [] Exponent.chars ++ rest') :
    exponent = exponent' ∧ rest = rest' := by
  have hmark {e : Exponent} {cs : List Char} (he : e.Valid) : ¬Delimited (e.chars ++ cs) := by
    intro hcs
    rcases he.1 with hm | hm
    · exact hcs.ne.2.1 hm
    · exact hcs.ne.2.2.1 hm
  cases exponent with
  | none =>
    cases exponent' with
    | none => exact ⟨rfl, heq⟩
    | some e' =>
      have hrest' : rest = e'.chars ++ rest' := heq
      exact absurd (hrest' ▸ hrest) (hmark (h' e' rfl))
  | some e =>
    cases exponent' with
    | none =>
      have hrest : e.chars ++ rest = rest' := heq
      exact absurd (hrest ▸ hrest') (hmark (h e rfl))
    | some e' =>
      obtain ⟨mark, sign, digits⟩ := e
      obtain ⟨mark', sign', digits'⟩ := e'
      obtain ⟨_, hsign, hdigits⟩ := h _ rfl
      obtain ⟨_, hsign', hdigits'⟩ := h' _ rfl
      obtain ⟨rfl, hcs⟩ := List.cons.inj heq
      obtain ⟨rfl, hcs⟩ := sign_unique hsign hsign' hdigits hdigits' hcs
      obtain ⟨rfl, hends⟩ := digits_unique hdigits.2 hdigits'.2 hrest.stops hrest'.stops hcs
      exact ⟨rfl, hends⟩

theorem fraction_unique {fraction fraction' : Option (List Char)} {cs cs' : List Char}
    (h : ∀ digits, fraction = some digits → Digits digits)
    (h' : ∀ digits, fraction' = some digits → Digits digits)
    (hcs : StopsFraction cs) (hcs' : StopsFraction cs')
    (heq : fraction.elim [] ('.' :: ·) ++ cs = fraction'.elim [] ('.' :: ·) ++ cs') :
    fraction = fraction' ∧ cs = cs' := by
  cases fraction with
  | none =>
    cases fraction' with
    | none => exact ⟨rfl, heq⟩
    | some digits' =>
      have hpoint : '.' ∈ cs.head? := by
        rw [show cs = '.' :: (digits' ++ cs') from heq]
        rfl
      exact absurd rfl (hcs _ hpoint).1
  | some digits =>
    cases fraction' with
    | none =>
      have hpoint : '.' ∈ cs'.head? := by
        rw [← show '.' :: (digits ++ cs) = cs' from heq]
        rfl
      exact absurd rfl (hcs' _ hpoint).1
    | some digits' =>
      obtain ⟨rfl, hends⟩ := digits_unique (h _ rfl).2 (h' _ rfl).2
        hcs.stops hcs'.stops (List.cons.inj heq).2
      exact ⟨rfl, hends⟩

theorem Numeral.Valid.unique {n n' : Numeral} (h : n.Valid) (h' : n'.Valid)
    (hrest : Delimited rest) (hrest' : Delimited rest')
    (heq : n.chars ++ rest = n'.chars ++ rest') : n = n' ∧ rest = rest' := by
  obtain ⟨negative, whole, fraction, exponent⟩ := n
  obtain ⟨negative', whole', fraction', exponent'⟩ := n'
  have hsign (b : Bool) : (if b then ['-'] else []) ∈ [[], ['+'], ['-']] := by
    cases b <;> decide
  have hstops {fraction : Option (List Char)} {cs : List Char} (hcs : StopsFraction cs) :
      Stops (fraction.elim [] ('.' :: ·) ++ cs) := by
    cases fraction with
    | none => exact hcs.stops
    | some digits =>
      rintro _ ⟨⟩
      decide
  have hexponent := exponent_stops h.exponent hrest
  have hexponent' := exponent_stops h'.exponent hrest'
  simp only [Numeral.chars, List.append_assoc] at heq
  rw [← List.append_assoc, ← List.append_assoc (if negative' = true then ['-'] else [])] at heq
  obtain ⟨hnegative, heq⟩ := sign_unique (hsign _) (hsign _) h.whole h'.whole heq
  obtain ⟨rfl, heq⟩ := digits_unique h.whole.2 h'.whole.2 (hstops hexponent) (hstops hexponent') heq
  obtain ⟨rfl, heq⟩ := fraction_unique h.fraction h'.fraction hexponent hexponent' heq
  obtain ⟨rfl, hends⟩ := exponent_unique h.exponent h'.exponent hrest hrest' heq
  obtain rfl : negative = negative' := by
    cases negative <;> cases negative' <;> first | rfl | cases hnegative
  exact ⟨rfl, hends⟩

/-! ## Texts and white space -/

theorem SpellsText.unique {s s' : String} {written written' : List Char} (h : SpellsText s written)
    (h' : SpellsText s' written') (heq : written ++ rest = written' ++ rest') :
    s = s' ∧ rest = rest' := by
  cases h with
  | mk hbody =>
    cases h' with
    | mk hbody' =>
      have hread := textBody_of_spells hbody rest
      have hread' := textBody_of_spells hbody' rest'
      simp only [List.cons_append, List.append_assoc, List.nil_append, List.cons.injEq,
        true_and] at heq
      rw [heq, hread'] at hread
      obtain ⟨rfl, rfl⟩ := Prod.mk.inj (Except.ok.inj hread)
      exact ⟨rfl, rfl⟩

theorem blank_unique {blank blank' cs cs' : List Char} {c c' : Char} (h : Blank blank)
    (h' : Blank blank') (hc : isSpace c = false) (hc' : isSpace c' = false)
    (heq : blank ++ c :: cs = blank' ++ c' :: cs') : c = c' ∧ cs = cs' := by
  have hskip := congrArg skipSpace heq
  rw [skipSpace_blank h, skipSpace_blank h', skipSpace_cons hc, skipSpace_cons hc'] at hskip
  exact List.cons.inj hskip

/-! ## Lists and objects -/

section

variable {α : Type} {item : α → List Char → Prop} {limit : Nat} {first : Bool}
  {lead lead' cs cs' : List Char} {c c' : Char}

/-- An item begins neither with white space nor with what ends or parts items. -/
def Begins (item : α → List Char → Prop) : Prop :=
  ∀ ⦃a : α⦄ ⦃written : List Char⦄, item a written →
    ∃ c cs, written = c :: cs ∧ isSpace c = false ∧ c ≠ ',' ∧ c ≠ ']' ∧ c ≠ '\x7d'

theorem Lead.unique (h : Lead first lead) (h' : Lead first lead') (hc : isSpace c = false)
    (hc' : isSpace c' = false) (heq : lead ++ c :: cs = lead' ++ c' :: cs') :
    c :: cs = c' :: cs' := by
  cases h with
  | first hb =>
    cases h' with
    | first hb' =>
      obtain ⟨rfl, rfl⟩ := blank_unique hb hb' hc hc' heq
      rfl
  | other hblank hb =>
    cases h' with
    | other hblank' hb' =>
      rw [List.append_assoc, List.append_assoc] at heq
      obtain ⟨_, heq⟩ := blank_unique hblank hblank' (by decide) (by decide) heq
      obtain ⟨rfl, rfl⟩ := blank_unique hb hb' hc hc' heq
      rfl

/-- Where an item follows, the bracket does not. -/
theorem Lead.ne_closing {blank : List Char} {close : Char} (h : Lead first lead)
    (hc : isSpace c = false) (hne : c ≠ close) (hblank : Blank blank)
    (hclose : isSpace close = false) (hcomma : ',' ≠ close) :
    lead ++ c :: cs ≠ blank ++ close :: cs' := by
  intro heq
  cases h with
  | first hb => exact hne (blank_unique hb hblank hc hclose heq).1
  | other hb _ =>
    rw [List.append_assoc] at heq
    exact hcomma (blank_unique hb hblank (by decide) hclose heq).1

theorem Items.listed {as : List α} (h : Items item as cs) : Listed true item as cs := h

theorem Listed.unique (hitem : Unambiguous limit item) (hbegins : Begins item) {close : Char}
    (hclose : close = ']' ∨ close = '\x7d') {as as' : List α} {body body' : List Char}
    (hlen : body.length < limit) (h : Listed first item as body) (h' : Listed first item as' body')
    (heq : body ++ close :: rest = body' ++ close :: rest') : as = as' ∧ rest = rest' := by
  have hspace : isSpace close = false := by rcases hclose with rfl | rfl <;> decide
  have hcomma : ',' ≠ close := by rcases hclose with rfl | rfl <;> decide
  have hdelimited (cs : List Char) : Delimited (close :: cs) := by
    rintro _ ⟨⟩
    exact .inr (.inr hclose)
  have hother {a : α} {written : List Char} (hw : item a written) :
      ∃ c cs, written = c :: cs ∧ isSpace c = false ∧ c ≠ close := by
    obtain ⟨c, cs, rfl, hc, _, hlist, hobject⟩ := hbegins hw
    exact ⟨c, cs, rfl, hc, by rcases hclose with rfl | rfl <;> assumption⟩
  induction as generalizing first as' body body' with
  | nil =>
    cases as' with
    | nil => exact ⟨rfl, (blank_unique h.blank h'.blank hspace hspace heq).2⟩
    | cons a' as' =>
      obtain ⟨lead, written, others, hlead, hw, _, rfl⟩ := h'.uncons
      obtain ⟨c, cs, rfl, hc, hne⟩ := hother hw
      simp only [List.append_assoc, List.cons_append] at heq
      exact absurd heq.symm (hlead.ne_closing hc hne h.blank hspace hcomma)
  | cons a as ih =>
    obtain ⟨lead, written, others, hlead, hw, ho, rfl⟩ := h.uncons
    obtain ⟨c, cs, hcs, hc, hne⟩ := hother hw
    cases as' with
    | nil =>
      simp only [hcs, List.append_assoc, List.cons_append] at heq
      exact absurd heq (hlead.ne_closing hc hne h'.blank hspace hcomma)
    | cons a' as' =>
      obtain ⟨lead', written', others', hlead', hw', ho', rfl⟩ := h'.uncons
      obtain ⟨c', cs', hcs', hc', hne'⟩ := hother hw'
      simp only [List.length_append] at hlen
      -- Behind its lead the same item is written, and behind the item the same others.
      have hsame :
          written ++ (others ++ close :: rest) = written' ++ (others' ++ close :: rest') := by
        simp only [hcs, hcs', List.append_assoc, List.cons_append] at heq ⊢
        exact hlead.unique hlead' hc hc' heq
      obtain ⟨rfl, hothers⟩ := hitem (by omega) hw hw' (ho.delimited (hdelimited rest))
        (ho'.delimited (hdelimited rest')) hsame
      obtain ⟨rfl, hends⟩ := ih (by omega) ho ho' hothers
      exact ⟨rfl, hends⟩

theorem begins_member : Begins (SpellsMember item) := by
  intro member written h
  cases h with
  | mk hname =>
    cases hname with
    | mk => exact ⟨_, _, rfl, by decide⟩

theorem Unambiguous.member (hitem : Unambiguous limit item) (hbegins : Begins item) :
    Unambiguous limit (SpellsMember item) := by
  intro member member' written written' rest rest' hlen h h' hrest hrest' heq
  cases h with
  | mk hname hbefore hafter hw =>
    cases h' with
    | mk hname' hbefore' hafter' hw' =>
      simp only [List.length_append, List.length_cons] at hlen
      simp only [List.append_assoc, List.cons_append] at heq
      obtain ⟨rfl, heq⟩ := hname.unique hname' heq
      obtain ⟨_, heq⟩ := blank_unique hbefore hbefore' (by decide) (by decide) heq
      obtain ⟨c, cs, rfl, hc, _⟩ := hbegins hw
      obtain ⟨c', cs', rfl, hc', _⟩ := hbegins hw'
      obtain ⟨rfl, hvalue⟩ := blank_unique hafter hafter' hc hc' heq
      obtain ⟨rfl, hends⟩ := hitem (by omega) hw hw' hrest hrest' (congrArg (c :: ·) hvalue)
      exact ⟨rfl, hends⟩

end

/-! ## Values -/

inductive Kind where
  | null
  | yes
  | no
  | text
  | list
  | object
  | number

def Value.kind : Value → Kind
  | .null => .null
  | .boolean true => .yes
  | .boolean false => .no
  | .text _ => .text
  | .list _ => .list
  | .object _ => .object
  | .number _ => .number

/-- The kind of the value that begins with a character, if one does. -/
def kindAt (c : Char) : Kind :=
  match c with
  | 'n' => .null
  | 't' => .yes
  | 'f' => .no
  | '"' => .text
  | '[' => .list
  | '\x7b' => .object
  | _ => .number

theorem Spells.kind {v : Value} {written : List Char} (h : Spells v written) :
    ∃ c cs, written = c :: cs ∧ kindAt c = v.kind := by
  cases h with
  | null => exact ⟨_, _, rfl, rfl⟩
  | yes => exact ⟨_, _, rfl, rfl⟩
  | no => exact ⟨_, _, rfl, rfl⟩
  | number hn =>
    obtain ⟨c, cs, hcs, hc⟩ := hn.head
    refine ⟨c, cs, hcs, ?_⟩
    unfold kindAt
    split
    case h_7 => rfl
    all_goals exact absurd hc (by decide)
  | text htext =>
    cases htext with
    | mk hbody => exact ⟨_, _, rfl, rfl⟩
  | list hbody => exact ⟨_, _, rfl, rfl⟩
  | object hbody => exact ⟨_, _, rfl, rfl⟩

theorem kind_unique {v v' : Value} {written written' : List Char} (h : Spells v written)
    (h' : Spells v' written') (heq : written ++ rest = written' ++ rest') : v.kind = v'.kind := by
  obtain ⟨c, cs, rfl, hkind⟩ := h.kind
  obtain ⟨c', cs', rfl, hkind'⟩ := h'.kind
  rw [← hkind, ← hkind', (List.cons.inj heq).1]

/-- Of two values at the front of a text neither ends before the other. -/
theorem unambiguous_spells (limit : Nat) : Unambiguous limit Spells := by
  induction limit with
  | zero => exact fun _ _ _ _ _ _ hlen => absurd hlen (Nat.not_lt_zero _)
  | succ limit ih =>
    intro v v' written written' rest rest' hlen h h' hrest hrest' heq
    have hkind := kind_unique h h' heq
    cases h with
    | null =>
      cases h' with
      | null => exact ⟨rfl, List.append_cancel_left heq⟩
      | _ => cases hkind
    | yes =>
      cases h' with
      | yes => exact ⟨rfl, List.append_cancel_left heq⟩
      | _ => cases hkind
    | no =>
      cases h' with
      | no => exact ⟨rfl, List.append_cancel_left heq⟩
      | _ => cases hkind
    | number hn =>
      cases h' with
      | number hn' =>
        obtain ⟨rfl, hends⟩ := hn.unique hn' hrest hrest' heq
        exact ⟨rfl, hends⟩
      | _ => cases hkind
    | text htext =>
      cases h' with
      | text htext' =>
        obtain ⟨rfl, hends⟩ := htext.unique htext' heq
        exact ⟨rfl, hends⟩
      | _ => cases hkind
    | list hbody =>
      cases h' with
      | list hbody' =>
        simp only [List.length_append, List.length_cons] at hlen
        simp only [List.cons_append, List.append_assoc, List.nil_append] at heq
        obtain ⟨rfl, hends⟩ := Listed.unique ih (fun _ _ => Spells.head) (.inl rfl) (by omega)
          hbody.listed hbody'.listed (List.cons.inj heq).2
        exact ⟨rfl, hends⟩
      | _ => cases hkind
    | object hbody =>
      cases h' with
      | object hbody' =>
        simp only [List.length_append, List.length_cons] at hlen
        simp only [List.cons_append, List.append_assoc, List.nil_append] at heq
        obtain ⟨rfl, hends⟩ := Listed.unique (ih.member fun _ _ => Spells.head) begins_member
          (.inr rfl) (by omega) hbody.listed hbody'.listed (List.cons.inj heq).2
        exact ⟨rfl, hends⟩
      | _ => cases hkind

/-- A text holds at most one value. -/
theorem Document.unique {v v' : Value} {cs : List Char} (h : Document v cs) (h' : Document v' cs) :
    v = v' := by
  cases h with
  | @mk before written after hbefore hw hafter =>
    generalize hcs : before ++ written ++ after = cs at h'
    cases h' with
    | @mk before' written' after' hbefore' hw' hafter' =>
      have hskip := congrArg skipSpace hcs
      rw [hw.skipSpace hbefore, hw'.skipSpace hbefore'] at hskip
      have hnil : Delimited [] := nofun
      have hends := delimited_blank hafter hnil
      have hends' := delimited_blank hafter' hnil
      rw [List.append_nil] at hends hends'
      exact (unambiguous_spells _ (Nat.lt_succ_self _) hw hw' hends hends' hskip).1

/-! ## Records -/

/-- Fields with the same keys, none of them twice, are the same in any order. -/
theorem fields_unique {fields fields' : List (String × Value)} (h : fields.Perm fields')
    (hkeys : fields.map Prod.fst = fields'.map Prod.fst) (hnodup : (fields.map Prod.fst).Nodup) :
    fields = fields' := by
  induction fields generalizing fields' with
  | nil => exact (List.nil_perm.mp h).symm
  | cons field fields ih =>
    cases fields' with
    | nil => exact absurd h (List.not_perm_cons_nil)
    | cons field' fields' =>
      obtain ⟨key, v⟩ := field
      obtain ⟨key', v'⟩ := field'
      simp only [List.map_cons, List.cons.injEq, List.nodup_cons] at hkeys hnodup
      obtain ⟨rfl, hkeys⟩ := hkeys
      obtain ⟨hfresh, hnodup⟩ := hnodup
      have hsame : (key, v) = (key, v') := by
        refine (List.mem_cons.mp (h.mem_iff.mp List.mem_cons_self)).resolve_right fun hmem => ?_
        exact hfresh (hkeys ▸ List.mem_map_of_mem hmem)
      obtain rfl := (Prod.mk.inj hsame).2
      rw [ih h.cons_inv hkeys hnodup]

/-- A value presents fields with given keys in one way only. -/
theorem Record.unique {fields fields' : List (String × Value)} {v : Value} (h : Record fields v)
    (h' : Record fields' v) (hkeys : fields.map Prod.fst = fields'.map Prod.fst)
    (hnodup : (fields.map Prod.fst).Nodup) : fields = fields' := by
  have hzip (fs : List (String × Value)) : (fs.map Prod.fst).zip (fs.map Prod.snd) = fs := by
    rw [← List.unzip_fst, ← List.unzip_snd, List.zip_unzip]
  cases h with
  | list =>
    generalize hvalues : fields.map Prod.snd = values at h'
    cases h' with
    | list => rw [← hzip fields, ← hzip fields', hkeys, hvalues]
  | object hperm =>
    cases h' with
    | object hperm' => exact fields_unique (hperm.symm.trans hperm') hkeys hnodup

end Freestanding.Json
