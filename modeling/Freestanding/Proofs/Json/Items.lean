import Freestanding.Proofs.Json.Reader

/-!
# The items of lists and objects

Between two brackets every item stands behind its lead: white space, and a comma unless the item is
the first. What follows the last item is white space and the closing bracket.
-/
namespace Freestanding.Json

/-- What stands before an item. -/
inductive Lead : Bool → List Char → Prop
  | first {before : List Char} : Blank before → Lead true before
  | other {blank before : List Char} : Blank blank → Blank before →
      Lead false (blank ++ ',' :: before)

/-- The items that are left, up to the closing bracket. -/
def Listed {α : Type} (first : Bool) (item : α → List Char → Prop) (as : List α) (cs : List Char) :
    Prop := if first then Items item as cs else Others item as cs

section

variable {α : Type} {item : α → List Char → Prop} {first : Bool}

theorem Lead.append {lead before : List Char} (h : Lead first lead) (hb : Blank before) :
    Lead first (lead ++ before) := by
  cases h with
  | first hlead => exact .first (hlead.append hb)
  | other hblank hlead =>
    rw [List.append_assoc]
    exact .other hblank (hlead.append hb)

theorem Listed.nil {blank : List Char} (h : Blank blank) : Listed first item [] blank := by
  cases first with
  | true => exact Items.none h
  | false => exact Others.ends h

theorem Listed.cons {a : α} {as : List α} {lead written others : List Char} (h : Lead first lead)
    (hw : item a written) (ho : Listed false item as others) :
    Listed first item (a :: as) (lead ++ written ++ others) := by
  cases h with
  | first hlead => exact Items.some hlead hw ho
  | other hblank hlead => exact Others.next hblank hlead hw ho

theorem Listed.blank {cs : List Char} (h : Listed first item [] cs) : Blank cs := by
  cases first with
  | true => cases h with | none hb => exact hb
  | false => cases h with | ends hb => exact hb

theorem Listed.uncons {a : α} {as : List α} {cs : List Char} (h : Listed first item (a :: as) cs) :
    ∃ lead written others, Lead first lead ∧ item a written ∧ Listed false item as others ∧
      cs = lead ++ written ++ others := by
  cases first with
  | true =>
    cases h with
    | some hb hw ho => exact ⟨_, _, _, .first hb, hw, ho, rfl⟩
  | false =>
    cases h with
    | next hblank hb hw ho => exact ⟨_, _, _, .other hblank hb, hw, ho, rfl⟩

theorem delimited_blank {blank rest : List Char} (h : Blank blank) (hrest : Delimited rest) :
    Delimited (blank ++ rest) := by
  cases blank with
  | nil => exact hrest
  | cons c cs =>
    rintro _ ⟨⟩
    exact .inl (isSpace_iff.mpr (h c (by simp)))

/-- Behind an item nothing goes on with it. -/
theorem Listed.delimited {as : List α} {others rest : List Char} (h : Listed false item as others)
    (hrest : Delimited rest) : Delimited (others ++ rest) := by
  cases h with
  | ends hb => exact delimited_blank hb hrest
  | next hblank hb hw ho =>
    simp only [List.append_assoc]
    refine delimited_blank hblank ?_
    rintro _ ⟨⟩
    exact .inr (.inl rfl)

end

/-! ## The next item -/

theorem lead_of_nextElement {first : Bool} {cs rest : List Char}
    (h : nextElement first cs = .ok (.item rest)) :
    ∃ lead, Lead first lead ∧ cs = lead ++ rest := by
  unfold nextElement at h
  split at h
  · cases h
  · cases h
  · next c left _ hleft =>
    obtain ⟨blank, hblank, rfl⟩ := blank_of_skipSpace hleft
    split at h
    · next hfirst =>
      obtain rfl := Next.item.inj (Except.ok.inj h)
      exact ⟨blank, hfirst ▸ .first hblank, rfl⟩
    split at h
    · next hfirst hcomma =>
      split at h
      · cases h
      · cases h
      · obtain rfl := Next.item.inj (Except.ok.inj h)
        obtain ⟨before, hb, hcut⟩ := blank_skipSpace left
        refine ⟨blank ++ ',' :: before, ?_, by simp [hcomma, ← hcut]⟩
        rw [Bool.not_eq_true] at hfirst
        exact hfirst ▸ .other hblank hb
    · cases h

theorem nextElement_comma {blank : List Char} (h : Blank blank) (cs : List Char) :
    nextElement false (blank ++ ',' :: cs) =
      match skipSpace cs with
      | [] => failAfter .endInValue []
      | ']' :: rest => failAfter .trailingComma (']' :: rest)
      | rest => .ok (.item rest) := by
  rw [nextElement, skipSpace_blank h, skipSpace_cons (by decide)]
  rfl

theorem nextElement_of_lead {first : Bool} {lead : List Char} (h : Lead first lead) {c : Char}
    (hspace : isSpace c = false) (hclose : c ≠ ']') (cs : List Char) :
    nextElement first (lead ++ c :: cs) = .ok (.item (c :: cs)) := by
  cases h with
  | first hb =>
    rw [nextElement, skipSpace_blank hb, skipSpace_cons hspace]
    split
    · next heq => cases heq
    · next heq => exact absurd (List.cons.inj heq).1 hclose
    · next heq => rw [heq]; rfl
  | other hblank hb =>
    rw [List.append_assoc, List.cons_append, nextElement_comma hblank, skipSpace_blank hb,
      skipSpace_cons hspace]
    split
    · next heq => cases heq
    · next heq => exact absurd (List.cons.inj heq).1 hclose
    · rfl

theorem lead_of_nextMember {first : Bool} {cs rest : List Char}
    (h : nextMember first cs = .ok (.item rest)) :
    ∃ lead, Lead first lead ∧ cs = lead ++ '"' :: rest := by
  unfold nextMember at h
  split at h
  · cases h
  · cases h
  · next c left _ hleft =>
    obtain ⟨blank, hblank, rfl⟩ := blank_of_skipSpace hleft
    split at h
    · next hfirst =>
      split at h
      · next hquote =>
        obtain rfl := Next.item.inj (Except.ok.inj h)
        exact ⟨blank, hfirst ▸ .first hblank, by rw [hquote]⟩
      · cases h
    split at h
    · next hfirst hcomma =>
      split at h
      · cases h
      · cases h
      · next after hafter =>
        obtain rfl := Next.item.inj (Except.ok.inj h)
        obtain ⟨before, hb, rfl⟩ := blank_of_skipSpace hafter
        refine ⟨blank ++ ',' :: before, ?_, by simp [hcomma]⟩
        rw [Bool.not_eq_true] at hfirst
        exact hfirst ▸ .other hblank hb
      · cases h
    · cases h

theorem nextMember_comma {blank : List Char} (h : Blank blank) (cs : List Char) :
    nextMember false (blank ++ ',' :: cs) =
      match skipSpace cs with
      | [] => failAfter .endInValue []
      | '\x7d' :: rest => failAfter .trailingComma ('\x7d' :: rest)
      | '"' :: rest => .ok (.item rest)
      | rest => failAfter .noKey rest := by
  rw [nextMember, skipSpace_blank h, skipSpace_cons (by decide)]
  rfl

theorem nextMember_of_lead {first : Bool} {lead : List Char} (h : Lead first lead)
    (cs : List Char) : nextMember first (lead ++ '"' :: cs) = .ok (.item cs) := by
  cases h with
  | first hb => rw [nextMember, skipSpace_blank hb, skipSpace_cons (by decide)]; rfl
  | other hblank hb =>
    rw [List.append_assoc, List.cons_append, nextMember_comma hblank, skipSpace_blank hb,
      skipSpace_cons (by decide)]
    rfl

theorem closing_of_nextMember {first : Bool} {cs rest : List Char}
    (h : nextMember first cs = .ok (.closing rest)) :
    ∃ blank after, Blank blank ∧ rest = '\x7d' :: after ∧ cs = blank ++ rest := by
  unfold nextMember at h
  split at h
  · cases h
  · next after hafter =>
    obtain rfl := Next.closing.inj (Except.ok.inj h)
    obtain ⟨blank, hblank, rfl⟩ := blank_of_skipSpace hafter
    exact ⟨blank, after, hblank, rfl, rfl⟩
  · exfalso
    split at h <;> split at h
    · cases h
    · cases h
    · split at h <;> cases h
    · cases h

theorem nextMember_closing {blank : List Char} (h : Blank blank) (first : Bool) (cs : List Char) :
    nextMember first (blank ++ '\x7d' :: cs) = .ok (.closing ('\x7d' :: cs)) := by
  rw [nextMember, skipSpace_blank h, skipSpace_cons (by decide)]
  rfl

theorem blank_of_colon {cs rest : List Char} (h : colon cs = .ok rest) :
    ∃ blank, Blank blank ∧ cs = blank ++ ':' :: rest := by
  unfold colon at h
  split at h
  · cases h
  · next after hafter =>
    obtain rfl := Except.ok.inj h
    exact blank_of_skipSpace hafter
  · cases h

theorem colon_of_blank {blank : List Char} (h : Blank blank) (rest : List Char) :
    colon (blank ++ ':' :: rest) = .ok rest := by
  rw [colon, skipSpace_blank h, skipSpace_cons (by decide)]
  rfl

theorem blank_of_endOfList {cs rest : List Char} (h : endOfList cs = .ok rest) :
    ∃ blank, Blank blank ∧ cs = blank ++ ']' :: rest := by
  unfold endOfList at h
  split at h
  · cases h
  · next after hafter =>
    obtain rfl := Except.ok.inj h
    exact blank_of_skipSpace hafter
  · split at h <;> cases h
  · cases h

theorem endOfList_of_blank {blank : List Char} (h : Blank blank) (rest : List Char) :
    endOfList (blank ++ ']' :: rest) = .ok rest := by
  rw [endOfList, skipSpace_blank h, skipSpace_cons (by decide)]
  rfl

theorem placedAt_eq_ok {α : Type} {ending : List Char → List Char} {result : Except Failure α}
    {a : α} : placedAt ending result = .ok a ↔ result = .ok a := by
  unfold placedAt
  split
  · constructor <;> intro h <;> cases h
  · rfl

end Freestanding.Json
