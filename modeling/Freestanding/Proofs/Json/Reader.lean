import Freestanding.Json.Record
import Freestanding.Proofs.Json.Number

/-!
# What a reader reads

A reader of one kind of value is specified by what its results mean: it takes from the front of a
text one way of writing a value that means its result, and it takes any such way.
-/
namespace Freestanding.Json

/-- The results of a reader mean the values that it takes. -/
structure Reads {α : Type} (read : List Char → Except Failure (α × List Char))
    (means : α → Value → Prop) : Prop where
  sound {cs rest : List Char} {a : α} : read cs = .ok (a, rest) →
    ∃ v before written, Blank before ∧ Spells v written ∧ means a v ∧
      cs = before ++ written ++ rest
  complete {a : α} {v : Value} {before written rest : List Char} : means a v → Spells v written →
    Blank before → Delimited rest → read (before ++ written ++ rest) = .ok (a, rest)

theorem Reads.of_iff {α : Type} {read : List Char → Except Failure (α × List Char)}
    {means others : α → Value → Prop} (h : Reads read means)
    (hiff : ∀ a v, means a v ↔ others a v) : Reads read others where
  sound hread := by
    obtain ⟨v, before, written, hb, hw, hmeans, hcut⟩ := h.sound hread
    exact ⟨v, before, written, hb, hw, (hiff _ _).mp hmeans, hcut⟩
  complete hmeans := h.complete ((hiff _ _).mpr hmeans)

/-! ## The first character of a value -/

theorem isSpace_of_digit {c : Char} (h : '0' ≤ c ∧ c ≤ '9') : isSpace c = false := by
  rw [Bool.eq_false_iff]
  intro hspace
  rcases isSpace_iff.mp hspace with rfl | rfl | rfl | rfl <;> exact absurd h (by decide)

theorem Numeral.Valid.head {n : Numeral} (h : n.Valid) :
    ∃ c cs, n.chars = c :: cs ∧ (c = '-' ∨ '0' ≤ c ∧ c ≤ '9') := by
  obtain ⟨c, cs, hcs⟩ := List.exists_cons_of_ne_nil h.whole.1
  have hdigit := h.whole.2 c (by simp [hcs])
  unfold Numeral.chars
  cases n.negative with
  | true => exact ⟨'-', _, rfl, .inl rfl⟩
  | false =>
    rw [hcs]
    exact ⟨c, _, rfl, .inr hdigit⟩

/-- A value begins neither with white space nor with what ends or parts values. -/
theorem Spells.head {v : Value} {written : List Char} (h : Spells v written) :
    ∃ c cs, written = c :: cs ∧ isSpace c = false ∧ c ≠ ',' ∧ c ≠ ']' ∧ c ≠ '\x7d' := by
  cases h with
  | null => exact ⟨_, _, rfl, by decide⟩
  | yes => exact ⟨_, _, rfl, by decide⟩
  | no => exact ⟨_, _, rfl, by decide⟩
  | number hn =>
    obtain ⟨c, cs, hcs, rfl | hdigit⟩ := hn.head
    · exact ⟨_, _, hcs, by decide⟩
    · refine ⟨c, cs, hcs, isSpace_of_digit hdigit, ?_, ?_, ?_⟩ <;>
        · rintro rfl
          exact absurd hdigit (by decide)
  | text htext =>
    cases htext with
    | mk hbody => exact ⟨_, _, rfl, by decide⟩
  | list hbody => exact ⟨_, _, rfl, by decide⟩
  | object hbody => exact ⟨_, _, rfl, by decide⟩

theorem Spells.skipSpace {v : Value} {written before : List Char} (h : Spells v written)
    (hb : Blank before) (rest : List Char) :
    skipSpace (before ++ written ++ rest) = written ++ rest := by
  obtain ⟨c, cs, rfl, hspace, -⟩ := h.head
  rw [List.append_assoc, skipSpace_blank hb]
  exact skipSpace_cons hspace (cs ++ rest)

/-! ## Texts and counts -/

theorem refuseKind_ne_ok {α : Type} {expected : String} {cs : List Char} {a : α} :
    refuseKind expected cs ≠ .ok a := by
  intro h
  obtain ⟨found, -, h⟩ := ok_of_bind h
  cases h

theorem reads_text : Reads text fun s v => v = .text s where
  sound {cs rest s} h := by
    unfold text at h
    split at h
    · cases h
    · next left hleft =>
      obtain ⟨⟨body, after⟩, hbody, heq⟩ := ok_of_map h
      obtain ⟨rfl, rfl⟩ := Prod.mk.inj heq
      obtain ⟨before, hb, rfl⟩ := blank_of_skipSpace hleft
      obtain ⟨written, hw, rfl⟩ := spells_of_textBody hbody
      exact ⟨_, before, '"' :: written ++ ['"'], hb, .text (.mk hw), rfl, by simp⟩
    · exact absurd h refuseKind_ne_ok
  complete {s v before written rest} hv hw hb _ := by
    subst hv
    rw [text, hw.skipSpace hb]
    cases hw with
    | text htext =>
      cases htext with
      | mk hbody =>
        have hread := textBody_of_spells hbody rest
        simp [hread, Except.map]

/-- The number is written without a sign, a fraction or an exponent. -/
def DenotesCount (n : Nat) (v : Value) : Prop :=
  ∃ m : Numeral, v = .number m ∧ m.IsInteger ∧ m.negative = false ∧ decimal m.whole = n

theorem ofInteger_natural {positive : Bool} {significand n : Nat}
    (h : Number.natural n = .ofInteger positive significand) :
    positive = true ∧ n = significand := by
  unfold Number.ofInteger at h
  split at h
  · next hpos => exact ⟨hpos, Number.natural.inj h⟩
  · split at h <;> cases h

theorem reads_count (expected : String) :
    Reads (count expected) fun n v => DenotesCount n v ∧ n < 0x10000000000000000 where
  sound {cs rest n} h := by
    unfold count at h
    split at h
    · cases h
    · next c left hleft =>
      split at h
      · obtain ⟨before, hb, rfl⟩ := blank_of_skipSpace hleft
        obtain ⟨⟨number, after⟩, hnumber, hkind⟩ := ok_of_bind h
        cases number with
        | natural value =>
          obtain ⟨rfl, rfl⟩ := Prod.mk.inj (Except.ok.inj hkind)
          obtain ⟨m, hm, hint, hfit, hvalue, hcut⟩ :=
            numeral_of_signedNumber hnumber (by rintro ⟨f, hf⟩; cases hf)
          obtain ⟨hsign, rfl⟩ := ofInteger_natural hvalue
          refine ⟨.number m, before, m.chars, hb, .number hm, ⟨⟨m, rfl, hint, ?_, rfl⟩, hfit⟩, ?_⟩
          · simpa using hsign
          · rw [List.append_assoc, ← hcut]
        | negative value => cases hkind
        | real value => cases hkind
      · exact absurd h refuseKind_ne_ok
  complete {n v before written rest} hv hw hb hrest := by
    obtain ⟨⟨m, rfl, hint, hsign, rfl⟩, hfit⟩ := hv
    cases hw with
    | number hm =>
      have hread := signedNumber_of_numeral hm hint hfit hrest
      have hskip := (Spells.number hm).skipSpace hb rest
      obtain ⟨c, cs, hcs, hc⟩ := hm.head
      have hbegins : beginsNumber c = true := by
        rcases hc with rfl | hc
        · rfl
        · rw [beginsNumber, isDigit_iff.mpr hc, Bool.or_true]
      rw [hcs] at hread hskip ⊢
      rw [count, hskip]
      rw [List.cons_append] at hread
      simp [hbegins, hread, hsign, Number.ofInteger, bind, Except.bind, pure, Except.pure]

end Freestanding.Json
