import Freestanding.Proofs.Json.Reader

/-!
# What is kept of a value

Of a value of any kind only a text and an integer of at most 64 bits are kept. They are kept as they
are meant.
-/
namespace Freestanding.Json

/-- An integer that is held in 64 bits, with a sign or without. A zero with a minus is none. -/
def Numeral.FitsWord (m : Numeral) : Prop :=
  m.IsInteger ∧
    if m.negative then 0 < decimal m.whole ∧ decimal m.whole ≤ 0x8000000000000000
    else decimal m.whole < 0x10000000000000000

/-- What is kept of a value that is not dropped. -/
inductive Keeps : Scalar → Value → Prop
  | integer {m : Numeral} : m.FitsWord → Keeps (.integer m.integer) (.number m)
  | text {s : String} : Keeps (.text s) (.text s)

theorem Numeral.FitsWord.lt {m : Numeral} (h : m.FitsWord) :
    decimal m.whole < significandLimit := by
  have hfit := h.2
  unfold significandLimit
  split at hfit <;> omega

theorem scalar_negative (n : Nat) : (Number.ofInteger false n).scalar
    = if 0 < n ∧ n ≤ 0x8000000000000000 then .integer (-n) else .other := by
  rw [Number.ofInteger, if_neg Bool.false_ne_true]
  split
  · rfl
  · rfl

theorem Numeral.FitsWord.scalar {m : Numeral} (h : m.FitsWord) :
    (Number.ofInteger (!m.negative) (decimal m.whole)).scalar = .integer m.integer := by
  have hfit := h.2
  cases hneg : m.negative with
  | true =>
    rw [hneg, if_pos rfl] at hfit
    rw [Bool.not_true, scalar_negative, if_pos hfit, Numeral.integer, if_pos hneg]
  | false =>
    rw [Numeral.integer, if_neg (by simp [hneg])]
    rfl

theorem fitsWord_of_scalar {m : Numeral} (hint : m.IsInteger)
    (hfit : decimal m.whole < significandLimit)
    (h : (Number.ofInteger (!m.negative) (decimal m.whole)).scalar ≠ .other) : m.FitsWord := by
  refine ⟨hint, ?_⟩
  cases hneg : m.negative with
  | true =>
    rw [if_pos rfl]
    by_cases hrange : 0 < decimal m.whole ∧ decimal m.whole ≤ 0x8000000000000000
    · exact hrange
    · rw [hneg, Bool.not_true, scalar_negative, if_neg hrange] at h
      exact absurd rfl h
  | false => exact hfit

theorem scalar_of_map {γ : Type} {f : γ → Scalar × List Char} {first : Except Failure γ}
    {s : Scalar} {rest : List Char} (hf : ∀ c, (f c).1 = .other) (h : first.map f = .ok (s, rest)) :
    s = .other := by
  obtain ⟨c, -, hc⟩ := ok_of_map h
  have hfirst := hf c
  rw [hc] at hfirst
  exact hfirst

theorem value_sound {depth : Nat} {cs rest : List Char} {s : Scalar}
    (h : value depth cs = .ok (s, rest)) (hs : s ≠ .other) :
    ∃ v before written, Blank before ∧ Spells v written ∧ Keeps s v ∧
      cs = before ++ written ++ rest := by
  rw [value, valueWithin] at h
  -- words, lists and objects are dropped, so only a text and a number are left
  split at h
  · cases h
  · exact absurd (scalar_of_map (fun _ => rfl) h) hs
  · exact absurd (scalar_of_map (fun _ => rfl) h) hs
  · exact absurd (scalar_of_map (fun _ => rfl) h) hs
  · next left hleft =>
    obtain ⟨⟨body, after⟩, hbody, heq⟩ := ok_of_map h
    obtain ⟨rfl, rfl⟩ := Prod.mk.inj heq
    obtain ⟨before, hb, rfl⟩ := blank_of_skipSpace hleft
    obtain ⟨written, hw, rfl⟩ := spells_of_textBody hbody
    exact ⟨_, before, '"' :: written ++ ['"'], hb, .text (.mk hw), .text, by simp⟩
  · split at h
    · cases h
    · exact absurd (scalar_of_map (fun _ => rfl) h) hs
  · split at h
    · cases h
    · exact absurd (scalar_of_map (fun _ => rfl) h) hs
  · next c left _ _ _ _ _ _ hleft =>
    split at h
    · obtain ⟨⟨n, after⟩, hnumber, heq⟩ := ok_of_map h
      obtain ⟨rfl, rfl⟩ := Prod.mk.inj heq
      obtain ⟨before, hb, rfl⟩ := blank_of_skipSpace hleft
      have hreal : ¬ n.IsReal := by
        rintro ⟨f, rfl⟩
        exact hs rfl
      obtain ⟨m, hm, hint, hfit, rfl, hcut⟩ := numeral_of_signedNumber hnumber hreal
      have hword := fitsWord_of_scalar hint hfit hs
      refine ⟨.number m, before, m.chars, hb, .number hm, ?_, by rw [List.append_assoc, hcut]⟩
      exact hword.scalar ▸ .integer hword
    · cases h

theorem beginsNumber_of_head {c : Char} (h : c = '-' ∨ '0' ≤ c ∧ c ≤ '9') :
    beginsNumber c = true := by
  rcases h with rfl | h
  · rfl
  · rw [beginsNumber, isDigit_iff.mpr h, Bool.or_true]

theorem value_complete {s : Scalar} {v : Value} {before written rest : List Char}
    (hkeep : Keeps s v) (hw : Spells v written) (hb : Blank before) (hrest : Delimited rest)
    (depth : Nat) : value depth (before ++ written ++ rest) = .ok (s, rest) := by
  have hskip := hw.skipSpace hb rest
  cases hkeep with
  | @integer m hword =>
    cases hw with
    | number hm =>
      have hread := signedNumber_of_numeral hm hword.1 hword.lt hrest
      obtain ⟨c, cs, hcs, hc⟩ := hm.head
      have hletters : c ≠ 'n' ∧ c ≠ 't' ∧ c ≠ 'f' ∧ c ≠ '"' ∧ c ≠ '[' ∧ c ≠ '\x7b' := by
        rcases hc with rfl | hc
        · decide
        · refine ⟨?_, ?_, ?_, ?_, ?_, ?_⟩ <;>
            · rintro rfl
              exact absurd hc (by decide)
      rw [hcs] at hread hskip ⊢
      rw [value, valueWithin, hskip]
      rw [List.cons_append] at hread ⊢
      split
      · next heq => cases heq
      · next heq => exact absurd (List.cons.inj heq).1 hletters.1
      · next heq => exact absurd (List.cons.inj heq).1 hletters.2.1
      · next heq => exact absurd (List.cons.inj heq).1 hletters.2.2.1
      · next heq => exact absurd (List.cons.inj heq).1 hletters.2.2.2.1
      · next heq => exact absurd (List.cons.inj heq).1 hletters.2.2.2.2.1
      · next heq => exact absurd (List.cons.inj heq).1 hletters.2.2.2.2.2
      · next heq =>
        obtain ⟨rfl, rfl⟩ := List.cons.inj heq
        rw [if_pos (beginsNumber_of_head hc), hread, ← hword.scalar]
        rfl
  | text =>
    cases hw with
    | text htext =>
      cases htext with
      | mk hbody =>
        have hread := textBody_of_spells hbody rest
        rw [value, valueWithin, hskip]
        simp [hread, Except.map]

end Freestanding.Json
