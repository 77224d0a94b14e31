import Freestanding.Proofs.Text.Numeral

/-!
# Printed numbers

A number is printed as its digits, without a zero in front, and a negative one with a sign before
them. So what is printed is read back as the same number.
-/
namespace Freestanding.Text

open Freestanding.Json (Digits decimal)

theorem toString_int (n : Int) :
    toString n = (if n < 0 then "-" else "") ++ toString n.natAbs := by
  show n.repr = _
  rw [Int.repr_eq_if]
  by_cases h : n < 0
  · have habs : (-n).toNat = n.natAbs := by omega
    rw [if_neg (by omega), if_pos h, habs]
    rfl
  · have habs : n.toNat = n.natAbs := by omega
    rw [if_pos (by omega), if_neg h, habs, String.empty_append]
    rfl

theorem toList_toString_nat (n : Nat) : (toString n).toList = Nat.toDigits 10 n := by
  rw [Nat.toString_eq_ofList_toDigits, String.toList_ofList]

theorem toList_toString_int (n : Int) :
    (toString n).toList = (if n < 0 then ['-'] else []) ++ Nat.toDigits 10 n.natAbs := by
  rw [toString_int, String.toList_append, toList_toString_nat]
  split <;> rfl

/-! ## Digits -/

theorem digits_toDigits (n : Nat) : Digits (Nat.toDigits 10 n) := by
  refine ⟨Nat.toDigits_ne_nil, fun c hc => ?_⟩
  have hdigit := Nat.isDigit_of_mem_toDigits (by decide) (by decide) hc
  rw [Char.isDigit, Bool.and_eq_true, decide_eq_true_iff, decide_eq_true_iff] at hdigit
  exact hdigit

theorem decimal_toDigits (n : Nat) : decimal (Nat.toDigits 10 n) = n :=
  Nat.ofDigitChars_toDigits (by decide) (by decide)

/-- Only the number zero begins with a zero. -/
theorem eq_zero_of_head?_toDigits {base n : Nat} (hbase : 1 < base)
    (h : (Nat.toDigits base n).head? = some '0') : n = 0 := by
  induction n using Nat.strongRecOn with
  | ind n ih =>
    rw [Nat.toDigits_eq_if hbase] at h
    split at h
    · exact Nat.digitChar_eq_zero.mp (Option.some.inj h)
    · next hle =>
      -- The first digit is that of the number without its last digit, which is no zero.
      have hpos : 0 < n / base := Nat.div_pos (Nat.le_of_not_lt hle) (by omega)
      have hfront : (Nat.toDigits base (n / base)).head? = some '0' := by
        rcases Option.or_eq_some_iff.mp (List.head?_append ▸ h) with hfirst | ⟨hnone, -⟩
        · exact hfirst
        · exact absurd (List.head?_eq_none_iff.mp hnone) Nat.toDigits_ne_nil
      have hzero := ih _ (Nat.div_lt_self (by omega) hbase) hfront
      omega

/-- A character that is no digit of any base does not stand in a number. -/
theorem not_mem_toDigits {base : Nat} (hbase : 1 < base) {c : Char}
    (hc : ∀ d, Nat.digitChar d ≠ c) (n : Nat) : c ∉ Nat.toDigits base n := by
  induction n using Nat.strongRecOn with
  | ind n ih =>
    rw [Nat.toDigits_eq_if hbase]
    split
    · rw [List.mem_singleton]
      exact (hc n).symm
    · rw [List.mem_append, List.mem_singleton]
      apply not_or.mpr
      exact ⟨ih _ (Nat.div_lt_self (by omega) hbase), (hc _).symm⟩

theorem newline_not_mem_toDigits {base : Nat} (hbase : 1 < base) (n : Nat) :
    '\n' ∉ Nat.toDigits base n :=
  not_mem_toDigits hbase (fun _ => Nat.digitChar_ne '\n' rfl) n

theorem hexDigit?_digitChar : ∀ d < 16, hexDigit? (Nat.digitChar d) = some d := by decide

theorem digitChar_inj {d e : Nat} (hd : d < 16) (he : e < 16)
    (h : Nat.digitChar d = Nat.digitChar e) : d = e := by
  have hread := hexDigit?_digitChar d hd
  rw [h, hexDigit?_digitChar e he] at hread
  exact (Option.some.inj hread).symm

/-- No two numbers have the same digits. -/
theorem toDigits_inj {base : Nat} (hbase : 1 < base) (hle : base ≤ 16) {n m : Nat}
    (h : Nat.toDigits base n = Nat.toDigits base m) : n = m := by
  induction n using Nat.strongRecOn generalizing m with
  | ind n ih =>
    have hshort : n < base ↔ m < base := by
      have hn := Nat.length_toDigits_le_iff (n := n) (k := 1) hbase (by decide)
      have hm := Nat.length_toDigits_le_iff (n := m) (k := 1) hbase (by decide)
      rw [Nat.pow_one] at hn hm
      rw [← hn, ← hm, h]
    by_cases hn : n < base
    · have hm := hshort.mp hn
      rw [Nat.toDigits_of_lt_base hn, Nat.toDigits_of_lt_base hm] at h
      exact digitChar_inj (by omega) (by omega) (List.singleton_inj.mp h)
    · have hm : base ≤ m := Nat.le_of_not_lt fun hm => hn (hshort.mpr hm)
      have hn : base ≤ n := Nat.le_of_not_lt hn
      rw [Nat.toDigits_of_base_le hbase hn, Nat.toDigits_of_base_le hbase hm] at h
      -- The last digits agree, and so do the numbers without them.
      obtain ⟨hfront, hlast⟩ := List.append_inj' h rfl
      have hdiv := ih _ (Nat.div_lt_self (by omega) hbase) hfront
      have hnlast := Nat.mod_lt n (Nat.zero_lt_of_lt hbase)
      have hmlast := Nat.mod_lt m (Nat.zero_lt_of_lt hbase)
      have hmod := digitChar_inj (by omega) (by omega) (List.singleton_inj.mp hlast)
      rw [← Nat.div_add_mod n base, ← Nat.div_add_mod m base, hdiv, hmod]

/-! ## Printed integers are read back -/

theorem signed_toString (n : Int) : Signed n (toString n).toList := by
  have hdigits := digits_toDigits n.natAbs
  have hvalue := decimal_toDigits n.natAbs
  rw [toList_toString_int]
  split
  · have hint : -(decimal (Nat.toDigits 10 n.natAbs) : Int) = n := by omega
    have hsigned := Signed.minus hdigits
    rwa [hint] at hsigned
  · have hint : (decimal (Nat.toDigits 10 n.natAbs) : Int) = n := by omega
    have hsigned := Signed.plain hdigits
    rwa [hint] at hsigned

/-- No two integers are printed alike. -/
theorem toString_int_inj {n m : Int} (h : toString n = toString m) : n = m := by
  have hread := integer?_eq_some.mpr (signed_toString n)
  rw [h, integer?_eq_some.mpr (signed_toString m)] at hread
  exact (Option.some.inj hread).symm

theorem space_not_mem_toString (n : Int) : ' ' ∉ (toString n).toList := by
  rw [toList_toString_int, List.mem_append]
  apply not_or.mpr
  constructor
  · split <;> decide
  · exact not_mem_toDigits (by decide) (fun _ => Nat.digitChar_ne ' ' rfl) _

/-! ## Taking a line apart -/

variable {c : Char} {front front' back back' : List Char}

/-- A mark that stands in neither front parts two lines alike. -/
theorem parts_of_first_mark (h : c ∉ front) (h' : c ∉ front')
    (heq : front ++ c :: back = front' ++ c :: back') : front = front' ∧ back = back' := by
  rcases List.append_eq_append_iff.mp heq with ⟨between, hfront, hback⟩ | ⟨between, hfront, hback⟩
  · cases between with
    | nil => exact ⟨by simpa using hfront.symm, (List.cons.inj hback).2⟩
    | cons b between =>
      obtain ⟨rfl, -⟩ := List.cons.inj hback
      exact absurd (hfront ▸ List.mem_append_right _ List.mem_cons_self) h'
  · cases between with
    | nil => exact ⟨by simpa using hfront, (List.cons.inj hback).2.symm⟩
    | cons b between =>
      obtain ⟨rfl, -⟩ := List.cons.inj hback
      exact absurd (hfront ▸ List.mem_append_right _ List.mem_cons_self) h

/-- A mark that stands in neither back parts two lines alike. -/
theorem parts_of_last_mark (h : c ∉ back) (h' : c ∉ back')
    (heq : front ++ c :: back = front' ++ c :: back') : front = front' ∧ back = back' := by
  have hreversed := congrArg List.reverse heq
  simp only [List.reverse_append, List.reverse_cons, List.append_assoc, List.singleton_append]
    at hreversed
  obtain ⟨hback, hfront⟩ := parts_of_first_mark (mt List.mem_reverse.mp h)
    (mt List.mem_reverse.mp h') hreversed
  exact ⟨List.reverse_inj.mp hfront, List.reverse_inj.mp hback⟩

end Freestanding.Text
