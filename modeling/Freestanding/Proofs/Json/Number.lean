import Freestanding.Json.Scalar
import Freestanding.Proofs.Json.Text

/-!
# Integers as the grammar has them

An integer of at most 64 bits is read exactly as it is written: no fraction, no exponent and no zero
in front, and nothing that would go on with it behind.
-/
namespace Freestanding.Json

open Freestanding.Text (digit?)

/-- No token goes on here: the text ends, or white space, a comma or a closing bracket follows. -/
def Delimited (rest : List Char) : Prop :=
  ∀ c ∈ rest.head?, isSpace c = true ∨ c = ',' ∨ c = ']' ∨ c = '\x7d'

/-- A number that is not an integer of at most 64 bits. -/
def Number.IsReal (n : Number) : Prop := ∃ f, n = .real f

/-! ## Digits -/

theorem digit?_eq_some {c : Char} {d : Nat} :
    digit? c = some d ↔ ('0' ≤ c ∧ c ≤ '9') ∧ c.toNat - '0'.toNat = d := by
  simp [digit?]

theorem isDigit_iff {c : Char} : isDigit c = true ↔ '0' ≤ c ∧ c ≤ '9' := by
  rw [isDigit, Option.isSome_iff_exists]
  constructor
  · rintro ⟨d, hd⟩
    exact (digit?_eq_some.mp hd).1
  · intro h
    exact ⟨_, digit?_eq_some.mpr ⟨h, rfl⟩⟩

theorem toNat_sub_of_digit {c : Char} (h : '0' ≤ c ∧ c ≤ '9') :
    c.toNat - '0'.toNat = 0 ↔ c = '0' := by
  have hlow : '0'.toNat ≤ c.toNat := h.1
  constructor
  · intro hzero
    exact Char.toNat_inj.mp (by omega)
  · rintro rfl
    rfl

theorem Delimited.not_digit {c : Char} {rest : List Char} (h : Delimited (c :: rest)) :
    digit? c = none := by
  rw [digit?, if_neg]
  intro hdigit
  rcases h c rfl with hspace | rfl | rfl | rfl
  · rcases isSpace_iff.mp hspace with rfl | rfl | rfl | rfl <;> exact absurd hdigit (by decide)
  all_goals exact absurd hdigit (by decide)

theorem decimal_cons (c : Char) (cs : List Char) :
    decimal (c :: cs) = Nat.ofDigitChars 10 cs (c.toNat - '0'.toNat) := by
  simp [decimal, Nat.ofDigitChars_cons]

theorem le_ofDigitChars (digits : List Char) (high : Nat) :
    high ≤ Nat.ofDigitChars 10 digits high := by
  induction digits generalizing high with
  | nil => simp
  | cons c cs ih =>
    rw [Nat.ofDigitChars_cons]
    exact Nat.le_trans (by omega) (ih _)

theorem fittingDigits_cons {c : Char} {d : Nat} (hc : digit? c = some d) (high : Nat)
    (cs : List Char) :
    fittingDigits high (c :: cs) =
      if high * 10 + d < significandLimit then fittingDigits (high * 10 + d) cs
      else (high, c :: cs) := by
  rw [fittingDigits, hc]

theorem fittingDigits_delimited {rest : List Char} (h : Delimited rest) (high : Nat) :
    fittingDigits high rest = (high, rest) := by
  cases rest with
  | nil => rfl
  | cons c cs => rw [fittingDigits, h.not_digit]

/-- Digits that fit are taken up to where no digit follows. -/
theorem fittingDigits_append {digits rest : List Char} {high : Nat}
    (hd : ∀ c ∈ digits, '0' ≤ c ∧ c ≤ '9')
    (hfit : Nat.ofDigitChars 10 digits high < significandLimit) (hrest : Delimited rest) :
    fittingDigits high (digits ++ rest) = (Nat.ofDigitChars 10 digits high, rest) := by
  induction digits generalizing high with
  | nil => rw [List.nil_append, fittingDigits_delimited hrest, Nat.ofDigitChars_nil]
  | cons c cs ih =>
    rw [Nat.ofDigitChars_cons, Nat.mul_comm] at hfit
    have hstep := Nat.lt_of_le_of_lt (le_ofDigitChars _ _) hfit
    rw [List.cons_append, fittingDigits_cons (digit?_eq_some.mpr ⟨hd c (by simp), rfl⟩),
      if_pos hstep, ih (fun x hx => hd x (by simp [hx])) hfit, Nat.ofDigitChars_cons,
      Nat.mul_comm]

/-- What is taken are digits, and they stay below the limit. -/
theorem fittingDigits_eq {high : Nat} (hhigh : high < significandLimit) (cs : List Char) :
    ∃ digits, (∀ c ∈ digits, '0' ≤ c ∧ c ≤ '9') ∧ cs = digits ++ (fittingDigits high cs).2 ∧
      (fittingDigits high cs).1 = Nat.ofDigitChars 10 digits high ∧
      Nat.ofDigitChars 10 digits high < significandLimit := by
  -- a digit that would not fit is left, and so is everything behind it
  induction cs generalizing high with
  | nil => exact ⟨[], by simp, rfl, by simp [fittingDigits], by simpa⟩
  | cons c cs ih =>
    have hstop : ∃ digits : List Char, (∀ x ∈ digits, '0' ≤ x ∧ x ≤ '9') ∧
        c :: cs = digits ++ (c :: cs) ∧ high = Nat.ofDigitChars 10 digits high ∧
        Nat.ofDigitChars 10 digits high < significandLimit :=
      ⟨[], by simp, rfl, by simp, by simpa⟩
    cases hc : digit? c with
    | none => rw [fittingDigits, hc]; exact hstop
    | some d =>
      rw [fittingDigits_cons hc]
      split
      · next hfit =>
        obtain ⟨digits, hdigits, hcut, hvalue, hlimit⟩ := ih hfit
        obtain ⟨hdigit, rfl⟩ := digit?_eq_some.mp hc
        refine ⟨c :: digits, ?_, ?_, ?_, ?_⟩
        · rintro x (_ | ⟨_, hx⟩)
          · exact hdigit
          · exact hdigits x hx
        · rw [List.cons_append, ← hcut]
        · rw [hvalue, Nat.ofDigitChars_cons, Nat.mul_comm]
        · rw [Nat.ofDigitChars_cons, Nat.mul_comm]; exact hlimit
      · exact hstop

/-! ## Fractions and exponents make no integer -/

theorem isReal_of_real {positive : Bool} {significand : Nat} {exponent : Int} {cs rest : List Char}
    {n : Number} (h : real positive significand exponent cs = .ok (n, rest)) : n.IsReal := by
  unfold real at h
  split at h
  · cases h
  · obtain ⟨rfl, -⟩ := Prod.mk.inj (Except.ok.inj h)
    exact ⟨_, rfl⟩

theorem isReal_of_exponentPart {positive : Bool} {significand : Nat} {scale : Int}
    {cs rest : List Char} {n : Number}
    (h : exponentPart positive significand scale cs = .ok (n, rest)) : n.IsReal := by
  unfold exponentPart at h
  split at h
  next grows digits _ =>
  split at h
  · cases h
  split at h
  · cases h
  split at h
  · exact isReal_of_real h
  split at h
  · cases h
  · obtain ⟨rfl, -⟩ := Prod.mk.inj (Except.ok.inj h)
    exact ⟨_, rfl⟩

theorem isReal_of_exponentOrEnd {positive : Bool} {significand : Nat} {scale : Int}
    {cs rest : List Char} {n : Number}
    (h : exponentOrEnd positive significand scale cs = .ok (n, rest)) : n.IsReal := by
  unfold exponentOrEnd at h
  split at h
  · exact isReal_of_exponentPart h
  · exact isReal_of_exponentPart h
  · exact isReal_of_real h

theorem isReal_of_fraction {positive : Bool} {significand : Nat} {scale : Int}
    {cs rest : List Char} {n : Number}
    (h : fraction positive significand scale cs = .ok (n, rest)) : n.IsReal := by
  unfold fraction at h
  split at h
  · cases h
  split at h
  · exact isReal_of_exponentOrEnd h
  · cases h

theorem integer_of_afterInteger {positive : Bool} {significand extra : Nat} {cs rest : List Char}
    {n : Number} (h : afterInteger positive significand extra cs = .ok (n, rest))
    (hn : ¬ n.IsReal) : extra = 0 ∧ n = .ofInteger positive significand ∧ rest = cs := by
  unfold afterInteger at h
  split at h
  · exact absurd (isReal_of_fraction h) hn
  · exact absurd (isReal_of_exponentPart h) hn
  · exact absurd (isReal_of_exponentPart h) hn
  split at h
  · next hextra =>
    obtain ⟨rfl, rfl⟩ := Prod.mk.inj (Except.ok.inj h)
    exact ⟨hextra, rfl, rfl⟩
  · exact absurd (isReal_of_real h) hn

theorem afterInteger_delimited {rest : List Char} (h : Delimited rest) (positive : Bool)
    (significand : Nat) :
    afterInteger positive significand 0 rest = .ok (.ofInteger positive significand, rest) := by
  unfold afterInteger
  split
  case h_4 => rfl
  all_goals exact absurd (h _ rfl) (by decide)

/-! ## Integers -/

theorem digits_of_number {positive : Bool} {cs rest : List Char} {n : Number}
    (h : number positive cs = .ok (n, rest)) (hn : ¬ n.IsReal) :
    ∃ whole, Digits whole ∧ (whole.head? = some '0' → whole = ['0']) ∧
      decimal whole < significandLimit ∧ n = .ofInteger positive (decimal whole) ∧
      cs = whole ++ rest := by
  cases cs with
  | nil => cases h
  | cons c cs =>
    unfold number at h
    dsimp only at h
    split at h
    · cases h
    · next hc =>
      obtain ⟨hdigit, hzero⟩ := digit?_eq_some.mp hc
      obtain rfl := (toNat_sub_of_digit hdigit).mp hzero
      split at h
      · cases h
      · obtain ⟨-, rfl, rfl⟩ := integer_of_afterInteger h hn
        exact ⟨['0'], by simp [Digits], fun _ => rfl, by decide, rfl, rfl⟩
    · next d hpos hc =>
      obtain ⟨hdigit, rfl⟩ := digit?_eq_some.mp hc
      have hstart : c.toNat - '0'.toNat < significandLimit := by
        have hhigh : c.toNat ≤ '9'.toNat := hdigit.2
        have hnine : '9'.toNat < significandLimit := by decide
        omega
      obtain ⟨digits, hdigits, hcut, hvalue, hlimit⟩ := fittingDigits_eq hstart cs
      obtain ⟨hextra, hnumber, hrest⟩ := integer_of_afterInteger h hn
      refine ⟨c :: digits, ⟨by simp, ?_⟩, ?_, ?_, ?_, ?_⟩
      · rintro x (_ | ⟨_, hx⟩)
        · exact hdigit
        · exact hdigits x hx
      · intro hhead
        obtain rfl := Option.some.inj hhead
        exact absurd rfl hpos
      · rw [decimal_cons]; exact hlimit
      · rw [hnumber, hvalue, decimal_cons]
      · rw [List.cons_append, hrest]
        have hnone := List.eq_nil_of_length_eq_zero hextra
        have hall := List.takeWhile_append_dropWhile (p := isDigit)
          (l := (fittingDigits (c.toNat - '0'.toNat) cs).2)
        rw [hnone, List.nil_append] at hall
        rw [hall, ← hcut]

theorem number_of_digits {whole rest : List Char} (hw : Digits whole)
    (hfront : whole.head? = some '0' → whole = ['0']) (hfit : decimal whole < significandLimit)
    (hrest : Delimited rest) (positive : Bool) :
    number positive (whole ++ rest) = .ok (.ofInteger positive (decimal whole), rest) := by
  cases whole with
  | nil => exact absurd rfl hw.1
  | cons c digits =>
    have hdigit := hw.2 c (by simp)
    have hc : digit? c = some (c.toNat - '0'.toNat) := digit?_eq_some.mpr ⟨hdigit, rfl⟩
    rw [List.cons_append, number]
    dsimp only
    by_cases hzero : c = '0'
    · subst hzero
      obtain rfl : digits = [] := (List.cons.inj (hfront rfl)).2
      have hhead : (rest.head?.map isDigit).getD false = false := by
        cases rest with
        | nil => rfl
        | cons d ds => simp [isDigit, hrest.not_digit]
      rw [hc]
      simp only [List.nil_append, hhead]
      exact afterInteger_delimited hrest positive 0
    · have hpos : c.toNat - '0'.toNat ≠ 0 := fun h => hzero ((toNat_sub_of_digit hdigit).mp h)
      rw [decimal_cons] at hfit
      have hend : rest.takeWhile isDigit = [] ∧ rest.dropWhile isDigit = rest := by
        cases rest with
        | nil => simp
        | cons d ds => simp [isDigit, hrest.not_digit]
      have hfitting := fittingDigits_append (fun x hx => hw.2 x (by simp [hx])) hfit hrest
      rw [hc, decimal_cons]
      split
      · contradiction
      · next h => exact absurd (Option.some.inj h) hpos
      · next d _ h =>
        obtain rfl := Option.some.inj h
        simp only [hfitting, hend]
        exact afterInteger_delimited hrest positive _

theorem numeral_of_signedNumber {cs rest : List Char} {n : Number}
    (h : signedNumber cs = .ok (n, rest)) (hn : ¬ n.IsReal) :
    ∃ m : Numeral, m.Valid ∧ m.IsInteger ∧ decimal m.whole < significandLimit ∧
      n = .ofInteger (!m.negative) (decimal m.whole) ∧ cs = m.chars ++ rest := by
  have hmake : ∀ (negative : Bool) (digits : List Char),
      number (!negative) digits = .ok (n, rest) → ∃ m : Numeral, m.Valid ∧ m.IsInteger ∧
        decimal m.whole < significandLimit ∧ n = .ofInteger (!m.negative) (decimal m.whole) ∧
        (if negative then ['-'] else []) ++ digits = m.chars ++ rest := by
    intro negative digits hnumber
    obtain ⟨whole, hw, hfront, hfit, hvalue, rfl⟩ := digits_of_number hnumber hn
    let m : Numeral := ⟨negative, whole, none, none⟩
    have hint : m.IsInteger := ⟨rfl, rfl⟩
    refine ⟨m, hint.valid hw hfront, hint, hfit, hvalue, ?_⟩
    rw [hint.chars, List.append_assoc]
  unfold signedNumber at h
  split at h
  · exact hmake true _ h
  · exact hmake false _ h

theorem signedNumber_of_numeral {m : Numeral} {rest : List Char} (hm : m.Valid)
    (hint : m.IsInteger) (hfit : decimal m.whole < significandLimit) (hrest : Delimited rest) :
    signedNumber (m.chars ++ rest) = .ok (.ofInteger (!m.negative) (decimal m.whole), rest) := by
  have hnumber := number_of_digits hm.whole hm.front hfit hrest (!m.negative)
  have hchars := hint.chars
  cases hneg : m.negative with
  | true =>
    rw [hneg] at hnumber hchars
    rw [hchars]
    exact hnumber
  | false =>
    rw [hneg] at hnumber hchars
    rw [hchars, ← hnumber]
    obtain ⟨c, cs, hcs⟩ := List.exists_cons_of_ne_nil hm.whole.1
    have hminus : c ≠ '-' := by
      rintro rfl
      exact absurd (hm.whole.2 '-' (by simp [hcs])) (by decide)
    unfold signedNumber
    split
    · next h =>
      rw [hcs] at h
      exact absurd (List.cons.inj h).1 hminus
    · rfl

end Freestanding.Json
