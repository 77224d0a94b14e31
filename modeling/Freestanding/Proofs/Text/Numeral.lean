import Freestanding.Text.Numeral
import Freestanding.Proofs.Json.Number

/-!
# Numerals between white space

A text holds a numeral when white space, of any script, is all that stands around it.
-/
namespace Freestanding.Text

open Freestanding.Json (Digits decimal digit?_eq_some)

/-- An integer and a way of writing it: at most one sign, and digits, of which any may be zero. -/
inductive Signed : Int → List Char → Prop
  | plain {digits : List Char} : Digits digits → Signed (decimal digits) digits
  | plus {digits : List Char} : Digits digits → Signed (decimal digits) ('+' :: digits)
  | minus {digits : List Char} : Digits digits → Signed (-decimal digits) ('-' :: digits)

/-- A numeral between white space. -/
inductive Padded (i : Int) : List Char → Prop
  | mk {before numeral after : List Char} : (∀ c ∈ before, isBlank c = true) → Signed i numeral →
      (∀ c ∈ after, isBlank c = true) → Padded i (before ++ numeral ++ after)

/-! ## Numerals -/

theorem digitsFrom?_eq_some {high n : Nat} {cs : List Char} :
    digitsFrom? high cs = some n ↔
      (∀ c ∈ cs, '0' ≤ c ∧ c ≤ '9') ∧ Nat.ofDigitChars 10 cs high = n := by
  induction cs generalizing high with
  | nil => simp [digitsFrom?]
  | cons c cs ih =>
    rw [digitsFrom?, Nat.ofDigitChars_cons]
    constructor
    · intro h
      obtain ⟨d, hd, hrest⟩ := Option.bind_eq_some_iff.mp h
      obtain ⟨hdigit, rfl⟩ := digit?_eq_some.mp hd
      obtain ⟨hdigits, hvalue⟩ := ih.mp hrest
      refine ⟨?_, by rw [Nat.mul_comm]; exact hvalue⟩
      rintro x (_ | ⟨_, hx⟩)
      · exact hdigit
      · exact hdigits x hx
    · rintro ⟨hdigits, hvalue⟩
      rw [Nat.mul_comm] at hvalue
      refine Option.bind_eq_some_iff.mpr ⟨_, digit?_eq_some.mpr ⟨hdigits c (by simp), rfl⟩, ?_⟩
      exact ih.mpr ⟨fun x hx => hdigits x (by simp [hx]), hvalue⟩

theorem natural?_eq_some {n : Nat} {cs : List Char} :
    natural? cs = some n ↔ Digits cs ∧ decimal cs = n := by
  cases cs with
  | nil => simp [natural?, Digits]
  | cons c cs =>
    rw [natural?, digitsFrom?_eq_some]
    · simp [Digits, decimal]
    · rintro ⟨⟩

theorem integer?_eq_some {i : Int} {cs : List Char} : integer? cs = some i ↔ Signed i cs := by
  constructor
  · intro h
    unfold integer? at h
    split at h
    all_goals
      obtain ⟨n, hn, hi⟩ := Option.map_eq_some_iff.mp h
      obtain ⟨hdigits, rfl⟩ := natural?_eq_some.mp hn
      obtain rfl := hi
    · exact .plus hdigits
    · exact .minus hdigits
    · exact .plain hdigits
  · intro h
    cases h with
    | plain hdigits =>
      have hnatural := natural?_eq_some.mpr ⟨hdigits, rfl⟩
      unfold integer?
      split
      · exact absurd (hdigits.2 '+' (by simp)) (by decide)
      · exact absurd (hdigits.2 '-' (by simp)) (by decide)
      · rw [hnatural]
        rfl
    | plus hdigits => rw [integer?, natural?_eq_some.mpr ⟨hdigits, rfl⟩]; rfl
    | minus hdigits => rw [integer?, natural?_eq_some.mpr ⟨hdigits, rfl⟩]; rfl

/-! ## White space around -/

theorem isBlank_of_digit {c : Char} (h : '0' ≤ c ∧ c ≤ '9') : isBlank c = false := by
  have hlow : 48 ≤ c.toNat := h.1
  have hhigh : c.toNat ≤ 57 := h.2
  simp only [isBlank, Bool.or_eq_false_iff, Bool.and_eq_false_iff, decide_eq_false_iff_not,
    beq_eq_false_iff_ne]
  omega

theorem dropWhile_blank {before cs : List Char} (hb : ∀ c ∈ before, isBlank c = true)
    (hcs : ∀ c ∈ cs.head?, isBlank c = false) : (before ++ cs).dropWhile isBlank = cs := by
  rw [List.dropWhile_append_of_pos hb]
  cases cs with
  | nil => rfl
  | cons c cs => rw [List.dropWhile_cons_of_neg (by simp [hcs c rfl])]

theorem trim_padded {before core after : List Char} (hb : ∀ c ∈ before, isBlank c = true)
    (ha : ∀ c ∈ after, isBlank c = true) (hfirst : ∀ c ∈ core.head?, isBlank c = false)
    (hlast : ∀ c ∈ core.getLast?, isBlank c = false) (hcore : core ≠ []) :
    trim (before ++ core ++ after) = core := by
  obtain ⟨c, cs, rfl⟩ := List.exists_cons_of_ne_nil hcore
  have hfront : ∀ x ∈ ((c :: cs) ++ after).head?, isBlank x = false := hfirst
  have hback : ∀ x ∈ (c :: cs).reverse.head?, isBlank x = false := by
    rw [List.head?_reverse]
    exact hlast
  rw [trim, List.append_assoc, dropWhile_blank hb hfront, List.reverse_append,
    dropWhile_blank (by simpa using ha) hback, List.reverse_reverse]

theorem trim_cut (cs : List Char) : ∃ before after, (∀ c ∈ before, isBlank c = true) ∧
    (∀ c ∈ after, isBlank c = true) ∧ cs = before ++ trim cs ++ after := by
  have hall : ∀ (ds : List Char), ∀ c ∈ ds.takeWhile isBlank, isBlank c = true :=
    fun ds c hc => List.all_eq_true.mp List.all_takeWhile c hc
  refine ⟨cs.takeWhile isBlank, ((cs.dropWhile isBlank).reverse.takeWhile isBlank).reverse,
    hall cs, ?_, ?_⟩
  · intro c hc
    exact hall _ c (List.mem_reverse.mp hc)
  · rw [trim, List.append_assoc, ← List.reverse_append, List.takeWhile_append_dropWhile,
      List.reverse_reverse, List.takeWhile_append_dropWhile]

theorem Signed.ends {i : Int} {cs : List Char} (h : Signed i cs) :
    cs ≠ [] ∧ (∀ c ∈ cs.head?, isBlank c = false) ∧ ∀ c ∈ cs.getLast?, isBlank c = false := by
  have hlast : ∀ {digits : List Char}, Digits digits → ∀ c ∈ digits.getLast?, isBlank c = false :=
    fun hd c hc => isBlank_of_digit (hd.2 c (List.mem_of_getLast? hc))
  cases h with
  | plain hd =>
    exact ⟨hd.1, fun c hc => isBlank_of_digit (hd.2 c (List.mem_of_head? hc)), hlast hd⟩
  | plus hd =>
    refine ⟨by simp, by rintro _ ⟨⟩; decide, ?_⟩
    rw [List.getLast?_cons_of_ne_nil hd.1]
    exact hlast hd
  | minus hd =>
    refine ⟨by simp, by rintro _ ⟨⟩; decide, ?_⟩
    rw [List.getLast?_cons_of_ne_nil hd.1]
    exact hlast hd

theorem integer?_trim {i : Int} {cs : List Char} : integer? (trim cs) = some i ↔ Padded i cs := by
  constructor
  · intro h
    obtain ⟨before, after, hb, ha, hcut⟩ := trim_cut cs
    rw [hcut]
    exact .mk hb (integer?_eq_some.mp h) ha
  · intro h
    cases h with
    | mk hb hs ha =>
      obtain ⟨hcore, hfirst, hlast⟩ := hs.ends
      rw [trim_padded hb ha hfirst hlast hcore]
      exact integer?_eq_some.mpr hs

end Freestanding.Text
