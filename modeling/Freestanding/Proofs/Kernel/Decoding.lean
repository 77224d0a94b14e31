import Freestanding.Proofs.Kernel.Answer
import Freestanding.Proofs.Text.Printed

/-!
# What decoding keeps of an answer

Decoding keeps the whole answer: the code of an error is the answer itself, and a result is the
answer without its sign. What an error prints keeps its code, because the number is all that stands
behind the last space. Only the least code has no number to print, since no word is its negation, and
no answer is decoded to an error with that code.
-/
namespace Freestanding.Kernel

open Freestanding.Text (parts_of_last_mark space_not_mem_toString toString_int_inj)

/-- The answer with a meaning: the code of an error, or a result taken as a signed word. -/
def encode : Except KernelError UInt64 → Int64
  | .error e => e.code
  | .ok result => result.toInt64

theorem encode_decode (returned : Int64) : encode (decode returned) = returned := by
  cases hdecode : decode returned with
  | error e => exact (decode_eq_error_iff.mp hdecode).2
  | ok result =>
    obtain ⟨_, rfl⟩ := decode_eq_ok_iff.mp hdecode
    exact Int64.toInt64_toUInt64 returned

/-- A result stands for the signed integer that it is modulo 2^64. -/
theorem toInt_encode_ok (result : UInt64) :
    (encode (.ok result)).toInt = (result.toNat : Int).bmod 0x10000000000000000 := by
  rw [encode, Int64.toInt, UInt64.toBitVec_toInt64, BitVec.toInt_eq_toNat_bmod,
    UInt64.toNat_toBitVec]

theorem exists_error_iff {returned : Int64} :
    (∃ e, decode returned = .error e) ↔ -4095 ≤ returned.toInt ∧ returned.toInt ≤ -1 := by
  constructor
  · rintro ⟨e, hdecode⟩
    obtain ⟨hlow, hneg⟩ := toInt_range.mp (decode_eq_error_iff.mp hdecode).1
    exact ⟨hlow, by omega⟩
  · rintro ⟨hlow, hhigh⟩
    exact ⟨⟨returned⟩, decode_eq_error_iff.mpr ⟨toInt_range.mpr ⟨hlow, by omega⟩, rfl⟩⟩

/-! ## Printed errors -/

/-- Every word but the least has a negation. -/
theorem exists_negation_iff (word : Int64) :
    (∃ negated : Int64, negated.toInt = -word.toInt) ↔ word ≠ Int64.minValue := by
  have hleast : Int64.minValue.toInt = -0x8000000000000000 := rfl
  constructor
  · rintro ⟨negated, hnegated⟩ rfl
    have hlt := negated.toInt_lt
    omega
  · intro hne
    have hlow := word.le_toInt
    have hhigh := word.toInt_lt
    have hint : word.toInt ≠ -0x8000000000000000 :=
      fun h => hne (Int64.toInt_inj.mp (h.trans hleast.symm))
    exact ⟨Int64.ofInt (-word.toInt), Int64.toInt_ofInt_of_le (by omega) (by omega)⟩

namespace KernelError

variable {e e' : KernelError} {text : String}

theorem message?_eq_some_iff :
    e.message? = some text ↔ e.code ≠ Int64.minValue ∧
      text = e.description ++ " (errno " ++ toString (-e.code.toInt) ++ ")" := by
  unfold message? number?
  split
  · next hleast => simp [hleast]
  · next hne => simp [hne, eq_comm]

theorem message?_eq_none_iff : e.message? = none ↔ e.code = Int64.minValue := by
  unfold message? number?
  split
  · next hleast => simp [hleast]
  · next hne => simp [hne]

/-- What is printed tells the error. -/
theorem eq_of_message? (h : e.message? = some text) (h' : e'.message? = some text) : e = e' := by
  obtain ⟨-, rfl⟩ := message?_eq_some_iff.mp h
  obtain ⟨-, htext⟩ := message?_eq_some_iff.mp h'
  have hchars (d : KernelError) :
      (d.description ++ " (errno " ++ toString (-d.code.toInt) ++ ")").toList =
        (d.description.toList ++ " (errno".toList) ++ ' ' :: (toString (-d.code.toInt)).toList ++
          [')'] := by
    simp only [String.toList_append, List.append_assoc]
    rfl
  have hline := congrArg String.toList htext
  rw [hchars, hchars] at hline
  obtain ⟨-, hnumber⟩ := parts_of_last_mark (space_not_mem_toString _) (space_not_mem_toString _)
    (List.append_cancel_right hline)
  have hcode := Int.neg_inj.mp (toString_int_inj (String.toList_inj.mp hnumber))
  exact KernelError.ext (Int64.toInt_inj.mp hcode)

end KernelError

/-- An error that an answer was decoded to has a number to print. -/
theorem message?_of_decode {returned : Int64} {e : KernelError} (h : decode returned = .error e) :
    ∃ k : Nat, 1 ≤ k ∧ k ≤ 4095 ∧ returned.toInt = -k ∧
      e.message? = some (e.description ++ " (errno " ++ toString k ++ ")") := by
  obtain ⟨hrange, rfl⟩ := decode_eq_error_iff.mp h
  obtain ⟨hlow, hneg⟩ := toInt_range.mp hrange
  have hleast : Int64.minValue.toInt = -0x8000000000000000 := rfl
  have hnumber : -e.code.toInt = (e.code.toInt.natAbs : Int) := by omega
  refine ⟨e.code.toInt.natAbs, by omega, by omega, by omega, ?_⟩
  rw [KernelError.message?_eq_some_iff, hnumber]
  refine ⟨fun h => ?_, rfl⟩
  rw [h] at hlow
  omega

theorem eq_of_decode_message? {returned returned' : Int64} {e e' : KernelError}
    (h : decode returned = .error e) (h' : decode returned' = .error e')
    (htext : e.message? = e'.message?) : returned = returned' := by
  obtain ⟨k, _, _, _, hmessage⟩ := message?_of_decode h
  have hsame := KernelError.eq_of_message? hmessage (htext ▸ hmessage)
  rw [← (decode_eq_error_iff.mp h).2, ← (decode_eq_error_iff.mp h').2, hsame]

/-- Decoding loses nothing. Exactly the answers from -4095 to -1 are errors. An answer is the code of
its error, or its result modulo 2^64 as a signed integer, so no two answers are decoded alike. Every
error that an answer is decoded to prints its description and its number, and no two of them print
the same text. Of all errors only the one with the least code does not print: the negation of its
code is no word. -/
theorem decode_loses_nothing :
    (∀ returned, (∃ e, decode returned = .error e) ↔
        -4095 ≤ returned.toInt ∧ returned.toInt ≤ -1) ∧
      (∀ returned e, decode returned = .error e → e.code.toInt = returned.toInt) ∧
      (∀ returned result, decode returned = .ok result →
        (result.toNat : Int).bmod 0x10000000000000000 = returned.toInt) ∧
      Function.Injective decode ∧
      (∀ returned e, decode returned = .error e →
        ∃ k : Nat, 1 ≤ k ∧ k ≤ 4095 ∧ returned.toInt = -k ∧
          e.message? = some (e.description ++ " (errno " ++ toString k ++ ")")) ∧
      (∀ returned returned' e e', decode returned = .error e → decode returned' = .error e' →
        e.message? = e'.message? → returned = returned') ∧
      ∀ e : KernelError, (e.message? = none ↔ e.code = Int64.minValue) ∧
        (e.message? = none ↔ ¬∃ negated : Int64, negated.toInt = -e.code.toInt) := by
  refine ⟨fun _ => exists_error_iff, ?_, ?_, ?_, fun _ _ => message?_of_decode,
    fun _ _ _ _ => eq_of_decode_message?, ?_⟩
  · intro returned e hdecode
    rw [(decode_eq_error_iff.mp hdecode).2]
  · intro returned result hdecode
    rw [← toInt_encode_ok, ← hdecode, encode_decode]
  · exact Function.LeftInverse.injective encode_decode
  · intro e
    have hnone := KernelError.message?_eq_none_iff (e := e)
    exact ⟨hnone, by rw [hnone, exists_negation_iff, Classical.not_not]⟩

/-- The last answer that is an error, and the first below it. -/
theorem decode_loses_nothing_at_limit :
    ∃ e result, decode (-4095) = .error e ∧ decode (-4096) = .ok result ∧
      e.code.toInt = -4095 ∧ (result.toNat : Int).bmod 0x10000000000000000 = -4096 ∧
      ∃ k : Nat, (-4095 : Int) = -k ∧
        e.message? = some (e.description ++ " (errno " ++ toString k ++ ")") := by
  have herror : decode (-4095) = .error ⟨-4095⟩ := rfl
  have hresult : decode (-4096) = .ok (-4096 : Int64).toUInt64 := rfl
  obtain ⟨_, hcode, hvalue, _, hprints, _⟩ := decode_loses_nothing
  obtain ⟨k, _, _, hk, hmessage⟩ := hprints _ _ herror
  exact ⟨_, _, herror, hresult, hcode _ _ herror, hvalue _ _ hresult, k, hk, hmessage⟩

end Freestanding.Kernel
