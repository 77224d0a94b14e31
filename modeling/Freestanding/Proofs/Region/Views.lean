import Mathlib.Algebra.BigOperators.Ring.Finset
import Mathlib.Tactic.Ring
import Freestanding.Region.Reserved

/-!
# The byte view and the word view

However writes of words and of single bytes follow on one another, each byte of a region is the one
that was last written there, and each word is spelled by the eight bytes at its place. A read leaves
everything as it is.
-/
namespace Freestanding.Bytes

theorem lowFirst_eq_sum (bytes : List UInt8) :
    lowFirst bytes =
      ∑ k ∈ Finset.range bytes.length, (bytes[k]?.getD 0).toNat * 256 ^ k := by
  induction bytes with
  | nil => rfl
  | cons b bs ih =>
    rw [lowFirst, ih, List.length_cons, Finset.sum_range_succ', Finset.mul_sum, Nat.add_comm]
    congr 1
    · refine Finset.sum_congr rfl fun k _ => ?_
      rw [List.getElem?_cons_succ]
      ring
    · simp

theorem getElem?_lowBytes (size n k : Nat) :
    (lowBytes size n)[k]? = if k < size then some (UInt8.ofNat (n / 256 ^ k)) else none := by
  induction size generalizing n k with
  | zero => simp [lowBytes]
  | succ size ih =>
    cases k with
    | zero => simp [lowBytes]
    | succ k =>
      rw [lowBytes, List.getElem?_cons_succ, ih, Nat.div_div_eq_div_mul, ← Nat.pow_succ']
      simp

end Freestanding.Bytes

namespace Freestanding.Region

open Freestanding.Bytes (lowBytes lowFirst lowFirst_lt lowFirst_eq_sum getElem?_lowBytes)
open Freestanding.Layout (wordBytes)

section LastWrite

variable {α β : Type}

/-- What a place holds after writes, given what each puts there, if anything. -/
def lastOf (written? : α → Option β) (initial : β) (writes : List α) : β :=
  (writes.filterMap written?).getLast?.getD initial

/-- The first write only matters as what the place holds at first for the others. -/
theorem lastOf_cons (written? : α → Option β) (initial : β) (w : α) (writes : List α) :
    lastOf written? initial (w :: writes) =
      lastOf written? ((written? w).getD initial) writes := by
  unfold lastOf
  cases h : written? w with
  | none => rw [List.filterMap_cons_none h]; rfl
  | some b => rw [List.filterMap_cons_some h, List.getLast?_cons]; rfl

end LastWrite

/-- The value that a write puts at an offset, if it names it. The word at an index names eight bytes,
the lowest first. -/
def Write.byteAt? (offset : Nat) : Write → Option UInt8
  | .byte named value => if named = offset then some value else none
  | .word index value =>
    if index = offset / 8 then some (UInt8.ofNat (value.toNat / 256 ^ (offset % 8))) else none

namespace Reserved

variable {words : Nat} (region : Reserved words)

/-! ## One write -/

theorem byte?_of_size_le {offset : Nat} (h : words * wordBytes ≤ offset) :
    region.byte? offset = none := by
  rw [byte?, Vector.getElem?_eq_none h]

theorem byte?_setBytes (offset : Nat) (bytes : List UInt8) {other : Nat}
    (h : other < words * wordBytes) :
    (region.setBytes offset bytes).byte? other =
      if offset ≤ other ∧ other < offset + bytes.length then bytes[other - offset]?
      else region.byte? other := by
  induction bytes generalizing region offset with
  | nil =>
    have hnone : ¬ (offset ≤ other ∧ other < offset + ([] : List UInt8).length) := by simp
    rw [setBytes, if_neg hnone]
  | cons b bs ih =>
    rw [setBytes, ih, byte?_setByte, List.length_cons]
    by_cases hfirst : offset = other
    · subst hfirst
      rw [if_neg (by omega), if_pos ⟨rfl, h⟩, if_pos (by omega), Nat.sub_self]
      rfl
    · by_cases hin : offset + 1 ≤ other ∧ other < offset + 1 + bs.length
      · have hnext : other - offset = other - (offset + 1) + 1 := by omega
        rw [if_pos hin, if_pos (by omega), hnext, List.getElem?_cons_succ]
      · rw [if_neg hin, if_neg (by simp [hfirst]), if_neg (by omega)]

/-- A byte inside the region is the one that the write puts there, or else what it was. -/
theorem byte?_write (w : Write) {offset : Nat} (h : offset < words * wordBytes) :
    (region.write w).byte? offset = (w.byteAt? offset).or (region.byte? offset) := by
  cases w with
  | byte named value =>
    rw [write, byte?_setByte, Write.byteAt?]
    by_cases hnamed : named = offset <;> simp [hnamed, h]
  | word index value =>
    rw [write, setWord, byte?_setBytes _ _ _ h, Bytes.length_lowBytes, Write.byteAt?, wordBytes]
    by_cases hindex : index = offset / 8
    · have hplace : offset - index * 8 = offset % 8 := by omega
      have hlow : offset % 8 < 8 := Nat.mod_lt _ (by decide)
      rw [if_pos (by omega), if_pos hindex, getElem?_lowBytes, hplace, if_pos hlow]
      rfl
    · rw [if_neg (by omega), if_neg hindex]
      rfl

theorem byte?_write_of_not_named {w : Write} {offset : Nat} (h : w.byteAt? offset = none) :
    (region.write w).byte? offset = region.byte? offset := by
  by_cases hin : offset < words * wordBytes
  · rw [byte?_write region w hin, h]
    rfl
  · rw [byte?_of_size_le _ (by omega), byte?_of_size_le _ (by omega)]

theorem ext_byte? {region other : Reserved words}
    (h : ∀ offset, region.byte? offset = other.byte? offset) : region = other := by
  cases region with
  | mk bytes =>
    cases other with
    | mk others =>
      congr 1
      refine Vector.ext fun i hi => ?_
      have hbyte := h i
      simp only [byte?, Vector.getElem?_eq_getElem hi] at hbyte
      exact Option.some.inj hbyte

/-- Writes that name no byte in common commute. -/
theorem write_comm {w w' : Write}
    (h : ∀ offset, w.byteAt? offset = none ∨ w'.byteAt? offset = none) :
    (region.write w).write w' = (region.write w').write w := by
  refine ext_byte? fun offset => ?_
  by_cases hin : offset < words * wordBytes
  · simp only [byte?_write _ _ hin]
    rcases h offset with hnone | hnone <;> simp [hnone]
  · rw [byte?_of_size_le _ (by omega), byte?_of_size_le _ (by omega)]

/-! ## Words -/

theorem word?_of_words_le {index : Nat} (h : words ≤ index) : region.word? index = none :=
  if_neg (by omega)

/-- The eight bytes at the place of a word spell it, and nothing of it is cut off. -/
theorem exists_bytes_of_word? {index : Nat} (h : index < words) :
    ∃ value bytes, region.word? index = some value ∧ value.toNat = lowFirst bytes ∧
      bytes.length = 8 ∧ ∀ k < 8, bytes[k]? = region.byte? (8 * index + k) := by
  have hlength : ((region.bytes.toList.drop (index * wordBytes)).take wordBytes).length = 8 := by
    rw [List.length_take, List.length_drop, Vector.length_toList, wordBytes]
    omega
  have hfit := lowFirst_lt ((region.bytes.toList.drop (index * wordBytes)).take wordBytes)
  rw [hlength] at hfit
  refine ⟨_, _, if_pos h, UInt64.toNat_ofNat_of_lt' hfit, hlength, fun k hk => ?_⟩
  have hk : k < wordBytes := hk
  rw [List.getElem?_take_of_lt hk, List.getElem?_drop, Vector.getElem?_toList, Nat.mul_comm 8]
  rfl

theorem word?_eq_sum {index : Nat} (h : index < words) :
    ∃ value, region.word? index = some value ∧
      value.toNat =
        ∑ k ∈ Finset.range 8, ((region.byte? (8 * index + k)).getD 0).toNat * 256 ^ k := by
  obtain ⟨value, bytes, hword, hvalue, hlength, hbytes⟩ := region.exists_bytes_of_word? h
  refine ⟨value, hword, ?_⟩
  rw [hvalue, lowFirst_eq_sum, hlength]
  refine Finset.sum_congr rfl fun k hk => ?_
  rw [hbytes k (Finset.mem_range.mp hk)]

end Reserved

/-! ## Histories -/

/-- One use of a region: a write, or a read in one of the two views. -/
inductive Use where
  | write (w : Write)
  | readByte (offset : Nat)
  | readWord (index : Nat)
  deriving DecidableEq, Repr

inductive Answer where
  | written
  | byte (value? : Option UInt8)
  | word (value? : Option UInt64)
  deriving DecidableEq, Repr

def Use.write? : Use → Option Write
  | .write w => some w
  | _ => none

def writesOf (history : List Use) : List Write := history.filterMap Use.write?

namespace Reserved

variable {words : Nat}

def answer (region : Reserved words) : Use → Answer
  | .write _ => .written
  | .readByte offset => .byte (region.byte? offset)
  | .readWord index => .word (region.word? index)

def after (region : Reserved words) (u : Use) : Reserved words :=
  match u with
  | .write w => region.write w
  | _ => region

/-- What uses are answered, one after another. -/
def answers (region : Reserved words) : List Use → List Answer
  | [] => []
  | u :: uses => region.answer u :: (region.after u).answers uses

def run (region : Reserved words) (history : List Use) : Reserved words :=
  history.foldl after region

/-- Both views of a region show what writes left there. -/
structure Shows (region : Reserved words) (writes : List Write) : Prop where
  byte : ∀ offset < words * 8,
    region.byte? offset = some (lastOf (Write.byteAt? offset) 0 writes)
  byte_end : ∀ offset, words * 8 ≤ offset → region.byte? offset = none
  word : ∀ index < words, ∃ value, region.word? index = some value ∧
    value.toNat = ∑ k ∈ Finset.range 8, ((region.byte? (8 * index + k)).getD 0).toNat * 256 ^ k
  word_end : ∀ index, words ≤ index → region.word? index = none

theorem after_of_read (region : Reserved words) {u : Use} (h : u.write? = none) :
    region.after u = region := by
  cases u with
  | write w => cases h
  | readByte offset => rfl
  | readWord index => rfl

theorem answers_append (region : Reserved words) (history more : List Use) :
    region.answers (history ++ more) =
      region.answers history ++ (region.run history).answers more := by
  induction history generalizing region with
  | nil => rfl
  | cons u history ih => exact congrArg (region.answer u :: ·) (ih _)

theorem length_answers (region : Reserved words) (history : List Use) :
    (region.answers history).length = history.length := by
  induction history generalizing region with
  | nil => rfl
  | cons u history ih => exact congrArg (· + 1) (ih _)

theorem byte?_run {offset : Nat} (hin : offset < words * wordBytes) (history : List Use)
    {region : Reserved words} {b : UInt8} (h : region.byte? offset = some b) :
    (region.run history).byte? offset =
      some (lastOf (Write.byteAt? offset) b (writesOf history)) := by
  induction history generalizing region b with
  | nil => exact h
  | cons u history ih =>
    cases u with
    | write w =>
      have hwritten : (region.write w).byte? offset = some ((w.byteAt? offset).getD b) := by
        rw [byte?_write region w hin, h]
        cases w.byteAt? offset <;> rfl
      have hlast := lastOf_cons (Write.byteAt? offset) b w (writesOf history)
      exact (ih hwritten).trans (congrArg some hlast.symm)
    | readByte other => exact ih h
    | readWord index => exact ih h

theorem shows_run (words : Nat) (history : List Use) :
    ((fresh words).run history).Shows (writesOf history) where
  byte offset h := byte?_run h history ((byte?_fresh words offset).trans (if_pos h))
  byte_end _ h := byte?_of_size_le _ h
  word _ h := word?_eq_sum _ h
  word_end _ h := word?_of_words_le _ h

/-- The views of a region never disagree. After any history of a fresh region both views show what
its writes left; a write changes no byte that it does not name, and writes that name no byte in common
commute; and without one of its reads a history has the same answers but that one, and leaves the
same. -/
theorem views_agree (words : Nat) (history : List Use) :
    ((fresh words).run history).Shows (writesOf history) ∧
      (∀ w offset, Write.byteAt? offset w = none →
        (((fresh words).run history).write w).byte? offset
          = ((fresh words).run history).byte? offset) ∧
      (∀ w w', (∀ offset, w.byteAt? offset = none ∨ w'.byteAt? offset = none) →
        (((fresh words).run history).write w).write w'
          = (((fresh words).run history).write w').write w) ∧
      ∀ before read later, history = before ++ read :: later → read.write? = none →
        (fresh words).answers (before ++ later)
            = ((fresh words).answers history).eraseIdx before.length ∧
          (fresh words).run (before ++ later) = (fresh words).run history := by
  refine ⟨shows_run words history, fun w offset h => byte?_write_of_not_named _ h,
    fun w w' h => write_comm _ h, ?_⟩
  rintro before read later rfl hread
  have hsame := after_of_read ((fresh words).run before) hread
  constructor
  · rw [answers_append, answers_append, answers, hsame, List.eraseIdx_append_of_length_le]
    · rw [length_answers, Nat.sub_self]
      rfl
    · rw [length_answers]
  · simp only [run, List.foldl_append, List.foldl_cons] at hsame ⊢
    rw [hsame]

/-- A byte that is written into a word replaces its part of the word. -/
example : ((fresh 2).run [.write (.word 1 0x1122), .readWord 0, .write (.byte 9 0xFF)]).word? 1
    = some 0xFF22 := by decide

end Reserved

end Freestanding.Region
