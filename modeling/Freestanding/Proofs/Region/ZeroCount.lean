import Freestanding.Proofs.Region.Views
import Mathlib.Data.Nat.Count

/-!
# The count of nonzero bytes

A region counts the bytes that are not zero. The count is the same over bytes and over words, and a
write changes it by what it puts into the bytes that it names, less what stood there. After any
history it counts the bytes that were last written with something else than zero.
-/
namespace Freestanding.Region

open Freestanding.Bytes (getElem?_lowBytes lowBytes_lowFirst)
open Freestanding.Layout (wordBytes)

/-- How many of the eight bytes of a word are not zero. -/
def nonzeroIn (value : UInt64) : Nat := Nat.count (fun k => value.toNat / 256 ^ k % 256 ≠ 0) 8

theorem ofNat_eq_zero_iff {n : Nat} : UInt8.ofNat n = 0 ↔ n % 256 = 0 := by
  rw [← UInt8.toNat_inj, UInt8.toNat_ofNat']
  rfl

/-! ## Counts and sums -/

theorem count_congr {p q : Nat → Prop} [DecidablePred p] [DecidablePred q] {size : Nat}
    (h : ∀ i < size, p i ↔ q i) : Nat.count p size = Nat.count q size := by
  apply Nat.le_antisymm
  · exact Nat.count_mono_left fun i hi => (h i hi).mp
  · exact Nat.count_mono_left fun i hi => (h i hi).mpr

theorem count_eq_sum (p : Nat → Prop) [DecidablePred p] (size : Nat) :
    Nat.count p size = ∑ i ∈ Finset.range size, if p i then 1 else 0 := by
  rw [Nat.count_eq_card_filter_range, Finset.card_filter]

theorem count_mul_eq_sum (p : Nat → Prop) [DecidablePred p] (words size : Nat) :
    Nat.count p (words * size) =
      ∑ index ∈ Finset.range words, Nat.count (fun k => p (size * index + k)) size := by
  induction words with
  | zero => rw [Nat.zero_mul, Nat.count_zero, Finset.sum_range_zero]
  | succ words ih => rw [Nat.succ_mul, Nat.count_add, ih, Finset.sum_range_succ, Nat.mul_comm words]

/-- Two sums that differ in one term. -/
theorem sum_add_of_changed {f g : Nat → Nat} {place size : Nat} (hplace : place < size)
    (h : ∀ i < size, i ≠ place → f i = g i) :
    ∑ i ∈ Finset.range size, f i + g place = ∑ i ∈ Finset.range size, g i + f place := by
  have hmem := Finset.mem_range.mpr hplace
  have hothers : ∑ i ∈ (Finset.range size).erase place, f i =
      ∑ i ∈ (Finset.range size).erase place, g i := by
    refine Finset.sum_congr rfl fun i hi => ?_
    obtain ⟨hne, hin⟩ := Finset.mem_erase.mp hi
    exact h i (Finset.mem_range.mp hin) hne
  rw [← Finset.add_sum_erase _ f hmem, ← Finset.add_sum_erase _ g hmem, hothers]
  omega

namespace Reserved

variable {words : Nat} (region : Reserved words)

/-! ## Bytes and words -/

theorem exists_byte? {offset : Nat} (h : offset < words * 8) :
    ∃ b, region.byte? offset = some b :=
  ⟨_, Vector.getElem?_eq_getElem h⟩

theorem nonzeroBytes_eq_count :
    region.nonzeroBytes = Nat.count (fun offset => region.byte? offset ≠ some 0) (words * 8) := by
  have hbytes : region.bytes.toList.map some =
      (List.range (words * wordBytes)).map region.byte? := by
    apply List.ext_getElem?
    intro i
    rw [List.getElem?_map, List.getElem?_map, Vector.getElem?_toList]
    by_cases hi : i < words * wordBytes
    · rw [List.getElem?_range hi, Vector.getElem?_eq_getElem hi, Option.map_some, Option.map_some,
        byte?, Vector.getElem?_eq_getElem hi]
    · rw [Vector.getElem?_eq_none (Nat.le_of_not_lt hi), List.getElem?_eq_none (by simpa using hi)]
      rfl
  calc region.nonzeroBytes
    _ = (region.bytes.toList.map some).countP fun byte? => byte? ≠ some 0 := by
      rw [List.countP_map, nonzeroBytes]
      apply List.countP_congr
      intro byte _
      simp
    _ = Nat.count (fun offset => region.byte? offset ≠ some 0) (words * 8) := by
      rw [hbytes, List.countP_map]
      rfl

theorem nonzeroBytes_eq_sum :
    region.nonzeroBytes = ∑ index ∈ Finset.range words,
      Nat.count (fun k => region.byte? (8 * index + k) ≠ some 0) 8 := by
  rw [nonzeroBytes_eq_count, count_mul_eq_sum]

/-- A byte at the place of a word is a byte of the word. -/
theorem byte?_of_word? {index : Nat} {value : UInt64} (h : region.word? index = some value)
    {k : Nat} (hk : k < 8) :
    region.byte? (8 * index + k) = some (UInt8.ofNat (value.toNat / 256 ^ k)) := by
  have hindex : index < words := by
    refine Nat.lt_of_not_le fun hend => ?_
    rw [word?_of_words_le region hend] at h
    cases h
  obtain ⟨other, bytes, hword, hvalue, hlength, hbytes⟩ := region.exists_bytes_of_word? hindex
  obtain rfl := Option.some.inj (h.symm.trans hword)
  rw [← hbytes k hk, ← lowBytes_lowFirst bytes, hlength, getElem?_lowBytes, if_pos hk, hvalue]

theorem nonzeroIn_of_word? {index : Nat} {value : UInt64} (h : region.word? index = some value) :
    nonzeroIn value = Nat.count (fun k => region.byte? (8 * index + k) ≠ some 0) 8 := by
  refine count_congr fun k hk => ?_
  rw [byte?_of_word? region h hk, Ne, Ne, Option.some_inj, ofNat_eq_zero_iff]

theorem word?_eq_zero_iff {index : Nat} (h : index < words) :
    region.word? index = some 0 ↔
      Nat.count (fun k => region.byte? (8 * index + k) ≠ some 0) 8 = 0 := by
  constructor
  · intro hzero
    rw [← nonzeroIn_of_word? region hzero]
    rfl
  · intro hnone
    have hbytes : ∀ k < 8, region.byte? (8 * index + k) = some 0 := fun k hk =>
      Decidable.not_not.mp (Nat.count_iff_forall_not.mp hnone k hk)
    obtain ⟨value, hword, hvalue⟩ := region.word?_eq_sum h
    have hsum : value.toNat = 0 := by
      rw [hvalue]
      refine Finset.sum_eq_zero fun k hk => ?_
      rw [hbytes k (Finset.mem_range.mp hk)]
      exact Nat.zero_mul _
    have hzero : value = 0 := UInt64.toNat_inj.mp hsum
    rw [hword, hzero]

/-! ## One write -/

theorem nonzeroBytes_write_byte {offset : Nat} (h : offset < words * 8) (value : UInt8) {old : UInt8}
    (hold : region.byte? offset = some old) :
    (region.write (.byte offset value)).nonzeroBytes + (if old ≠ 0 then 1 else 0) =
      region.nonzeroBytes + if value ≠ 0 then 1 else 0 := by
  have hnew : (region.write (.byte offset value)).byte? offset = some value := by
    rw [byte?_write region _ h, Write.byteAt?, if_pos rfl]
    rfl
  have hothers : ∀ other < words * 8, other ≠ offset →
      (if (region.write (.byte offset value)).byte? other ≠ some 0 then 1 else 0) =
        if region.byte? other ≠ some 0 then 1 else 0 := by
    intro other _ hne
    have hnone : (Write.byte offset value).byteAt? other = none := if_neg (Ne.symm hne)
    rw [byte?_write_of_not_named region hnone]
  have hsum := sum_add_of_changed h hothers
  simp only [hnew, hold, ne_eq, Option.some_inj] at hsum
  rw [nonzeroBytes_eq_count, nonzeroBytes_eq_count, count_eq_sum, count_eq_sum]
  exact hsum

theorem nonzeroBytes_write_word {index : Nat} (h : index < words) (value : UInt64) {old : UInt64}
    (hold : region.word? index = some old) :
    (region.write (.word index value)).nonzeroBytes + nonzeroIn old =
      region.nonzeroBytes + nonzeroIn value := by
  have hnew : Nat.count
      (fun k => (region.write (.word index value)).byte? (8 * index + k) ≠ some 0) 8 =
        nonzeroIn value := by
    refine count_congr fun k hk => ?_
    have hnamed : index = (8 * index + k) / 8 := by omega
    have hplace : (8 * index + k) % 8 = k := by omega
    rw [byte?_write region _ (by rw [wordBytes]; omega), Write.byteAt?, if_pos hnamed, hplace,
      Option.some_or, Ne, Ne, Option.some_inj, ofNat_eq_zero_iff]
  have hothers : ∀ other < words, other ≠ index →
      Nat.count (fun k => (region.write (.word index value)).byte? (8 * other + k) ≠ some 0) 8 =
        Nat.count (fun k => region.byte? (8 * other + k) ≠ some 0) 8 := by
    intro other _ hne
    refine count_congr fun k hk => ?_
    have hnone : (Write.word index value).byteAt? (8 * other + k) = none := if_neg (by omega)
    rw [byte?_write_of_not_named region hnone]
  have hsum := sum_add_of_changed h hothers
  rw [hnew, ← nonzeroIn_of_word? region hold] at hsum
  rw [nonzeroBytes_eq_sum, nonzeroBytes_eq_sum]
  exact hsum

/-! ## Histories -/

/-- What the count of a region says of its bytes and of its words, and what one write does to it. -/
structure Counted (region : Reserved words) : Prop where
  by_byte : region.nonzeroBytes =
    Nat.count (fun offset => region.byte? offset ≠ some 0) (words * 8)
  by_word : region.nonzeroBytes =
    ∑ index ∈ Finset.range words, (region.word? index).elim 0 nonzeroIn
  le_size : region.nonzeroBytes ≤ words * 8
  isZeroed : region.isZeroed = true ↔ region.nonzeroBytes = 0
  zero_words : region.isZeroed = true ↔ ∀ index < words, region.word? index = some 0
  write_byte : ∀ offset < words * 8, ∃ old, region.byte? offset = some old ∧ ∀ value,
    ((region.write (.byte offset value)).nonzeroBytes : Int) =
      region.nonzeroBytes + (if value ≠ 0 then 1 else 0) - (if old ≠ 0 then 1 else 0)
  write_word : ∀ index < words, ∃ old, region.word? index = some old ∧ ∀ value,
    ((region.write (.word index value)).nonzeroBytes : Int) =
      region.nonzeroBytes + nonzeroIn value - nonzeroIn old

theorem nonzeroBytes_eq_sum_words :
    region.nonzeroBytes =
      ∑ index ∈ Finset.range words, (region.word? index).elim 0 nonzeroIn := by
  rw [nonzeroBytes_eq_sum]
  refine Finset.sum_congr rfl fun index hindex => ?_
  obtain ⟨value, hword, -⟩ := region.word?_eq_sum (Finset.mem_range.mp hindex)
  rw [hword, Option.elim_some, nonzeroIn_of_word? region hword]

theorem isZeroed_iff : region.isZeroed = true ↔ region.nonzeroBytes = 0 := beq_iff_eq

theorem isZeroed_iff_words :
    region.isZeroed = true ↔ ∀ index < words, region.word? index = some 0 := by
  rw [isZeroed_iff, nonzeroBytes_eq_sum, Finset.sum_eq_zero_iff]
  constructor
  · intro h index hindex
    exact (word?_eq_zero_iff region hindex).mpr (h index (Finset.mem_range.mpr hindex))
  · intro h index hindex
    have hindex := Finset.mem_range.mp hindex
    exact (word?_eq_zero_iff region hindex).mp (h index hindex)

theorem counted : region.Counted where
  by_byte := nonzeroBytes_eq_count region
  by_word := nonzeroBytes_eq_sum_words region
  le_size := nonzeroBytes_eq_count region ▸ Nat.count_le _
  isZeroed := isZeroed_iff region
  zero_words := isZeroed_iff_words region
  write_byte offset h := by
    obtain ⟨old, hold⟩ := exists_byte? region h
    refine ⟨old, hold, fun value => ?_⟩
    have hwrite := nonzeroBytes_write_byte region h value hold
    have hcast := congrArg (Nat.cast (R := Int)) hwrite
    push_cast at hcast
    exact eq_sub_of_add_eq hcast
  write_word index h := by
    obtain ⟨old, hold, -⟩ := region.word?_eq_sum h
    refine ⟨old, hold, fun value => ?_⟩
    have hwrite := nonzeroBytes_write_word region h value hold
    omega

/-- The count after a history is of the bytes that were last written with something else than
zero. -/
theorem nonzeroBytes_run (words : Nat) (history : List Use) :
    ((fresh words).run history).nonzeroBytes =
      Nat.count (fun offset => lastOf (Write.byteAt? offset) 0 (writesOf history) ≠ 0)
        (words * 8) := by
  rw [nonzeroBytes_eq_count]
  refine count_congr fun offset h => ?_
  rw [(shows_run words history).byte offset h, Ne, Option.some_inj]

end Reserved

end Freestanding.Region
