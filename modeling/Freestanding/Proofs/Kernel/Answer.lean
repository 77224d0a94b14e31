import Freestanding.Kernel.Delivery

/-!
# What one answer means for a delivery

An answer is a word, and what it means is decided by the integer it stands for: an interruption, a
count within the bytes on offer, nothing, another error, or a number that no write call may answer.
-/
namespace Freestanding.Kernel

/-- The meaning of an answer to a call: what it says of the integer, and the progress that is made. -/
inductive Answer (offered : List UInt8) (returned : Int64) : Progress → Prop
  | interrupted : returned.toInt = -4 → Answer offered returned (.left offered)
  | accepted {n : Nat} : 0 < n → n ≤ offered.length → returned.toInt = n →
      Answer offered returned (.left (offered.drop n))
  | nothing : returned.toInt = 0 → Answer offered returned (.ends (.failed .inputOutput))
  | failed : -4095 ≤ returned.toInt → returned.toInt < 0 → returned.toInt ≠ -4 →
      Answer offered returned (.ends (.failed ⟨returned⟩))
  | overrun : offered.length < returned.toInt ∨ returned.toInt < -4095 →
      Answer offered returned (.ends (.overrun returned.toUInt64 offered.length))

theorem toInt_eq (word : Int64) :
    word.toInt = if word.toUInt64.toNat < 0x8000000000000000 then (word.toUInt64.toNat : Int)
      else word.toUInt64.toNat - 0x10000000000000000 := by
  have hcond := BitVec.toInt_eq_toNat_cond word.toBitVec
  rw [Int64.toNat_toBitVec] at hcond
  change word.toInt = _ at hcond
  rw [hcond]
  by_cases h : word.toUInt64.toNat < 0x8000000000000000
  · rw [if_pos (by omega), if_pos h]
  · rw [if_neg (by omega), if_neg h]
    rfl

theorem toInt_range {word : Int64} :
    -4095 ≤ word ∧ word < 0 ↔ -4095 ≤ word.toInt ∧ word.toInt < 0 := by
  have hlow : (-4095 : Int64).toInt = -4095 := rfl
  have hhigh : (0 : Int64).toInt = 0 := rfl
  rw [Int64.le_iff_toInt_le, Int64.lt_iff_toInt_lt, hlow, hhigh]

/-- Every answer has one of the five meanings. What keeps a negative word from passing for a count is
a bound on either side: on the buffer, or on the answer. -/
theorem answer_of_advance {offered : List UInt8} {returned : Int64}
    (hbound : offered.length < 0x8000000000000000 ∨ -4095 ≤ returned.toInt) :
    Answer offered returned (advance offered returned) := by
  have hword := toInt_eq returned
  have hlt : returned.toUInt64.toNat < 0x10000000000000000 := returned.toUInt64.toNat_lt
  unfold advance
  split
  · next count hdecode =>
    obtain ⟨hrange, rfl⟩ := decode_eq_ok_iff.mp hdecode
    rw [toInt_range] at hrange
    split
    · next hzero =>
      apply Answer.nothing
      rw [hword, hzero]
      rfl
    · next hzero =>
      have hpos : returned.toUInt64.toNat ≠ 0 := fun h => hzero (UInt64.toNat_inj.mp h)
      split
      · next hle =>
        have hint : returned.toInt = returned.toUInt64.toNat := by
          split at hword <;> omega
        exact .accepted (by omega) hle hint
      · next hle =>
        apply Answer.overrun
        split at hword <;> omega
  · next e hdecode =>
    obtain ⟨hrange, hcode⟩ := decode_eq_error_iff.mp hdecode
    rw [toInt_range] at hrange
    split
    · next he =>
      apply Answer.interrupted
      rw [← hcode, he]
      rfl
    · next he =>
      have hne : returned.toInt ≠ -4 := by
        intro h
        have hsame : returned = KernelError.interrupted.code := Int64.toInt_inj.mp h
        exact he (KernelError.ext (hcode.trans hsame))
      have hself : e = ⟨returned⟩ := KernelError.ext hcode
      rw [hself]
      exact .failed hrange.1 hrange.2 hne

theorem advance_answer {offered : List UInt8} (hlen : offered.length < 0x8000000000000000)
    (returned : Int64) :
    Answer offered returned (advance offered returned) :=
  answer_of_advance (.inl hlen)

theorem accepted_of_count {offered : List UInt8} {returned : Int64} {n : Nat} (hpos : 0 < n)
    (hle : n ≤ offered.length) (hint : returned.toInt = n) :
    (Call.mk offered returned).accepted = offered.take n := by
  unfold Call.accepted
  rw [if_pos (by simp only; omega), hint, Int.toNat_natCast]

theorem accepted_of_no_count {offered : List UInt8} {returned : Int64}
    (h : returned.toInt ≤ 0 ∨ offered.length < returned.toInt) :
    (Call.mk offered returned).accepted = [] := by
  unfold Call.accepted
  exact if_neg (by simp only; omega)

/-- What a call accepts and what the delivery goes on with are the bytes on offer. -/
theorem Answer.accepted_append {offered rest : List UInt8} {returned : Int64}
    (h : Answer offered returned (.left rest)) :
    (Call.mk offered returned).accepted ++ rest = offered := by
  cases h with
  | interrupted hint => rw [accepted_of_no_count (by omega), List.nil_append]
  | accepted hpos hle hint => rw [accepted_of_count hpos hle hint, List.take_append_drop]

/-- A call that ends the delivery accepts nothing, and the delivery is not complete. -/
theorem Answer.accepted_of_ends {offered : List UInt8} {returned : Int64} {outcome : Delivery}
    (h : Answer offered returned (.ends outcome)) :
    (Call.mk offered returned).accepted = [] ∧ outcome ≠ .delivered := by
  cases h with
  | nothing hint => exact ⟨accepted_of_no_count (by omega), nofun⟩
  | failed hlow hneg hne => exact ⟨accepted_of_no_count (by omega), nofun⟩
  | overrun hint => exact ⟨accepted_of_no_count (by omega), nofun⟩

theorem accepted_append_of_left {offered rest : List UInt8} {returned : Int64}
    (hlen : offered.length < 0x8000000000000000) (h : advance offered returned = .left rest) :
    (Call.mk offered returned).accepted ++ rest = offered :=
  (h ▸ advance_answer hlen returned : Answer offered returned (.left rest)).accepted_append

theorem accepted_of_ends {offered : List UInt8} {returned : Int64} {outcome : Delivery}
    (hlen : offered.length < 0x8000000000000000) (h : advance offered returned = .ends outcome) :
    (Call.mk offered returned).accepted = [] ∧ outcome ≠ .delivered :=
  (h ▸ advance_answer hlen returned : Answer offered returned (.ends outcome)).accepted_of_ends

end Freestanding.Kernel
