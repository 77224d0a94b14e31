import Freestanding.Region.Placed

/-!
# Where a region lies

The address of a region has copies of bit 47 above that bit. From there on the bytes of the region
take one address after another, and the region lies inside a range exactly when all of them do. There
is no answer where the region's end is beyond 64 bits.
-/
namespace Freestanding.Region

/-! ## Addresses -/

/-- An address is made of another by copying bit 47 to the bits above it. -/
structure CopiesSign (address copied : UInt64) : Prop where
  low : ∀ i < 48, copied.toBitVec.getLsbD i = address.toBitVec.getLsbD i
  high : ∀ i, 48 ≤ i → i < 64 → copied.toBitVec.getLsbD i = address.toBitVec.getLsbD 47

/-- The bits from 47 on are all alike. -/
def IsCanonical (address : UInt64) : Prop :=
  ∀ i, 48 ≤ i → i < 64 → address.toBitVec.getLsbD i = address.toBitVec.getLsbD 47

theorem getLsbD_canonical (address : UInt64) {i : Nat} (hi : i < 64) :
    (canonical address).toBitVec.getLsbD i = address.toBitVec.getLsbD (min i 47) := by
  have hword : (canonical address).toBitVec = (address.toBitVec.setWidth 48).signExtend 64 := rfl
  rw [hword, BitVec.getLsbD_signExtend, decide_eq_true hi, Bool.true_and, BitVec.msb_setWidth]
  split
  · next hlow =>
    rw [BitVec.getLsbD_setWidth, decide_eq_true hlow, Bool.true_and, Nat.min_eq_left (by omega)]
  · next hhigh =>
    rw [Nat.min_eq_right (by omega)]
    rfl

theorem copiesSign_canonical (address : UInt64) : CopiesSign address (canonical address) where
  low i hi := by rw [getLsbD_canonical address (by omega), Nat.min_eq_left (by omega)]
  high i hlow hi := by rw [getLsbD_canonical address hi, Nat.min_eq_right (by omega)]

theorem canonical_eq_self_iff {address : UInt64} :
    canonical address = address ↔ IsCanonical address := by
  constructor
  · intro h i hlow hi
    have hcopies := (copiesSign_canonical address).high i hlow hi
    rwa [h] at hcopies
  · intro h
    apply UInt64.toBitVec_inj.mp
    apply BitVec.eq_of_getLsbD_eq
    intro i hi
    by_cases hlow : i < 48
    · exact (copiesSign_canonical address).low i hlow
    · rw [(copiesSign_canonical address).high i (by omega) hi, h i (by omega) hi]

/-! ## Ranges -/

/-- A range holds an address: its start does, its stop does not. -/
def Span.Holds (span : Span) (address : Nat) : Prop :=
  span.start.toNat ≤ address ∧ address < span.stop.toNat

instance (span : Span) (address : Nat) : Decidable (span.Holds address) :=
  inferInstanceAs (Decidable (_ ∧ _))

/-- A range holds consecutive addresses when it holds the first and the last. -/
theorem Span.holds_run_iff {span : Span} {first length : Nat} (h : 0 < length) :
    (∀ k < length, span.Holds (first + k)) ↔
      span.start.toNat ≤ first ∧ first + length ≤ span.stop.toNat := by
  constructor
  · intro hall
    have hfirst := (hall 0 h).1
    have hlast := (hall (length - 1) (by omega)).2
    omega
  · rintro ⟨hstart, hstop⟩ k hk
    exact ⟨by omega, by omega⟩

namespace Placed

variable {words : Nat} {p : Placed words} {span : Span}

theorem liesWithin?_of_fit (h : p.address.toNat + words * 8 < 0x10000000000000000) :
    p.liesWithin? span = some (decide (span.start.toNat ≤ p.address.toNat) &&
      decide (p.address.toNat + words * 8 ≤ span.stop.toNat)) :=
  if_pos h

theorem liesWithin?_eq_none_iff :
    p.liesWithin? span = none ↔ 0x10000000000000000 ≤ p.address.toNat + words * 8 := by
  constructor
  · intro h
    refine Nat.le_of_not_lt fun hfit => ?_
    rw [liesWithin?_of_fit hfit] at h
    cases h
  · intro h
    exact if_neg (Nat.not_lt_of_le h)

theorem fit_of_liesWithin? {inside : Bool} (h : p.liesWithin? span = some inside) :
    p.address.toNat + words * 8 < 0x10000000000000000 := by
  refine Nat.lt_of_not_le fun hbeyond => ?_
  rw [liesWithin?_eq_none_iff.mpr hbeyond] at h
  cases h

theorem eq_true_iff_of_liesWithin? {inside : Bool} (h : p.liesWithin? span = some inside) :
    inside = true ↔
      span.start.toNat ≤ p.address.toNat ∧ p.address.toNat + words * 8 ≤ span.stop.toNat := by
  rw [liesWithin?_of_fit (fit_of_liesWithin? h)] at h
  rw [← Option.some.inj h, Bool.and_eq_true, decide_eq_true_iff, decide_eq_true_iff]

theorem liesWithin?_eq_some_true_iff :
    p.liesWithin? span = some true ↔ p.address.toNat + words * 8 < 0x10000000000000000 ∧
      span.start.toNat ≤ p.address.toNat ∧ p.address.toNat + words * 8 ≤ span.stop.toNat := by
  constructor
  · intro h
    exact ⟨fit_of_liesWithin? h, (eq_true_iff_of_liesWithin? h).mp rfl⟩
  · rintro ⟨hfit, hends⟩
    have hanswer : p.liesWithin? span = _ := liesWithin?_of_fit hfit
    rw [hanswer, Option.some_inj]
    exact (eq_true_iff_of_liesWithin? hanswer).mpr hends

/-- A region lies inside a range when each of its bytes does. The bytes begin at the region's place
with copies of bit 47 above that bit, which is the place itself when it is canonical. There is no
answer exactly when the end of the region is beyond 64 bits, and always one in the lower half of the
addresses. Where there is one, a region that has bytes lies inside the range if and only if the range
holds the address of each byte, so never inside a range that is empty or reversed; a region without
bytes does if and only if its address is between the two ends of the range; and both lie inside every
wider range. -/
theorem liesWithin?_holds_bytes (p : Placed words) :
    CopiesSign p.place p.address ∧ (p.address = p.place ↔ IsCanonical p.place) ∧
      ∀ span : Span,
        (p.liesWithin? span = none ↔ 0x10000000000000000 ≤ p.address.toNat + words * 8) ∧
        (p.address.toNat < 0x800000000000 → words * 8 ≤ 0x800000000000 →
          (p.liesWithin? span).isSome) ∧
        ∀ inside, p.liesWithin? span = some inside →
          (0 < words →
            (inside = true ↔ ∀ k < words * 8, span.Holds (p.address.toNat + k)) ∧
            (span.stop ≤ span.start → inside = false)) ∧
          (words = 0 →
            (inside = true ↔ span.start ≤ p.address ∧ p.address ≤ span.stop)) ∧
          (inside = true → ∀ wider : Span, wider.start ≤ span.start → span.stop ≤ wider.stop →
            p.liesWithin? wider = some true) := by
  refine ⟨copiesSign_canonical _, canonical_eq_self_iff, fun span =>
    ⟨liesWithin?_eq_none_iff, fun hlow hlength => ?_, fun inside hanswer => ⟨fun hbytes => ?_,
      fun hempty => ?_, fun hinside wider hstart hstop => ?_⟩⟩⟩
  · rw [Option.isSome_iff_ne_none, Ne, liesWithin?_eq_none_iff]
    omega
  · have hinside := eq_true_iff_of_liesWithin? hanswer
    refine ⟨hinside.trans (Span.holds_run_iff (by omega)).symm, fun hreversed => ?_⟩
    have hends : span.stop.toNat ≤ span.start.toNat := hreversed
    rw [← Bool.not_eq_true, hinside]
    omega
  · subst hempty
    exact eq_true_iff_of_liesWithin? hanswer
  · subst hinside
    obtain ⟨hfit, hfirst, hlast⟩ := liesWithin?_eq_some_true_iff.mp hanswer
    have hstart : wider.start.toNat ≤ span.start.toNat := hstart
    have hstop : span.stop.toNat ≤ wider.stop.toNat := hstop
    exact liesWithin?_eq_some_true_iff.mpr ⟨hfit, by omega, by omega⟩

/-- The last word of the upper half ends beyond 64 bits; the one before it has a place there. -/
example :
    (⟨0xFFFFFFFFFFF8, .fresh 1⟩ : Placed 1).liesWithin? ⟨0, 0xFFFFFFFFFFFFFFFF⟩ = none ∧
      (⟨0xFFFFFFFFFFF0, .fresh 1⟩ : Placed 1).liesWithin?
        ⟨0xFFFFFFFFFFFFFFF0, 0xFFFFFFFFFFFFFFF8⟩ = some true := by decide

end Placed

end Freestanding.Region
