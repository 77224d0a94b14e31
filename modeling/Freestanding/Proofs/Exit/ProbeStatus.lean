import Freestanding.Proofs.Exit.Output

/-!
# The status of a probe

A probe says in the lowest bit of its status whether a byte is not zero, and in the next bit whether
the region is outside the memory that the loader fills with zeros. So a process whose region is inside
ends with one or with zero, and the last writes to its bytes decide which.
-/
namespace Freestanding.Region

variable {words : Nat}

/-! ## Reports -/

theorem ProbeReport.getLsbD_status (report : ProbeReport) (i : Nat) :
    report.status.toBitVec.getLsbD i =
      (decide (i = 0 ∧ report.nonzeroBytes ≠ 0) || decide (i = 1 ∧ report.inZeroFill = false)) := by
  have hzero : (0 : Int32).toBitVec.getLsbD i = false := BitVec.getLsbD_zero
  have hbit (k : Nat) (hk : k < 32) : (BitVec.twoPow 32 k).getLsbD i = decide (i = k) := by
    rw [BitVec.getLsbD_twoPow, decide_eq_true hk, Bool.true_and, decide_eq_decide]
    exact eq_comm
  have hfirst : nonzeroBit.toBitVec.getLsbD i = decide (i = 0) := hbit 0 (by decide)
  have hsecond : outsideBit.toBitVec.getLsbD i = decide (i = 1) := hbit 1 (by decide)
  rw [status, Int32.toBitVec_or, BitVec.getLsbD_or]
  congr 1
  · split
    · next hcount => rw [hzero, decide_eq_false fun h => h.2 hcount]
    · next hcount => rw [hfirst, decide_eq_decide, and_iff_left hcount]
  · split
    · next hinside => rw [hzero, decide_eq_false (by simp [hinside])]
    · next hinside => rw [hsecond, decide_eq_decide, and_iff_left (Bool.not_eq_true _ ▸ hinside)]

theorem Placed.probe?_eq_some_iff {p : Placed words} {zeroFill : Span} {report : ProbeReport} :
    p.probe? zeroFill = some report ↔
      report.nonzeroBytes = p.region.nonzeroBytes ∧
        p.liesWithin? zeroFill = some report.inZeroFill := by
  unfold Placed.probe?
  cases p.liesWithin? zeroFill with
  | none => simp
  | some inside =>
    cases report
    simp [eq_comm]

/-- What the bits of a report's status say of a region, given whether it lies inside the memory that
is filled with zeros. -/
structure ProbeReport.Tells (report : ProbeReport) (region : Reserved words) (inside : Bool) :
    Prop where
  nonzero : report.status.toBitVec.getLsbD 0 = true ↔
    ∃ offset < words * 8, region.byte? offset ≠ some 0
  outside : report.status.toBitVec.getLsbD 1 = true ↔ inside = false
  others : ∀ i, 2 ≤ i → report.status.toBitVec.getLsbD i = false
  clean : report.status = 0 ↔ report.isClean = true

theorem ProbeReport.isClean_iff {report : ProbeReport} :
    report.isClean = true ↔ report.nonzeroBytes = 0 ∧ report.inZeroFill = true := by
  rw [isClean, Bool.and_eq_true, beq_iff_eq]

theorem Placed.tells_of_probe? {p : Placed words} {zeroFill : Span} {report : ProbeReport}
    (h : p.probe? zeroFill = some report) :
    ∃ inside, p.liesWithin? zeroFill = some inside ∧ report.Tells p.region inside := by
  obtain ⟨hcount, hinside⟩ := Placed.probe?_eq_some_iff.mp h
  refine ⟨_, hinside, ?_, ?_, fun i hi => ?_, ?_⟩
  · rw [ProbeReport.getLsbD_status, hcount, p.region.nonzeroBytes_eq_count]
    simp [Nat.count_iff_forall_not]
  · rw [ProbeReport.getLsbD_status]
    simp
  · rw [ProbeReport.getLsbD_status]
    simp only [show i ≠ 0 by omega, show i ≠ 1 by omega, false_and, decide_false, Bool.or_self]
  · rw [Exit.status_eq_zero_iff, ProbeReport.isClean_iff]

end Freestanding.Region

namespace Freestanding.Exit

open Freestanding.Region (Placed ProbeReport Reserved Span Use Write lastOf writesOf)

variable {words : Nat}

/-! ## Runs -/

/-- The status of a region that lies inside, after a history of it. -/
theorem status_of_inside {held : Statics words} {zeroFill : Span} {history : List Use}
    (hregion : held.region.region = (Reserved.fresh words).run history)
    (hinside : held.region.liesWithin? zeroFill = some true) :
    (held.region.report zeroFill).status =
      if ∃ offset < words * 8, lastOf (Write.byteAt? offset) 0 (writesOf history) ≠ 0 then 1
      else 0 := by
  obtain ⟨hcount, hreport⟩ := Placed.probe?_eq_some_iff.mp (held.region.probe?_eq_report zeroFill)
  rw [hregion, Reserved.nonzeroBytes_run] at hcount
  obtain hreport := Option.some.inj (hinside.symm.trans hreport)
  simp only [ProbeReport.status, hcount, ← hreport, Nat.count_iff_forall_not, ↓reduceIte]
  split
  · next hzero => exact (if_neg fun ⟨offset, h, hne⟩ => hzero offset h hne).symm
  · next hsome =>
    push Not at hsome
    exact (if_pos hsome).symm

/-- The count of nonzero bytes is exact and decides the probe. After any history of a region it is
the number of bytes that are not zero, of those that were last written so, and the sum over the
words; it is zero exactly when all words are; and a write changes it by what it puts in place less
what stood there. Wherever the region is placed, the status of its report has the lowest bit for a
nonzero byte, the next for a place outside, no other, and is zero exactly for a clean report. And the
process whose region lies inside ends with one if the last write to some byte was not zero, and with
zero otherwise: always in a build without tracing, and in a traced one as long as its calls are
answered as they are to be. -/
theorem count_decides_probe (words : Nat) (history : List Use) :
    ((Reserved.fresh words).run history).Counted ∧
      ((Reserved.fresh words).run history).nonzeroBytes =
        Nat.count (fun offset => lastOf (Write.byteAt? offset) 0 (writesOf history) ≠ 0)
          (words * 8) ∧
      (∀ (p : Placed words) (zeroFill : Span), p.region = (Reserved.fresh words).run history →
        (p.probe? zeroFill = none ↔ p.liesWithin? zeroFill = none) ∧
        ∀ report, p.probe? zeroFill = some report →
          ∃ inside, p.liesWithin? zeroFill = some inside ∧ report.Tells p.region inside) ∧
      ∀ (build : Build) (held : Statics words) (zeroFill : Span),
        held.region.region = (Reserved.fresh words).run history →
        held.region.liesWithin? zeroFill = some true →
        ∃ status : Int32, status =
            (if ∃ offset < words * 8, lastOf (Write.byteAt? offset) 0 (writesOf history) ≠ 0 then 1
              else 0) ∧
          (build.traced = false → ∀ trace, (Procedure.withProbe zeroFill).run build held trace =
            ⟨(.exits status, held), [], trace⟩) ∧
          (∀ trace, ((Procedure.withProbe zeroFill).run build held trace).Honoured →
            ((Procedure.withProbe zeroFill).run build held trace).result =
              (.exits status, held)) ∧
          ((parentStatus (exitArgument status)).toNat : Int) = status.toInt := by
  refine ⟨Reserved.counted _, Reserved.nonzeroBytes_run words history, fun p zeroFill _ =>
    ⟨?_, fun report => Placed.tells_of_probe?⟩, fun build held zeroFill hregion hinside =>
    ⟨_, status_of_inside hregion hinside, fun hbuild trace => perform_untraced hbuild _ held trace,
      fun trace => perform_honoured, ?_⟩⟩
  · rw [Placed.probe?, Option.map_eq_none_iff]
  · rw [toNat_parentStatus, status_of_inside hregion hinside]
    split <;> rfl

/-- A process with a region of two words, after a history of it. -/
def probed (history : List Use) : Statics 2 :=
  ⟨⟨42⟩, ⟨⟨0x1000, (Reserved.fresh 2).run history⟩, show 0x1010 < 0x10000000000000000 by decide⟩⟩

/-- A word is written, and then its one byte that is not zero is cleared. -/
def cleared : List Use := [.write (.word 1 0x1100), .readWord 1, .write (.byte 9 0)]

theorem count_decides_probe_cleared :
    (probed cleared).region.liesWithin? ⟨0x1000, 0x1010⟩ = some true ∧
      ((Procedure.withProbe ⟨0x1000, 0x1010⟩).run (.standard false) (probed cleared)
        ⟨[], .accepting⟩).result.1 = .exits 0 ∧
      ((Procedure.withProbe ⟨0x1000, 0x1010⟩).run (.standard false)
        (probed (cleared ++ [.write (.byte 3 7)])) ⟨[], .accepting⟩).result.1 = .exits 1 := by
  refine ⟨by decide, ?_, ?_⟩
  · obtain ⟨-, -, -, hexits⟩ := count_decides_probe 2 cleared
    obtain ⟨status, rfl, huntraced, -⟩ :=
      hexits (.standard false) (probed cleared) ⟨0x1000, 0x1010⟩ rfl (by decide)
    rw [huntraced rfl]
    decide
  · obtain ⟨-, -, -, hexits⟩ := count_decides_probe 2 (cleared ++ [.write (.byte 3 7)])
    obtain ⟨status, rfl, huntraced, -⟩ := hexits (.standard false)
      (probed (cleared ++ [.write (.byte 3 7)])) ⟨0x1000, 0x1010⟩ rfl (by decide)
    rw [huntraced rfl]
    decide

end Freestanding.Exit
