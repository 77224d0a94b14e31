import Freestanding.Region.Placed

/-!
# Probing a region

A probe reports how many bytes of a region are not zero and whether the region lies in the memory
that the loader fills with zeros. Each failure sets a bit of the probe's exit status.
-/
namespace Freestanding.Region

structure ProbeReport where
  nonzeroBytes : Nat
  inZeroFill : Bool
  deriving DecidableEq, Repr

namespace ProbeReport

/-- The status bit of a byte that is not zero. -/
def nonzeroBit : Int32 := 1

/-- The status bit of a region outside zero-filled memory. -/
def outsideBit : Int32 := 2

def isClean (r : ProbeReport) : Bool := r.nonzeroBytes == 0 && r.inZeroFill

/-- The exit status of a report: one bit per failure. -/
def status (r : ProbeReport) : Int32 :=
  (if r.nonzeroBytes = 0 then 0 else nonzeroBit) ||| (if r.inZeroFill then 0 else outsideBit)

def record (r : ProbeReport) : String :=
  "ProbeReport \x7b nonzero_bytes: " ++ toString r.nonzeroBytes ++ ", in_zero_fill: "
    ++ toString r.inZeroFill ++ " \x7d"

end ProbeReport

/-- The report on a region, given the zero-filled range; nothing where the region's end is beyond 64
bits. -/
def Placed.probe? {words : Nat} (p : Placed words) (zeroFill : Span) : Option ProbeReport :=
  (p.liesWithin? zeroFill).map fun inside => ⟨p.region.nonzeroBytes, inside⟩

theorem Resident.isSome_probe? {words : Nat} (r : Resident words) (zeroFill : Span) :
    (r.probe? zeroFill).isSome := by
  rw [Placed.probe?, Option.isSome_map]
  exact r.isSome_liesWithin? zeroFill

/-- The report on a region in memory. -/
def Resident.report {words : Nat} (r : Resident words) (zeroFill : Span) : ProbeReport :=
  (r.probe? zeroFill).get (r.isSome_probe? zeroFill)

theorem Resident.probe?_eq_report {words : Nat} (r : Resident words) (zeroFill : Span) :
    r.probe? zeroFill = some (r.report zeroFill) :=
  (Option.some_get (r.isSome_probe? zeroFill)).symm

end Freestanding.Region
