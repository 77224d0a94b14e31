import Freestanding.Region.Reserved
import Freestanding.Text.Numeral

/-!
# Regions at addresses

A region and the place where it lives in memory, and whether that place lies inside a range. An
address has 48 significant bits; the upper ones copy the highest of them.
-/
namespace Freestanding.Region

open Freestanding.Text (hex)

/-- A 64-bit address whose bits 48 to 63 are replaced by copies of bit 47. -/
def canonical (address : UInt64) : UInt64 := ⟨(address.toBitVec.setWidth 48).signExtend 64⟩

def addressRecord (address : UInt64) : String := "VirtAddr(" ++ hex address.toNat ++ ")"

/-- A range of addresses, its end excluded. -/
structure Span where
  start : UInt64
  stop : UInt64
  deriving DecidableEq, Repr

/-- A region together with the address of its first byte. -/
structure Placed (words : Nat) where
  place : UInt64
  region : Reserved words

namespace Placed

variable {words : Nat}

def address (p : Placed words) : UInt64 := canonical p.place

/-- Whether the region lies inside a range; nothing where its end is beyond 64 bits. -/
def liesWithin? (p : Placed words) (span : Span) : Option Bool :=
  let stop := p.address.toNat + p.region.size
  if stop < 0x10000000000000000 then
    some (decide (span.start.toNat ≤ p.address.toNat) && decide (stop ≤ span.stop.toNat))
  else none

/-- The region's place and extent on one line. -/
def record (p : Placed words) : String :=
  "ReservedRegion \x7b addr: " ++ addressRecord p.address ++ ", words: " ++ toString words
    ++ ", len: " ++ toString p.region.size ++ " \x7d"

/-- The region's place and extent on lines of their own. -/
def spreadRecord (p : Placed words) : String :=
  "ReservedRegion \x7b\n    addr: VirtAddr(\n        " ++ Text.hex p.address.toNat
    ++ ",\n    ),\n    words: " ++ toString words ++ ",\n    len: " ++ toString p.region.size
    ++ ",\n\x7d"

end Placed

/-- A region that is an object in memory: its end is an address. -/
structure Resident (words : Nat) extends Placed words where
  inMemory : toPlaced.address.toNat + toPlaced.region.size < 0x10000000000000000

theorem Resident.isSome_liesWithin? {words : Nat} (r : Resident words) (span : Span) :
    (r.liesWithin? span).isSome := by
  have hstop := r.inMemory
  simp only [Placed.liesWithin?, hstop, ↓reduceIte, Option.isSome_some]

end Freestanding.Region
