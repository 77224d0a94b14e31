import Freestanding.Image.Header

/-!
# Symbol tables
-/
namespace Freestanding.Image

structure Symbol where
  /-- Where the symbol's name stands in the table's strings. -/
  name : Nat
  /-- The index of the section header that the symbol belongs to. -/
  sectionIndex : Nat
  value : Nat
  size : Nat
  deriving DecidableEq, Repr

namespace Symbol

def entryBytes : WordSize → Nat
  | .bits32 => 16
  | .bits64 => 24

/-- Reads an entry. The value and the size follow the name where words are narrow, and end the entry
where they are wide. -/
def read (f : Format) : Reader Symbol := do
  let name ← readNumber f.order 4
  match f.wordSize with
  | .bits32 =>
    let value ← f.readWord
    let size ← f.readWord
    let _info ← readNumber f.order 1
    let _other ← readNumber f.order 1
    let sectionIndex ← readNumber f.order 2
    return { name, sectionIndex, value, size }
  | .bits64 =>
    let _info ← readNumber f.order 1
    let _other ← readNumber f.order 1
    let sectionIndex ← readNumber f.order 2
    let value ← f.readWord
    let size ← f.readWord
    return { name, sectionIndex, value, size }

def readTable (f : Format) (image : List UInt8) (offset count : Nat) :
    Except Fault (List Symbol) := do
  let file := image.length
  let size := count * entryBytes f.wordSize
  if offset ≥ file then throw (.symbolsStart offset file)
  if size ≥ wordLimit then throw (.symbolsCount offset count)
  if size > file - offset then throw (.symbolsEnd size (file - offset))
  (readMany (read f) count).on (image.drop offset)

end Symbol

end Freestanding.Image
