import Freestanding.Image.StringTable
import Freestanding.Image.Symbol

/-!
# The dynamic segment

The dynamic segment is a list of tagged values. It gives the dynamic symbols by their address in
memory and does not give their number; that follows from a hash table over the symbols and from the
relocations that refer to them.
-/
namespace Freestanding.Image

open Freestanding.Bytes (ByteOrder)

/-- A tagged value of the dynamic segment. -/
structure DynamicEntry where
  tag : Nat
  value : Nat
  deriving DecidableEq, Repr

namespace DynamicEntry

def ending : Nat := 0
def relocationSize : Nat := 2
def hash : Nat := 4
def strings : Nat := 5
def symbols : Nat := 6
def addendRelocations : Nat := 7
def addendRelocationsSize : Nat := 8
def stringsSize : Nat := 10
def plainRelocations : Nat := 17
def plainRelocationsSize : Nat := 18
def linkageKind : Nat := 20
def linkageRelocations : Nat := 23
def filteredHash : Nat := 0x6FFFFEF5

def entryBytes (w : WordSize) : Nat := 2 * w.bytes

def read (f : Format) : Reader DynamicEntry := do
  let tag ← f.readWord
  let value ← f.readWord
  return { tag, value }

/-- The entries up to the one that ends the segment. -/
def upToEnding : List DynamicEntry → List DynamicEntry
  | [] => []
  | e :: es => if e.tag = ending then [e] else e :: upToEnding es

/-- The value of the last entry with a tag. -/
def last? (entries : List DynamicEntry) (tag : Nat) : Option Nat :=
  (entries.reverse.find? (·.tag == tag)).map (·.value)

end DynamicEntry

/-- Reads the dynamic segment, if a program header describes one. -/
def readDynamic? (f : Format) (image : List UInt8) (segments : List ProgramHeader) :
    Except Fault (Option (List DynamicEntry)) :=
  match segments.find? (·.kind == ProgramHeader.dynamic) with
  | none => .ok none
  | some segment => do
    let bytes ←
      match sliceUnlessEmpty image segment.offset segment.fileSize with
      | .ok bytes => pure bytes
      | .error _ => throw (.dynamicContents segment.offset segment.fileSize)
    let count := segment.fileSize / DynamicEntry.entryBytes f.wordSize
    let entries ← (readMany (DynamicEntry.read f) count).on bytes
    return some (DynamicEntry.upToEnding entries)

/-- The place in the file of an address in memory: the first loaded segment that holds the address
decides. -/
def fileOffset? (segments : List ProgramHeader) (address : Nat) : Option Nat :=
  let holds (s : ProgramHeader) : Bool :=
    s.kind == ProgramHeader.load && decide (s.address ≤ address)
      && decide (address - s.address < s.memorySize)
  (segments.find? holds).bind fun s =>
    let offset := s.offset + (address - s.address)
    if offset < wordLimit then some offset else none

def relocationBytes (w : WordSize) (addend : Bool) : Nat := (if addend then 3 else 2) * w.bytes

/-- The machine whose wide relocations, low byte first, keep the symbol in the low half. -/
def swappedMachine : Nat := 8

/-- The symbol that a relocation's information refers to. -/
def relocatedSymbol (f : Format) (machine information : Nat) : Nat :=
  match f.wordSize with
  | .bits32 => information / 0x100
  | .bits64 =>
    if machine = swappedMachine ∧ f.order = .littleEndian then information % 0x100000000
    else information / 0x100000000

/-- Reads a relocation: the symbol it refers to. -/
def readRelocation (f : Format) (machine : Nat) (addend : Bool) : Reader Nat := do
  let _place ← f.readWord
  let information ← f.readWord
  if addend then
    let _addend ← f.readWord
  return relocatedSymbol f machine information

/-- Reads a table of relocations: the symbols they refer to. Bytes that are no whole entry are left
over. -/
def readRelocations (f : Format) (machine : Nat) (image : List UInt8) (offset size : Nat)
    (addend : Bool) : Except Fault (List Nat) := do
  let bytes ← sliceUnlessEmpty image offset size
  (readMany (readRelocation f machine addend) (size / relocationBytes f.wordSize addend)).on bytes

/-- The machines whose hash tables have wide entries in wide images. -/
def wideHashMachines : List Nat := [22, 41]

/-- The number of symbols that a plain hash table says. -/
def hashedCount (f : Format) (machine : Nat) (image : List UInt8) (offset : Nat) :
    Except Fault Nat :=
  let wide := f.wordSize == .bits64 && wideHashMachines.contains machine
  numberAt f.order image (min (offset + 4) (wordLimit - 1)) (if wide then 8 else 4)

/-- Follows a chain of a filtered hash table to its end, which is marked by an odd number: the index
after the last symbol. -/
def chainEnd (order : ByteOrder) (index : Nat) : List UInt8 → Except Fault Nat
  | a :: b :: c :: d :: rest =>
    if order.value [a, b, c, d] % 2 = 1 then .ok (index + 1) else chainEnd order (index + 1) rest
  | rest => .error (.tooBig 4 rest.length)

/-- The number of symbols that a filtered hash table says: its last bucket leads to its last
chain. -/
def filteredCount (f : Format) (image : List UInt8) (offset : Nat) : Except Fault Nat := do
  let buckets ← numberAt f.order image offset 4
  let first ← numberAt f.order image (offset + 4) 4
  let filter ← numberAt f.order image (offset + 8) 4
  if buckets = 0 ∨ first = 0 ∨ filter = 0 then throw (.emptyHash buckets first filter)
  let start := offset + 16 + filter * f.wordSize.bytes
  let heads ← (readMany (readNumber f.order 4) buckets).on (← bytesFrom image start)
  let last := heads.foldl max 0
  if last < first then return 0
  chainEnd f.order last (← bytesFrom image (start + buckets * 4 + (last - first) * 4))

end Freestanding.Image
