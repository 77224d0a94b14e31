import Freestanding.Image.Reader

/-!
# The headers of an image

The file header, the table of program headers and the table of section headers. The sizes of entries
are those of the format; what the file header says of them is not consulted.
-/
namespace Freestanding.Image

open Freestanding.Bytes (ByteOrder lowFirst)

/-- The part of the file header that places the other headers. -/
structure FileHeader where
  format : Format
  machine : Nat
  programHeaders : Nat
  sectionHeaders : Nat
  programCount : Nat
  sectionCount : Nat
  /-- The index of the section that holds the names of the sections. -/
  nameSection : Nat
  deriving DecidableEq, Repr

/-- A program header: a segment of the file and where it goes in memory. -/
structure ProgramHeader where
  kind : Nat
  offset : Nat
  address : Nat
  fileSize : Nat
  memorySize : Nat
  deriving DecidableEq, Repr

structure SectionHeader where
  /-- Where the section's name stands in the table of names. -/
  name : Nat
  kind : Nat
  address : Nat
  offset : Nat
  size : Nat
  link : Nat
  entrySize : Nat
  deriving DecidableEq, Repr

namespace ProgramHeader

def load : Nat := 1

def dynamic : Nat := 2

def entryBytes : WordSize → Nat
  | .bits32 => 32
  | .bits64 => 56

/-- Reads an entry. The flags stand before the offset where words are wide, and next to last where
they are not. -/
def read (f : Format) : Reader ProgramHeader := do
  let kind ← readNumber f.order 4
  if f.wordSize = .bits64 then
    let _flags ← readNumber f.order 4
  let offset ← f.readWord
  let address ← f.readWord
  let _physical ← f.readWord
  let fileSize ← f.readWord
  let memorySize ← f.readWord
  if f.wordSize = .bits32 then
    let _flags ← readNumber f.order 4
  let _alignment ← f.readWord
  return { kind, offset, address, fileSize, memorySize }

end ProgramHeader

namespace SectionHeader

def symbols : Nat := 2

/-- The kind of a relocation table whose entries have an addend. -/
def relocationsAddend : Nat := 4

/-- The kind of a section without contents in the file. -/
def noBits : Nat := 8

/-- The kind of a relocation table whose entries have no addend. -/
def relocations : Nat := 9

/-- The kinds of the three tables of symbol versions, in the order in which they are read. -/
def versions : List Nat := [0x6FFFFFFF, 0x6FFFFFFD, 0x6FFFFFFE]

def entryBytes : WordSize → Nat
  | .bits32 => 40
  | .bits64 => 64

def read (f : Format) : Reader SectionHeader := do
  let name ← readNumber f.order 4
  let kind ← readNumber f.order 4
  let _flags ← f.readWord
  let address ← f.readWord
  let offset ← f.readWord
  let size ← f.readWord
  let link ← readNumber f.order 4
  let _info ← readNumber f.order 4
  let _alignment ← f.readWord
  let entrySize ← f.readWord
  return { name, kind, address, offset, size, link, entrySize }

/-- Refuses a section whose contents end beyond the file or whose memory ends beyond 64 bits. A
section without contents has none to test. -/
def check (s : SectionHeader) (fileSize : Nat) : Except Fault Unit :=
  if s.kind = noBits ∨ s.size = 0 then .ok ()
  else if s.offset + s.size ≥ wordLimit then .error (.sectionContents s.name s.offset s.size true)
  else if s.offset + s.size > fileSize then
    .error (.sectionContents s.name s.offset s.size false)
  else if s.address + s.size ≥ wordLimit then .error (.sectionMemory s.name s.address s.size)
  else .ok ()

end SectionHeader

def identificationBytes : Nat := 16

def magic : List UInt8 := [0x7F, 0x45, 0x4C, 0x46]

def wordSizeOfCode? : Nat → Option WordSize
  | 1 => some .bits32
  | 2 => some .bits64
  | _ => none

def byteOrderOfCode? : Nat → Option ByteOrder
  | 1 => some .littleEndian
  | 2 => some .bigEndian
  | _ => none

/-- Reads the identification of an image and leaves what follows it. -/
def readFormat (image : List UInt8) : Except Fault Format := do
  let identification := image.take identificationBytes
  if identification.length < identificationBytes then throw .tooSmall
  if identification.take 4 ≠ magic then throw (.badMagic (lowFirst (identification.take 8)))
  let code (index : Nat) : Nat := (identification.getD index 0).toNat
  let wordSize ← (wordSizeOfCode? (code 4)).elim (throw (.badClass (code 4))) pure
  let order ← (byteOrderOfCode? (code 5)).elim (throw (.badOrder (code 5))) pure
  return { wordSize, order }

def FileHeader.readFields (f : Format) : Reader FileHeader := do
  let _kind ← readNumber f.order 2
  let machine ← readNumber f.order 2
  let _version ← readNumber f.order 4
  let _entry ← f.readWord
  let programHeaders ← f.readWord
  let sectionHeaders ← f.readWord
  let _flags ← readNumber f.order 4
  let _headerSize ← readNumber f.order 2
  let _programSize ← readNumber f.order 2
  let programCount ← readNumber f.order 2
  let _sectionSize ← readNumber f.order 2
  let sectionCount ← readNumber f.order 2
  let nameSection ← readNumber f.order 2
  return { format := f, machine, programHeaders, sectionHeaders, programCount, sectionCount,
           nameSection }

def FileHeader.read (image : List UInt8) : Except Fault FileHeader := do
  let f ← readFormat image
  (FileHeader.readFields f).on (image.drop identificationBytes)

def readProgramHeaders (header : FileHeader) (image : List UInt8) :
    Except Fault (List ProgramHeader) := do
  let f := header.format
  let count := header.programCount
  if count > image.length / ProgramHeader.entryBytes f.wordSize then
    throw (.tooManyHeaders count .program)
  if count = 0 then return []
  let bytes ← bytesFrom image header.programHeaders
  (readMany (ProgramHeader.read f) count).on bytes

/-- Reads the table of section headers. There is none at offset zero. Its first entry is always
read, because that entry holds the number of sections where the file header does not. -/
def readSectionHeaders (header : FileHeader) (image : List UInt8) :
    Except Fault (List SectionHeader) := do
  let f := header.format
  if header.sectionHeaders = 0 then return []
  let bytes ← bytesFrom image header.sectionHeaders
  let (first, rest) ← SectionHeader.read f bytes
  let count := if header.sectionCount = 0 then first.size else header.sectionCount
  if count > image.length / SectionHeader.entryBytes f.wordSize then
    throw (.tooManyHeaders count .section)
  let others ← (readMany (SectionHeader.read f) (count - 1)).on rest
  return first :: others

end Freestanding.Image
