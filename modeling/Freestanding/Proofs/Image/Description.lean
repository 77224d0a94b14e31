import Freestanding.Image.Placement
import Freestanding.Proofs.Image.NameTable
import Freestanding.Proofs.Image.Pieces
import Freestanding.Proofs.Image.Writing

/-!
# Images from descriptions

A description says what an image holds: its sections in order, with the three tables of symbols and
names among them, and its symbols. An arrangement says where in the file the tables stand. Encoding
puts the file header and the tables there and leaves the rest of the file as it was.

What inspection should answer is read off the description alone.
-/
namespace Freestanding.Image

open Freestanding.Text (utf8)

/-- A section that reading does not look into. -/
structure PlainSection where
  kind : Nat
  address : Nat
  offset : Nat
  size : Nat
  link : Nat
  entrySize : Nat
  deriving DecidableEq, Repr

inductive Contents where
  | plain (p : PlainSection)
  | symbols
  | symbolNames
  | sectionNames
  deriving DecidableEq, Repr

structure SectionDescription where
  name : String
  contents : Contents
  unread : SectionHeader.Unread
  deriving DecidableEq, Repr

structure SymbolDescription where
  name : String
  sectionIndex : Nat
  value : Nat
  size : Nat
  unread : Symbol.Unread
  deriving DecidableEq, Repr

structure Description where
  format : Format
  machine : Nat
  sections : List SectionDescription
  symbols : List SymbolDescription
  unread : FileHeader.Unread
  deriving DecidableEq, Repr

/-- Where the tables of an image begin. -/
structure Arrangement where
  sectionHeaders : Nat
  symbols : Nat
  symbolNames : Nat
  sectionNames : Nat
  deriving DecidableEq, Repr

def SectionHeader.strings : Nat := 3

/-- The kinds of sections that reading looks into. -/
def SectionHeader.examined : List Nat := [symbols, relocationsAddend, relocations] ++ versions

def Contents.kind : Contents → Nat
  | .plain p => p.kind
  | .symbols => SectionHeader.symbols
  | .symbolNames => SectionHeader.strings
  | .sectionNames => SectionHeader.strings

def PlainSection.header (p : PlainSection) (name : Nat) : SectionHeader :=
  ⟨name, p.kind, p.address, p.offset, p.size, p.link, p.entrySize⟩

/-- A plain section is of a kind that reading passes over, and its numbers fit their fields. -/
def Contents.Fits (w : WordSize) : Contents → Prop
  | .plain p => (p.header 0).Fits w ∧ p.kind ∉ SectionHeader.examined
  | _ => True

instance (w : WordSize) : (c : Contents) → Decidable (c.Fits w)
  | .plain p => inferInstanceAs (Decidable ((p.header 0).Fits w ∧ p.kind ∉ SectionHeader.examined))
  | .symbols => inferInstanceAs (Decidable True)
  | .symbolNames => inferInstanceAs (Decidable True)
  | .sectionNames => inferInstanceAs (Decidable True)

def SymbolDescription.entry (s : SymbolDescription) (name : Nat) : Symbol :=
  ⟨name, s.sectionIndex, s.value, s.size⟩

namespace Description

variable (d : Description) (a : Arrangement)

/-- The symbols, each with the offset of its name. The table of names begins with an empty one. -/
def namedSymbols : List (Nat × SymbolDescription) :=
  (offsetsFrom 1 (d.symbols.map (·.name))).zip d.symbols

def namedSections : List (Nat × SectionDescription) :=
  (offsetsFrom 1 (d.sections.map (·.name))).zip d.sections

def symbolBytes : List UInt8 :=
  d.namedSymbols.flatMap fun s => (s.2.entry s.1).write d.format s.2.unread

def symbolNameBytes : List UInt8 := nameBytes ("" :: d.symbols.map (·.name))

def sectionNameBytes : List UInt8 := nameBytes ("" :: d.sections.map (·.name))

/-- The index of the section that holds a table. -/
def indexOf (c : Contents) : Nat := d.sections.findIdx (·.contents == c)

/-- The header of a section. The tables go nowhere in memory. -/
def headerOf (s : Nat × SectionDescription) : SectionHeader :=
  match s.2.contents with
  | .plain p => p.header s.1
  | .symbols =>
    ⟨s.1, SectionHeader.symbols, 0, a.symbols, d.symbolBytes.length, d.indexOf .symbolNames,
      Symbol.entryBytes d.format.wordSize⟩
  | .symbolNames =>
    ⟨s.1, SectionHeader.strings, 0, a.symbolNames, d.symbolNameBytes.length, 0, 0⟩
  | .sectionNames =>
    ⟨s.1, SectionHeader.strings, 0, a.sectionNames, d.sectionNameBytes.length, 0, 0⟩

def sectionBytes : List UInt8 :=
  d.namedSections.flatMap fun s => (d.headerOf a s).write d.format s.2.unread

def fileHeader : FileHeader where
  format := d.format
  machine := d.machine
  programHeaders := 0
  sectionHeaders := a.sectionHeaders
  programCount := 0
  sectionCount := d.sections.length
  nameSection := d.indexOf .sectionNames

def pieces : List Piece := [
  ⟨0, (d.fileHeader a).write d.unread⟩,
  ⟨a.sectionHeaders, d.sectionBytes a⟩,
  ⟨a.symbols, d.symbolBytes⟩,
  ⟨a.symbolNames, d.symbolNameBytes⟩,
  ⟨a.sectionNames, d.sectionNameBytes⟩]

/-- The image of a description, written into a file. -/
def encode (file : List UInt8) : List UInt8 := putAll (d.pieces a) file

/-- A description that can be written: each table is there once, the names have no zero bytes, and
the sections and the symbols fit. -/
structure WellFormed (d : Description) : Prop where
  machine : d.machine < Bytes.limit 2
  /-- There are fewer than `0xFF00` sections beside the three tables. -/
  few : d.sections.length < 0xFF00 + 3
  tables : ∀ c ∈ [Contents.symbols, .symbolNames, .sectionNames],
    d.sections.countP (·.contents == c) = 1
  sectionNames : Textual (d.sections.map (·.name))
  symbolNames : Textual (d.symbols.map (·.name))
  contents : ∀ s ∈ d.sections, s.contents.Fits d.format.wordSize
  symbols : ∀ s ∈ d.symbols, (s.entry 0).Fits d.format.wordSize

/-- The tables lie in a file, apart from each other and from the file header, and their offsets and
sizes fit their fields. -/
structure Fits (d : Description) (a : Arrangement) (file : List UInt8) : Prop where
  size : file.length < wordLimit
  inside : ∀ p ∈ d.pieces a, p.Inside file.length
  apart : (d.pieces a).Pairwise Piece.Apart
  offsets : ∀ p ∈ d.pieces a, p.start < d.format.wordSize.limit
  sizes : ∀ bytes ∈ [d.symbolBytes, d.symbolNameBytes, d.sectionNameBytes],
    bytes.length < d.format.wordSize.limit
  names : (∀ s ∈ d.namedSections, s.1 < Bytes.limit 4) ∧ ∀ s ∈ d.namedSymbols, s.1 < Bytes.limit 4

def sizeOf : Contents → Nat
  | .plain p => p.size
  | .symbols => d.symbolBytes.length
  | .symbolNames => d.symbolNameBytes.length
  | .sectionNames => d.sectionNameBytes.length

def report (s : SectionDescription) : Section where
  name := s.name
  storage := if s.contents.kind = SectionHeader.noBits then .zeroFill else .stored
  size := d.sizeOf s.contents

def zeroFill : List Section :=
  (d.sections.filter (·.contents.kind == SectionHeader.noBits)).map d.report

/-- What should be reported of a symbol: the first of its name counts, and an index that is zero or
beyond the sections gives it no section. -/
def placement (name : String) : Except InspectError Placement :=
  match d.symbols.find? (·.name == name) with
  | none => .error (.symbolNotFound name)
  | some s =>
    if s.sectionIndex = 0 then .error (.noSection name)
    else
      match d.sections[s.sectionIndex]? with
      | none => .error (.noSection name)
      | some home => .ok ⟨name, s.value, s.size, d.report home⟩

end Description

end Freestanding.Image
