import Freestanding.Image.Dynamic

/-!
# Reading an image

An image is read as a whole before anything is asked of it: a fault in any part that the format
connects makes the whole image unreadable. The parts are read in a fixed order, so the first fault in
that order is the one reported.
-/
namespace Freestanding.Image

/-- The tables of an image: its sections and its symbols, with their names. -/
structure Tables where
  sections : List SectionHeader
  sectionNames : StringTable
  symbols : List Symbol
  symbolNames : StringTable
  dynamicSymbols : List Symbol
  dynamicNames : StringTable
  deriving Repr

/-- Reads the symbol table of the last section that is one, with its names. -/
def readSymbols (f : Format) (image : List UInt8) (sections : List SectionHeader) :
    Except Fault (List Symbol × StringTable) :=
  match sections.reverse.find? (·.kind == SectionHeader.symbols) with
  | none => .ok ([], .empty)
  | some s => do
    let symbols ← Symbol.readTable f image s.offset (s.size / s.entrySize)
    let names ← StringTable.ofSection image sections s.link
    return (symbols, names)

/-- The number of dynamic symbols: what the hash tables say, or one more than the largest that a
relocation refers to. -/
def dynamicCount (hashed : Nat) (relocated : List Nat) : Nat :=
  let largest := relocated.foldl max 0
  if largest = 0 then hashed else max hashed (largest + 1)

/-- Reads the dynamic symbols, with their names, if there is a dynamic segment. -/
def readDynamicSymbols (header : FileHeader) (image : List UInt8) (segments : List ProgramHeader) :
    Except Fault (List Symbol × StringTable) := do
  let f := header.format
  let some entries ← readDynamic? f image segments | return ([], .empty)
  let value (tag : Nat) : Nat := (DynamicEntry.last? entries tag).getD 0
  let place? (tag : Nat) : Option Nat := (DynamicEntry.last? entries tag).bind (fileOffset? segments)
  let place (tag : Nat) : Nat := (place? tag).getD 0
  let names ← StringTable.read image (place DynamicEntry.strings) (value DynamicEntry.stringsSize)
  let withAddend ← readRelocations f header.machine image (place DynamicEntry.addendRelocations)
    (value DynamicEntry.addendRelocationsSize) true
  let plain ← readRelocations f header.machine image (place DynamicEntry.plainRelocations)
    (value DynamicEntry.plainRelocationsSize) false
  let linkage ← readRelocations f header.machine image (place DynamicEntry.linkageRelocations)
    (value DynamicEntry.relocationSize)
    (value DynamicEntry.linkageKind == DynamicEntry.addendRelocations)
  let hashed ←
    match place? DynamicEntry.filteredHash, place? DynamicEntry.hash with
    | some offset, _ => filteredCount f image offset
    | none, some offset => hashedCount f header.machine image offset
    | none, none => pure 0
  let symbols ← Symbol.readTable f image (place DynamicEntry.symbols)
    (dynamicCount hashed (withAddend ++ plain ++ linkage))
  return (symbols, names)

/-- Refuses an image whose relocation sections do not lie inside it. -/
def checkRelocations (image : List UInt8) (sections : List SectionHeader) : Except Fault Unit :=
  sections.forM fun s => do
    if s.kind = SectionHeader.relocations ∨ s.kind = SectionHeader.relocationsAddend then
      s.check image.length
      let _contents ← sliceUnlessEmpty image s.offset s.size

/-- Refuses an image whose tables of symbol versions do not lie inside it. Of each kind, only the
first section counts. -/
def checkVersions (image : List UInt8) (sections : List SectionHeader) : Except Fault Unit :=
  SectionHeader.versions.forM fun kind =>
    match sections.find? (·.kind == kind) with
    | none => .ok ()
    | some s => do
      let _contents ← slice image s.offset s.size

def Tables.read (image : List UInt8) : Except Fault Tables := do
  let header ← FileHeader.read image
  let segments ← readProgramHeaders header image
  let sections ← readSectionHeaders header image
  let sectionNames ← StringTable.ofSection image sections header.nameSection
  let (symbols, symbolNames) ← readSymbols header.format image sections
  let (dynamicSymbols, dynamicNames) ← readDynamicSymbols header image segments
  checkRelocations image sections
  checkVersions image sections
  return { sections, sectionNames, symbols, symbolNames, dynamicSymbols, dynamicNames }

end Freestanding.Image
