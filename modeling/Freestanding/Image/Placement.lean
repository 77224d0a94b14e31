import Freestanding.Image.Reading

/-!
# Where a symbol is placed

A symbol lives in a section, and a section either has its contents in the file or is filled with
zeros when the program is loaded.
-/
namespace Freestanding.Image

inductive Storage where
  | zeroFill
  | stored
  deriving DecidableEq, Repr

structure Section where
  name : String
  storage : Storage
  /-- Its size in memory. -/
  size : Nat
  deriving DecidableEq, Repr

structure Placement where
  symbol : String
  address : Nat
  size : Nat
  home : Section
  deriving DecidableEq, Repr

inductive InspectError where
  | unreadable (reason : String)
  | malformed (fault : Fault)
  | symbolNotFound (name : String)
  | noSection (name : String)
  deriving DecidableEq, Repr

def Storage.ofKind (kind : Nat) : Storage :=
  if kind = SectionHeader.noBits then .zeroFill else .stored

def Storage.text : Storage → String
  | .zeroFill => "zero-fill (NOBITS)"
  | .stored => "stored (PROGBITS or other)"

/-- The bytes that a section takes in the file. -/
def Section.fileSize (s : Section) : Nat :=
  match s.storage with
  | .zeroFill => 0
  | .stored => s.size

/-- The section of a header. A name that cannot be looked up is empty. -/
def Tables.sectionOf (tables : Tables) (header : SectionHeader) : Section where
  name := (tables.sectionNames.lookup? header.name).getD ""
  storage := .ofKind header.kind
  size := header.size

def findSymbol? (symbols : List Symbol) (names : StringTable) (name : String) : Option Symbol :=
  symbols.find? fun s => names.lookup? s.name == some name

/-- The symbol that a name stands for: the first of the symbol table, or else the first of the
dynamic symbols. -/
def Tables.symbol? (tables : Tables) (name : String) : Option Symbol :=
  (findSymbol? tables.symbols tables.symbolNames name).or
    (findSymbol? tables.dynamicSymbols tables.dynamicNames name)

/-- The section header that a symbol belongs to. The index zero marks a symbol without a section. -/
def Tables.headerOf? (tables : Tables) (s : Symbol) : Option SectionHeader :=
  if s.sectionIndex = 0 then none else tables.sections[s.sectionIndex]?

def Tables.placement (tables : Tables) (name : String) : Except InspectError Placement :=
  match tables.symbol? name with
  | none => .error (.symbolNotFound name)
  | some s =>
    match tables.headerOf? s with
    | none => .error (.noSection name)
    | some header => .ok ⟨name, s.value, s.size, tables.sectionOf header⟩

/-- The sections that are filled with zeros, in the order of their headers. -/
def Tables.zeroFillSections (tables : Tables) : List Section :=
  (tables.sections.map tables.sectionOf).filter (·.storage == .zeroFill)

def readTables (bytes : List UInt8) : Except InspectError Tables :=
  (Tables.read bytes).mapError .malformed

def inspectSymbol (bytes : List UInt8) (name : String) : Except InspectError Placement := do
  (← readTables bytes).placement name

def zeroFillSections (bytes : List UInt8) : Except InspectError (List Section) :=
  (readTables bytes).map Tables.zeroFillSections

/-- Whether the symbol's bytes stand in the file. -/
def Placement.isStored (p : Placement) : Bool := p.home.storage == .stored

def Placement.text (p : Placement) : String :=
  p.symbol ++ " @ " ++ Text.hex p.address ++ ", " ++ toString p.size ++ " bytes, section "
    ++ p.home.name ++ " (" ++ p.home.storage.text ++ ", " ++ toString p.home.fileSize
    ++ " file bytes)"

/-- The reason behind an error, where there is one. -/
def InspectError.reason? : InspectError → Option String
  | .unreadable reason => some reason
  | .malformed fault => some fault.message
  | .symbolNotFound _ => none
  | .noSection _ => none

def InspectError.message : InspectError → String
  | .unreadable reason => "I/O error: " ++ reason
  | .malformed fault => "ELF error: " ++ fault.message
  | .symbolNotFound name => "symbol not found: " ++ name
  | .noSection name => "symbol has no section: " ++ name

end Freestanding.Image
