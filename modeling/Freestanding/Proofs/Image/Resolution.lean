import Freestanding.Proofs.Image.RoundTrip

/-!
# Which symbol a name stands for

The candidates for a name are the entries of the symbol table and then those of the dynamic symbols,
each with its name in the strings of its own table. The first candidate of that name decides alone
what an inspection answers: what stands behind it is never looked at, whether it has a section or not.
-/
namespace Freestanding.Image

/-- A symbol that may be looked for, with its name if it has one. -/
structure Candidate where
  symbol : Symbol
  name? : Option String
  deriving DecidableEq, Repr

/-- The entries of a table, named by its own strings. -/
def candidatesOf (symbols : List Symbol) (names : StringTable) : List Candidate :=
  symbols.map fun s => ⟨s, names.lookup? s.name⟩

/-- The candidates of an image, in the order in which they are tried. -/
def Tables.candidates (tables : Tables) : List Candidate :=
  candidatesOf tables.symbols tables.symbolNames
    ++ candidatesOf tables.dynamicSymbols tables.dynamicNames

/-- A symbol has the name, and none of the candidates before it has. -/
def FirstNamed (candidates : List Candidate) (name : String) (s : Symbol) : Prop :=
  ∃ before after, candidates = before ++ ⟨s, some name⟩ :: after ∧
    ∀ c ∈ before, c.name? ≠ some name

variable {tables : Tables} {name : String} {s : Symbol}

theorem find?_candidatesOf (symbols : List Symbol) (names : StringTable) (name : String) :
    (candidatesOf symbols names).find? (·.name? == some name) =
      (findSymbol? symbols names name).map fun s => ⟨s, names.lookup? s.name⟩ :=
  List.find?_map ..

/-- The symbol of a name is that of the first candidate, in both tables taken together. -/
theorem symbol?_eq_find? (tables : Tables) (name : String) :
    tables.symbol? name = (tables.candidates.find? (·.name? == some name)).map (·.symbol) := by
  have hsame : ∀ (names : StringTable) (found : Option Symbol),
      (found.map fun s => (⟨s, names.lookup? s.name⟩ : Candidate)).map (·.symbol) = found := by
    intro names found
    cases found <;> rfl
  rw [Tables.candidates, List.find?_append, find?_candidatesOf, find?_candidatesOf, Option.map_or,
    hsame, hsame, Tables.symbol?]

theorem symbol?_eq_none_iff :
    tables.symbol? name = none ↔ ∀ c ∈ tables.candidates, c.name? ≠ some name := by
  rw [symbol?_eq_find?, Option.map_eq_none_iff, List.find?_eq_none]
  simp only [beq_iff_eq, ne_eq]

theorem symbol?_eq_some_iff :
    tables.symbol? name = some s ↔ FirstNamed tables.candidates name s := by
  rw [symbol?_eq_find?, Option.map_eq_some_iff]
  constructor
  · rintro ⟨c, hfind, rfl⟩
    obtain ⟨hname, before, after, hsplit, hbefore⟩ := List.find?_eq_some_iff_append.mp hfind
    have hc : c = ⟨c.symbol, some name⟩ := by
      have := beq_iff_eq.mp hname
      cases c
      simp_all
    refine ⟨before, after, hc ▸ hsplit, fun b hb hb' => ?_⟩
    simpa [hb'] using hbefore b hb
  · rintro ⟨before, after, hsplit, hbefore⟩
    refine ⟨⟨s, some name⟩, ?_, rfl⟩
    rw [List.find?_eq_some_iff_append]
    refine ⟨beq_self_eq_true _, before, after, hsplit, fun b hb => ?_⟩
    simpa using hbefore b hb

/-! ## Sections and their headers -/

/-- What a section says of its header. Only a section of a header without contents is filled with
zeros; it takes no bytes in the file, and any other section takes all of its bytes there. -/
structure Tables.Tells (tables : Tables) (header : SectionHeader) (s : Section) : Prop where
  name : s.name = (tables.sectionNames.lookup? header.name).getD ""
  size : s.size = header.size
  zeroFill : s.storage = .zeroFill ↔ header.kind = 8
  fileSize : s.fileSize = if s.storage = .zeroFill then 0 else s.size

theorem storage_ofKind_iff {kind : Nat} : Storage.ofKind kind = .zeroFill ↔ kind = 8 := by
  unfold Storage.ofKind SectionHeader.noBits
  split
  · next h => simp [h]
  · next h => simp [h]

theorem fileSize_eq (s : Section) : s.fileSize = if s.storage = .zeroFill then 0 else s.size := by
  unfold Section.fileSize
  cases s.storage with
  | zeroFill => rfl
  | stored => rfl

theorem tells_sectionOf (tables : Tables) (header : SectionHeader) :
    tables.Tells header (tables.sectionOf header) where
  name := rfl
  size := rfl
  zeroFill := storage_ofKind_iff
  fileSize := fileSize_eq _

/-- A header is told of in one way. -/
theorem Tables.Tells.eq_sectionOf {header : SectionHeader} {home : Section}
    (h : tables.Tells header home) : home = tables.sectionOf header := by
  have hstorage : home.storage = (tables.sectionOf header).storage := by
    have hsame := h.zeroFill.trans (tells_sectionOf tables header).zeroFill.symm
    cases hhome : home.storage <;> cases htold : (tables.sectionOf header).storage <;> simp_all
  cases home
  simp only [Tables.sectionOf, Section.mk.injEq]
  exact ⟨h.name, hstorage, h.size⟩

/-! ## What is answered for a candidate -/

theorem headerOf?_eq_none_iff :
    tables.headerOf? s = none ↔ s.sectionIndex = 0 ∨ tables.sections.length ≤ s.sectionIndex := by
  unfold Tables.headerOf?
  split
  · next h => simp [h]
  · next h => rw [List.getElem?_eq_none_iff, or_iff_right h]

variable {bytes : List UInt8}

theorem inspectSymbol_of_read (hread : Tables.read bytes = .ok tables) (name : String) :
    inspectSymbol bytes name = tables.placement name := by
  have htables : readTables bytes = .ok tables := by rw [readTables, hread]; rfl
  rw [inspectSymbol, htables]
  rfl

/-- What is answered for a symbol, by the section header that it belongs to. -/
def Tables.answer (tables : Tables) (name : String) (s : Symbol) :
    Option SectionHeader → Except InspectError Placement
  | none => .error (.noSection name)
  | some header => .ok ⟨name, s.value, s.size, tables.sectionOf header⟩

theorem placement_of_symbol? (h : tables.symbol? name = some s) :
    tables.placement name = tables.answer name s (tables.headerOf? s) := by
  simp only [Tables.placement, h]
  cases tables.headerOf? s with
  | none => rfl
  | some header => rfl

theorem placement_eq_notFound_iff :
    tables.placement name = .error (.symbolNotFound name) ↔ tables.symbol? name = none := by
  constructor
  · intro h
    cases hsymbol : tables.symbol? name with
    | none => rfl
    | some s =>
      rw [placement_of_symbol? hsymbol] at h
      cases hheader : tables.headerOf? s with
      | none => rw [hheader] at h; cases h
      | some header => rw [hheader] at h; cases h
  · intro h
    rw [Tables.placement, h]

theorem placement_eq_noSection_iff (h : tables.symbol? name = some s) :
    tables.placement name = .error (.noSection name) ↔ tables.headerOf? s = none := by
  rw [placement_of_symbol? h]
  cases tables.headerOf? s <;> simp [Tables.answer]

theorem placement_congr {other : Tables} {t : Symbol} (hsections : other.sections = tables.sections)
    (hnames : other.sectionNames = tables.sectionNames)
    (hs : tables.symbol? name = some s) (ht : other.symbol? name = some t)
    (hindex : t.sectionIndex = s.sectionIndex) (hvalue : t.value = s.value)
    (hsize : t.size = s.size) : other.placement name = tables.placement name := by
  have hheader : other.headerOf? t = tables.headerOf? s := by
    rw [Tables.headerOf?, Tables.headerOf?, hindex, hsections]
  have hsection (header : SectionHeader) : other.sectionOf header = tables.sectionOf header := by
    rw [Tables.sectionOf, Tables.sectionOf, hnames]
  rw [placement_of_symbol? hs, placement_of_symbol? ht, hheader]
  cases tables.headerOf? s with
  | none => rfl
  | some header => simp only [Tables.answer, hvalue, hsize, hsection]

/-- The first candidate decides. A name is not found exactly when no candidate has it. Otherwise the
first that has it is placed in the section of the header at its index, or has no section if its index
is zero or beyond the section headers; and any other image with the same section headers and names of
sections, whose first candidate has the same value, size and index, gets the same answer. -/
theorem inspectSymbol_first (hread : Tables.read bytes = .ok tables) (name : String) :
    (inspectSymbol bytes name = .error (.symbolNotFound name) ↔
      ∀ c ∈ tables.candidates, c.name? ≠ some name) ∧
    ∀ s, FirstNamed tables.candidates name s →
      (∀ header, s.sectionIndex ≠ 0 → tables.sections[s.sectionIndex]? = some header →
        ∃ home, tables.Tells header home ∧
          inspectSymbol bytes name = .ok ⟨name, s.value, s.size, home⟩) ∧
      (s.sectionIndex = 0 ∨ tables.sections.length ≤ s.sectionIndex →
        inspectSymbol bytes name = .error (.noSection name)) ∧
      ∀ others other t, Tables.read others = .ok other → other.sections = tables.sections →
        other.sectionNames = tables.sectionNames → FirstNamed other.candidates name t →
        t.sectionIndex = s.sectionIndex → t.value = s.value → t.size = s.size →
        inspectSymbol others name = inspectSymbol bytes name := by
  rw [inspectSymbol_of_read hread]
  refine ⟨placement_eq_notFound_iff.trans symbol?_eq_none_iff, fun s hfirst => ?_⟩
  have hs := symbol?_eq_some_iff.mpr hfirst
  refine ⟨fun header hindex hget => ?_, fun hindex => ?_, ?_⟩
  · have hheader : tables.headerOf? s = some header := by rw [Tables.headerOf?, if_neg hindex, hget]
    rw [placement_of_symbol? hs, hheader, Tables.answer]
    exact ⟨_, tells_sectionOf tables header, rfl⟩
  · exact (placement_eq_noSection_iff hs).mpr (headerOf?_eq_none_iff.mpr hindex)
  · intro others other t hothers hsections hnames ht hindex hvalue hsize
    rw [inspectSymbol_of_read hothers]
    exact placement_congr hsections hnames hs (symbol?_eq_some_iff.mpr ht) hindex hvalue hsize

open Description (small smallArrangement) in
/-- The first of two symbols of one name is placed, though the second has no section. -/
theorem inspectSymbol_first_small :
    Tables.read (small.encode smallArrangement (List.replicate 512 0)) =
        .ok (small.tables smallArrangement) ∧
      FirstNamed (small.tables smallArrangement).candidates "region" ⟨2, 1, 0x4000, 128⟩ ∧
      ∃ home, (small.tables smallArrangement).Tells ⟨2, 8, 0x4000, 0, 128, 0, 0⟩ home ∧
        inspectSymbol (small.encode smallArrangement (List.replicate 512 0)) "region" =
          .ok ⟨"region", 0x4000, 128, home⟩ := by
  have hread := Description.read_encode Description.small_wellFormed Description.small_fits
  have hfirst : FirstNamed (small.tables smallArrangement).candidates "region"
      ⟨2, 1, 0x4000, 128⟩ := by
    rw [← symbol?_eq_some_iff, Description.symbol?_tables]
    decide
  obtain ⟨_, hplaced⟩ := inspectSymbol_first hread "region"
  obtain ⟨hsection, _⟩ := hplaced _ hfirst
  exact ⟨hread, hfirst, hsection ⟨2, 8, 0x4000, 0, 128, 0, 0⟩ (by decide) (by decide)⟩

end Freestanding.Image
