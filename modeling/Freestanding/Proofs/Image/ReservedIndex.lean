import Freestanding.Proofs.Image.Resolution

/-!
# Symbols whose index names no section

The index zero and the reserved indices mark symbols without a section. A reserved index is not
tested for; it is looked up like any other. It therefore has no section exactly when the image has no
section header at that place, as every image has that numbers its sections within 16 bits. An image
that numbers them in its first section header may have more, and then a reserved index, that of
absolute symbols among them, is a section like any other.
-/
namespace Freestanding.Image

/-- The least index that marks a symbol instead of naming a section. -/
def reservedIndex : Nat := 0xFF00

/-- The index of symbols whose value is absolute. -/
def absoluteIndex : Nat := 0xFFF1

/-- An index that names no section: the one of undefined symbols, or a reserved one that does not
stand for an index kept elsewhere. -/
def Sectionless (index : Nat) : Prop :=
  index = 0 ∨ reservedIndex ≤ index ∧ index < StringTable.indirect

/-- A symbol of an index that names no section has none exactly when no section header stands at the
index, unless it is zero. So it has none in any image whose sections are numbered below the reserved
indices. -/
theorem inspectSymbol_sectionless {bytes : List UInt8} {tables : Tables} {name : String} {s : Symbol}
    (hread : Tables.read bytes = .ok tables) (hfirst : FirstNamed tables.candidates name s)
    (hindex : Sectionless s.sectionIndex) :
    (inspectSymbol bytes name = .error (.noSection name) ↔
      s.sectionIndex = 0 ∨ tables.sections.length ≤ s.sectionIndex) ∧
    (tables.sections.length ≤ reservedIndex →
      inspectSymbol bytes name = .error (.noSection name)) := by
  have hs := symbol?_eq_some_iff.mpr hfirst
  have hiff : inspectSymbol bytes name = .error (.noSection name) ↔
      s.sectionIndex = 0 ∨ tables.sections.length ≤ s.sectionIndex := by
    rw [inspectSymbol_of_read hread, placement_eq_noSection_iff hs, headerOf?_eq_none_iff]
  refine ⟨hiff, fun hfew => hiff.mpr ?_⟩
  rcases hindex with hzero | ⟨hreserved, _⟩
  · exact Or.inl hzero
  · exact Or.inr (Nat.le_trans hfew hreserved)

theorem SectionHeader.check_eq_ok {s : SectionHeader} {fileSize : Nat}
    (hword : s.offset + s.size < wordLimit) (hends : s.offset + s.size ≤ fileSize)
    (hmemory : s.address + s.size < wordLimit) : s.check fileSize = .ok () := by
  rw [check, if_neg (Nat.not_le.mpr hword), if_neg (Nat.not_lt.mpr hends),
    if_neg (Nat.not_le.mpr hmemory), ite_self]

/-- An image with few sections and an absolute symbol. -/
def absolute : Description :=
  { Description.small with
    symbols := [
      ⟨"", 0, 0, 0, ⟨0, 0⟩⟩,
      ⟨"region", 1, 0x4000, 128, ⟨17, 0⟩⟩,
      ⟨"limits", absoluteIndex, 7, 0, ⟨16, 0⟩⟩] }

theorem absolute_wellFormed : absolute.WellFormed :=
  { Description.small_wellFormed with symbolNames := by decide, symbols := by decide }

open Description (smallArrangement)

theorem absolute_fits : absolute.Fits smallArrangement (List.replicate 512 0) where
  size := by rw [List.length_replicate]; decide
  inside := by rw [List.length_replicate]; decide +kernel
  apart := by decide +kernel
  offsets := by decide
  sizes := by decide
  names := by decide

theorem inspectSymbol_sectionless_absolute :
    Tables.read (absolute.encode smallArrangement (List.replicate 512 0)) =
        .ok (absolute.tables smallArrangement) ∧
      FirstNamed (absolute.tables smallArrangement).candidates "limits" ⟨9, absoluteIndex, 7, 0⟩ ∧
      Sectionless absoluteIndex ∧
      inspectSymbol (absolute.encode smallArrangement (List.replicate 512 0)) "limits" =
        .error (.noSection "limits") := by
  have hread := Description.read_encode absolute_wellFormed absolute_fits
  have hfirst : FirstNamed (absolute.tables smallArrangement).candidates "limits"
      ⟨9, absoluteIndex, 7, 0⟩ := by
    rw [← symbol?_eq_some_iff, Description.symbol?_tables]
    decide
  have hindex : Sectionless absoluteIndex := Or.inr ⟨by decide, by decide⟩
  obtain ⟨_, hfew⟩ := inspectSymbol_sectionless hread hfirst hindex
  exact ⟨hread, hfirst, hindex, hfew (by decide)⟩

/-- Section headers are read as they were written, wherever their number stands. -/
theorem readSectionHeaders_written {header : FileHeader} {image more : List UInt8}
    {first : SectionHeader} {others : List SectionHeader} {u : SectionHeader.Unread}
    (hplace : header.sectionHeaders ≠ 0)
    (hbytes : bytesFrom image header.sectionHeaders =
      .ok ((first :: others).flatMap (·.write header.format u) ++ more))
    (hfits : ∀ s ∈ first :: others, s.Fits header.format.wordSize)
    (hcount : (if header.sectionCount = 0 then first.size else header.sectionCount) =
      others.length + 1)
    (hroom : others.length + 1 ≤ image.length / SectionHeader.entryBytes header.format.wordSize) :
    readSectionHeaders header image = .ok (first :: others) := by
  have hwrite (s : SectionHeader) (hs : s ∈ first :: others) (rest : List UInt8) :
      SectionHeader.read header.format (s.write header.format u ++ rest) = .ok (s, rest) :=
    SectionHeader.read_write (hfits s hs) u rest
  have hfirst := hwrite first (List.mem_cons_self ..)
    (others.flatMap (·.write header.format u) ++ more)
  have hothers := readMany_flatMap (fun s hs => hwrite s (List.mem_cons_of_mem first hs)) more
  have hfew : ¬ others.length + 1 > image.length / SectionHeader.entryBytes header.format.wordSize :=
    Nat.not_lt.mpr hroom
  rw [List.flatMap_cons, List.append_assoc] at hbytes
  simp only [readSectionHeaders, hplace, ↓reduceIte, hbytes, bind, Except.bind, hfirst, hcount, hfew,
    Nat.add_sub_cancel, Reader.on, hothers, Except.map, List.map_id']
  rfl

/-! ## Images with many sections -/

namespace Overnumbered

def format : Format := ⟨.bits64, .littleEndian⟩

/-- The number of the sections is zero in the file header: it stands in the first section header. -/
def fileHeader : FileHeader := ⟨format, 62, 0, 122, 0, 0, 2⟩

def names : List String := ["", "absolute"]

/-- The header of every section that is neither the first nor one of the two tables. -/
def plain : SectionHeader := ⟨0, 1, 0x1000, 0, 16, 0, 0⟩

def numbering (count : Nat) : SectionHeader := ⟨0, 0, 0, 0, count, 0, 0⟩

def symbolTable : SectionHeader := ⟨0, SectionHeader.symbols, 0, 64, 48, 2, 24⟩

def nameTable : SectionHeader := ⟨0, 3, 0, 112, 10, 0, 0⟩

/-- The section headers, up to the one at `index`. -/
def sections (index : Nat) : List SectionHeader :=
  numbering (index + 1) :: symbolTable :: nameTable :: List.replicate (index - 2) plain

/-- The symbols: the empty one that begins a table, and one that has the index. -/
def symbols (index : Nat) : List Symbol := [⟨0, 0, 0, 0⟩, ⟨1, index, 7, 0⟩]

def sectionBytes (headers : List SectionHeader) : List UInt8 :=
  headers.flatMap fun h => h.write format ⟨0, 0, 0⟩

def symbolBytes (index : Nat) : List UInt8 :=
  (symbols index).flatMap fun s => s.write format ⟨0, 0⟩

/-- An image with a symbol of an index and a section header at that index. -/
def image (index : Nat) : List UInt8 :=
  fileHeader.write ⟨1, 1, 0, 0⟩
    ++ (symbolBytes index ++ (nameBytes names ++ sectionBytes (sections index)))

def tables (index : Nat) : Tables where
  sections := sections index
  sectionNames := .ofNames 0 names
  symbols := symbols index
  symbolNames := .ofNames 0 names
  dynamicSymbols := []
  dynamicNames := .empty

/-! ## Reading them -/

variable {index : Nat}

theorem length_sections (h : 2 ≤ index) : (sections index).length = index + 1 := by
  simp only [sections, List.length_cons, List.length_replicate]
  omega

theorem kind_mem_sections {h : SectionHeader} (hh : h ∈ sections index) : h.kind ∈ [0, 1, 2, 3] := by
  simp only [sections, List.mem_cons] at hh
  rcases hh with rfl | rfl | rfl | hplain
  · exact List.mem_cons_self ..
  · decide
  · decide
  · rw [List.eq_of_mem_replicate hplain]
    decide

theorem length_fileHeader : (fileHeader.write ⟨1, 1, 0, 0⟩).length = 64 := FileHeader.length_write ..

theorem length_symbolBytes : (symbolBytes index).length = 48 :=
  length_flatMap_of_length (Symbol.length_write format · ⟨0, 0⟩) (symbols index)

theorem length_names : (nameBytes names).length = 10 := by decide

theorem length_sectionBytes (headers : List SectionHeader) :
    (sectionBytes headers).length = headers.length * 64 :=
  length_flatMap_of_length (SectionHeader.length_write format · ⟨0, 0, 0⟩) headers

theorem length_image (h : 2 ≤ index) : (image index).length = 122 + (index + 1) * 64 := by
  simp only [image, List.length_append, length_fileHeader, length_symbolBytes, length_names,
    length_sectionBytes, length_sections h]
  omega

theorem drop_symbols :
    (image index).drop 64 = symbolBytes index ++ (nameBytes names ++ sectionBytes (sections index)) :=
  List.drop_left' length_fileHeader

theorem drop_names : (image index).drop 112 = nameBytes names ++ sectionBytes (sections index) := by
  have hdrop : (image index).drop 112 = ((image index).drop 64).drop 48 := by rw [List.drop_drop]
  rw [hdrop, drop_symbols]
  exact List.drop_left' length_symbolBytes

theorem drop_sections : (image index).drop 122 = sectionBytes (sections index) := by
  have hdrop : (image index).drop 122 = ((image index).drop 112).drop 10 := by rw [List.drop_drop]
  rw [hdrop, drop_names]
  exact List.drop_left' length_names

theorem read_fileHeader : FileHeader.read (image index) = .ok fileHeader :=
  FileHeader.read_write ⟨by decide, by decide, by decide, by decide, by decide, by decide⟩ _ _

theorem fits_of_mem_sections (h : index < 0x10000) {s : SectionHeader} (hs : s ∈ sections index) :
    s.Fits format.wordSize := by
  simp only [sections, List.mem_cons] at hs
  rcases hs with rfl | rfl | rfl | hplain
  · have hcount : index + 1 < format.wordSize.limit :=
      Nat.lt_of_le_of_lt (Nat.succ_le_of_lt h) (by decide)
    have hzero : (numbering 0).Fits format.wordSize := by decide
    exact { hzero with size := hcount }
  · decide
  · decide
  · rw [List.eq_of_mem_replicate hplain]
    decide

theorem read_sections (h : 2 ≤ index) (hlt : index < 0x10000) :
    readSectionHeaders fileHeader (image index) = .ok (sections index) := by
  have hbytes : bytesFrom (image index) fileHeader.sectionHeaders =
      .ok ((sections index).flatMap (·.write fileHeader.format ⟨0, 0, 0⟩) ++ []) := by
    have hstart : ¬ (image index).length < 122 := by
      rw [length_image h]
      omega
    rw [List.append_nil, bytesFrom, fileHeader, if_neg hstart, drop_sections]
    rfl
  have hlength : (symbolTable :: nameTable :: List.replicate (index - 2) plain).length + 1 =
      index + 1 := length_sections h
  have hentry : SectionHeader.entryBytes fileHeader.format.wordSize = 64 := rfl
  have hroom : index + 1 ≤ (image index).length / 64 := by
    rw [length_image h]
    omega
  refine readSectionHeaders_written (by decide) hbytes (fun s hs => fits_of_mem_sections hlt hs)
    hlength.symm ?_
  rw [hlength, hentry]
  exact hroom

theorem read_names (h : 2 ≤ index) :
    StringTable.read (image index) 112 10 = .ok (.ofNames 0 names) := by
  have htake : ((image index).drop 112).take 10 = nameBytes names := by
    rw [drop_names]
    exact List.take_left' length_names
  have hlength := length_image h
  have hbegins : ¬ 112 > (image index).length := by omega
  have hword : ¬ 112 + 10 ≥ wordLimit := by decide
  have hends : ¬ 112 + 10 > (image index).length := by omega
  have htextual : Textual names := by decide
  simp only [StringTable.read, hbegins, hword, hends, ↓reduceIte, htake,
    StringTable.cut_nameBytes htextual, bind, Except.bind, pure, Except.pure]

theorem ofSection_names (h : 2 ≤ index) :
    StringTable.ofSection (image index) (sections index) 2 = .ok (.ofNames 0 names) := by
  have hlength := length_image h
  have hends : ¬ 112 + 10 > (image index).length := by omega
  have hcheck : nameTable.check (image index).length = .ok () :=
    SectionHeader.check_eq_ok (by decide) (Nat.not_lt.mp hends) (by decide)
  have hget : (sections index)[2]? = some nameTable := rfl
  have hread := read_names h
  simp only [StringTable.ofSection, StringTable.indirect, Nat.reduceEqDiff, ↓reduceIte, hget, hcheck,
    bind, Except.bind]
  exact hread

theorem find_symbolTable :
    (sections index).reverse.find? (·.kind == SectionHeader.symbols) = some symbolTable := by
  have hreverse : (sections index).reverse =
      List.replicate (index - 2) plain ++ [nameTable, symbolTable, numbering (index + 1)] := by
    simp [sections]
  have hplain : (List.replicate (index - 2) plain).find? (·.kind == SectionHeader.symbols) = none := by
    rw [List.find?_eq_none]
    intro s hs
    rw [List.eq_of_mem_replicate hs]
    decide
  rw [hreverse, List.find?_append, hplain, Option.none_or]
  rfl

theorem read_symbolTable (h : 2 ≤ index) (hlt : index < 0x10000) :
    Symbol.readTable format (image index) 64 2 = .ok (symbols index) := by
  have hwrite (s : Symbol) (hs : s ∈ symbols index) (more : List UInt8) :
      Symbol.read format (s.write format ⟨0, 0⟩ ++ more) = .ok (s, more) := by
    refine Symbol.read_write ?_ _ more
    rcases List.mem_cons.mp hs with rfl | hs
    · decide
    · obtain rfl := List.mem_singleton.mp hs
      have hzero : (Symbol.mk 1 0 7 0).Fits format.wordSize := by decide
      exact { hzero with sectionIndex := hlt }
  have hread := readMany_flatMap hwrite (nameBytes names ++ sectionBytes (sections index))
  have hcount : (symbols index).length = 2 := rfl
  rw [hcount, List.map_id'] at hread
  have hlength := length_image h
  have hbegins : ¬ 64 ≥ (image index).length := by omega
  have hends : ¬ 2 * 24 > (image index).length - 64 := by omega
  have hentry : Symbol.entryBytes format.wordSize = 24 := rfl
  have hword : ¬ 2 * 24 ≥ wordLimit := by decide
  simp only [Symbol.readTable, hbegins, hentry, hword, hends, ↓reduceIte, drop_symbols, Reader.on]
  rw [symbolBytes, hread]
  rfl

theorem read_symbols (h : 2 ≤ index) (hlt : index < 0x10000) :
    readSymbols format (image index) (sections index) = .ok (symbols index, .ofNames 0 names) := by
  have hcount : symbolTable.size / symbolTable.entrySize = 2 := rfl
  have hoffset : symbolTable.offset = 64 := rfl
  have hlink : symbolTable.link = 2 := rfl
  simp only [readSymbols, find_symbolTable, hcount, hoffset, hlink, read_symbolTable h hlt,
    ofSection_names h, bind, Except.bind]
  rfl

theorem check_relocations : checkRelocations (image index) (sections index) = .ok () := by
  refine forM_ok fun s hs => if_neg ?_
  have hkind := kind_mem_sections hs
  rintro (h | h)
  · rw [h] at hkind
    exact absurd hkind (by decide)
  · rw [h] at hkind
    exact absurd hkind (by decide)

theorem check_versions : checkVersions (image index) (sections index) = .ok () := by
  refine forM_ok fun kind hkind => ?_
  have hfind : (sections index).find? (·.kind == kind) = none := by
    rw [List.find?_eq_none]
    intro s hs heq
    have hmem := kind_mem_sections hs
    rw [beq_iff_eq.mp heq] at hmem
    have hapart : ∀ k ∈ SectionHeader.versions, k ∉ [0, 1, 2, 3] := by decide
    exact hapart kind hkind hmem
  rw [hfind]

theorem read_image (h : 2 ≤ index) (hlt : index < 0x10000) :
    Tables.read (image index) = .ok (tables index) := by
  have hformat : fileHeader.format = format := rfl
  have hnames : fileHeader.nameSection = 2 := rfl
  have hprograms : readProgramHeaders fileHeader (image index) = .ok [] := by
    simp [readProgramHeaders, fileHeader, pure, Except.pure]
  have hdynamic : readDynamicSymbols fileHeader (image index) [] = .ok ([], .empty) := rfl
  simp only [Tables.read, read_fileHeader, hprograms, read_sections h hlt, hnames, ofSection_names h,
    hformat, read_symbols h hlt, hdynamic, check_relocations, check_versions, bind, Except.bind]
  rfl

theorem first_absolute : FirstNamed (tables index).candidates "absolute" ⟨1, index, 7, 0⟩ := by
  have hentries : (StringTable.ofNames 0 names).entries = [(0, ""), (1, "absolute")] := by decide
  have hlookup {entry : Nat × String} (h : entry ∈ [(0, ""), (1, "absolute")]) :
      (tables index).symbolNames.lookup? entry.1 = some entry.2 :=
    StringTable.lookup?_ofNames (hentries ▸ h)
  have hempty : (tables index).symbolNames.lookup? 0 = some "" := hlookup (by decide : (0, "") ∈ _)
  have hname : (tables index).symbolNames.lookup? 1 = some "absolute" :=
    hlookup (by decide : (1, "absolute") ∈ _)
  refine ⟨[⟨⟨0, 0, 0, 0⟩, some ""⟩], [], ?_, ?_⟩
  · rw [← hname, ← hempty]
    rfl
  · intro c hc
    rw [List.mem_singleton.mp hc]
    decide

/-- The symbol is placed in the section at its index, be the index reserved or not. -/
theorem inspectSymbol_image (h : 3 ≤ index) (hlt : index < 0x10000) :
    inspectSymbol (image index) "absolute" =
      .ok ⟨"absolute", 7, 0, (tables index).sectionOf plain⟩ := by
  have htwo : 2 ≤ index := by omega
  have hheader : (tables index).headerOf? ⟨1, index, 7, 0⟩ = some plain := by
    have hget : (sections index)[index]? = some plain := by
      obtain ⟨n, rfl⟩ : ∃ n, index = n + 3 := ⟨index - 3, by omega⟩
      simp [sections]
    have hne : index ≠ 0 := by omega
    rw [Tables.headerOf?, if_neg hne]
    exact hget
  rw [inspectSymbol_of_read (read_image htwo hlt),
    placement_of_symbol? (symbol?_eq_some_iff.mpr first_absolute), hheader, Tables.answer]

end Overnumbered

/-- An absolute symbol is given a section by an image with a section header at its index. -/
theorem absolute_symbol_placed :
    Sectionless absoluteIndex ∧
      Tables.read (Overnumbered.image absoluteIndex) = .ok (Overnumbered.tables absoluteIndex) ∧
      FirstNamed (Overnumbered.tables absoluteIndex).candidates "absolute"
        ⟨1, absoluteIndex, 7, 0⟩ ∧
      inspectSymbol (Overnumbered.image absoluteIndex) "absolute" =
        .ok ⟨"absolute", 7, 0, (Overnumbered.tables absoluteIndex).sectionOf Overnumbered.plain⟩ := by
  refine ⟨Or.inr ⟨by decide, by decide⟩, ?_, Overnumbered.first_absolute, ?_⟩
  · exact Overnumbered.read_image (by decide) (by decide)
  · exact Overnumbered.inspectSymbol_image (by decide) (by decide)

end Freestanding.Image
