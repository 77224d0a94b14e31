import Freestanding.Proofs.Image.Description

/-!
# Reading an encoded image

An encoded image is read part by part: each table stands where the headers say, so each step of the
reading succeeds with what the description says.
-/
namespace Freestanding.Image

theorem Piece.StandsIn.take_drop {p : Piece} {file : List UInt8} (h : p.StandsIn file) :
    (file.drop p.start).take p.bytes.length = p.bytes :=
  (List.prefix_iff_eq_take.mp h).symm

theorem bytesFrom_of_inside {p : Piece} {file : List UInt8} (hin : p.Inside file.length) :
    bytesFrom file p.start = .ok (file.drop p.start) := by
  have hstart := hin.1
  rw [bytesFrom, if_neg (by omega)]

theorem forM_ok {α : Type} {step : α → Except Fault Unit} {l : List α}
    (h : ∀ a ∈ l, step a = .ok ()) : l.forM step = .ok () := by
  induction l with
  | nil => rfl
  | cons a l ih =>
    have hothers := ih fun b hb => h b (List.mem_cons_of_mem a hb)
    rw [List.forM, h a (List.mem_cons_self ..)]
    exact hothers

namespace Description

variable {d : Description} {a : Arrangement} {file : List UInt8}

def headers (d : Description) (a : Arrangement) : List SectionHeader :=
  d.namedSections.map (d.headerOf a)

def entries (d : Description) : List Symbol := d.namedSymbols.map fun s => s.2.entry s.1

def tables (d : Description) (a : Arrangement) : Tables where
  sections := d.headers a
  sectionNames := .ofNames 0 ("" :: d.sections.map (·.name))
  symbols := d.entries
  symbolNames := .ofNames 0 ("" :: d.symbols.map (·.name))
  dynamicSymbols := []
  dynamicNames := .empty

/-! ## What the description gives -/

@[simp] theorem length_namedSections (d : Description) :
    d.namedSections.length = d.sections.length := by
  simp [namedSections]

@[simp] theorem length_namedSymbols (d : Description) :
    d.namedSymbols.length = d.symbols.length := by
  simp [namedSymbols]

theorem map_snd_namedSections (d : Description) : d.namedSections.map Prod.snd = d.sections :=
  List.map_snd_zip (by simp)

theorem map_snd_namedSymbols (d : Description) : d.namedSymbols.map Prod.snd = d.symbols :=
  List.map_snd_zip (by simp)

theorem mem_sections_of_mem_named {s : Nat × SectionDescription} (h : s ∈ d.namedSections) :
    s.2 ∈ d.sections := (List.of_mem_zip h).2

theorem mem_symbols_of_mem_named {s : Nat × SymbolDescription} (h : s ∈ d.namedSymbols) :
    s.2 ∈ d.symbols := (List.of_mem_zip h).2

theorem WellFormed.exists_holding (hd : d.WellFormed) {c : Contents}
    (hc : c ∈ [Contents.symbols, .symbolNames, .sectionNames]) :
    ∃ s ∈ d.sections, s.contents = c := by
  have hcount := hd.tables c hc
  obtain ⟨s, hs, heq⟩ := List.countP_pos_iff.mp (hcount ▸ Nat.one_pos)
  exact ⟨s, hs, beq_iff_eq.mp heq⟩

theorem WellFormed.indexOf_lt (hd : d.WellFormed) {c : Contents}
    (hc : c ∈ [Contents.symbols, .symbolNames, .sectionNames]) :
    d.indexOf c < d.sections.length := by
  obtain ⟨s, hs, heq⟩ := hd.exists_holding hc
  exact List.findIdx_lt_length_of_exists ⟨s, hs, beq_iff_eq.mpr heq⟩

/-- The header at the index of a table is that of a section that holds it. -/
theorem WellFormed.headers_indexOf (hd : d.WellFormed) {c : Contents}
    (hc : c ∈ [Contents.symbols, .symbolNames, .sectionNames]) :
    ∃ s ∈ d.namedSections,
      s.2.contents = c ∧ (d.headers a)[d.indexOf c]? = some (d.headerOf a s) := by
  have hlt := hd.indexOf_lt hc
  have hlt' : d.indexOf c < d.namedSections.length := by simpa using hlt
  have hsnd : d.namedSections[d.indexOf c].2 = d.sections[d.indexOf c] := by
    simp [namedSections]
  refine ⟨d.namedSections[d.indexOf c], List.getElem_mem hlt', ?_, ?_⟩
  · rw [hsnd]
    exact beq_iff_eq.mp (List.findIdx_getElem (w := hlt))
  · rw [headers, List.getElem?_map, List.getElem?_eq_getElem hlt']
    rfl

theorem headerOf_kind (s : Nat × SectionDescription) :
    (d.headerOf a s).kind = s.2.contents.kind := by
  unfold headerOf
  split <;> next h => rw [h]; rfl

theorem headerOf_size (s : Nat × SectionDescription) :
    (d.headerOf a s).size = d.sizeOf s.2.contents := by
  unfold headerOf
  split <;> next h => rw [h]; rfl

theorem headerOf_name (s : Nat × SectionDescription) : (d.headerOf a s).name = s.1 := by
  unfold headerOf
  split <;> rfl

/-- Only the symbol table is of a kind that reading looks into. -/
theorem WellFormed.kind_examined (hd : d.WellFormed) {s : SectionDescription}
    (hs : s ∈ d.sections) (h : s.contents.kind ∈ SectionHeader.examined) :
    s.contents = .symbols := by
  cases hc : s.contents with
  | plain p =>
    have hfits := hd.contents s hs
    rw [hc] at h hfits
    exact absurd h hfits.2
  | symbols => rfl
  | symbolNames => rw [hc] at h; exact absurd h (by decide)
  | sectionNames => rw [hc] at h; exact absurd h (by decide)

theorem headerOf_fits (hd : d.WellFormed) (ha : d.Fits a file) {s : Nat × SectionDescription}
    (hs : s ∈ d.namedSections) : (d.headerOf a s).Fits d.format.wordSize := by
  have hname := ha.names.1 s hs
  have hzero := d.format.wordSize.limit_pos
  have hentry : Symbol.entryBytes d.format.wordSize < d.format.wordSize.limit := by
    cases d.format.wordSize <;> decide
  have hsymbols : SectionHeader.symbols < Bytes.limit 4 := by decide
  have hstrings : SectionHeader.strings < Bytes.limit 4 := by decide
  have hindex := hd.indexOf_lt (c := .symbolNames) (by simp)
  have hlink := Nat.lt_trans hindex (Nat.lt_of_lt_of_le hd.few (by decide : _ ≤ Bytes.limit 4))
  unfold headerOf
  split
  · next p hp =>
    have hfits := hd.contents s.2 (mem_sections_of_mem_named hs)
    rw [hp] at hfits
    exact { hfits.1 with name := hname }
  · have hoffset := ha.offsets ⟨a.symbols, d.symbolBytes⟩ (by simp [pieces])
    exact ⟨hname, hsymbols, hzero, hoffset, ha.sizes d.symbolBytes (by simp), hlink, hentry⟩
  · have hoffset := ha.offsets ⟨a.symbolNames, d.symbolNameBytes⟩ (by simp [pieces])
    exact ⟨hname, hstrings, hzero, hoffset, ha.sizes d.symbolNameBytes (by simp),
      Nat.zero_lt_succ _, hzero⟩
  · have hoffset := ha.offsets ⟨a.sectionNames, d.sectionNameBytes⟩ (by simp [pieces])
    exact ⟨hname, hstrings, hzero, hoffset, ha.sizes d.sectionNameBytes (by simp),
      Nat.zero_lt_succ _, hzero⟩

/-! ## Reading the parts -/

theorem length_encode (ha : d.Fits a file) : (d.encode a file).length = file.length :=
  length_putAll ha.inside

theorem standsIn_encode (ha : d.Fits a file) {p : Piece} (hp : p ∈ d.pieces a) :
    p.StandsIn (d.encode a file) := standsIn_putAll ha.inside ha.apart p hp

theorem inside_encode (ha : d.Fits a file) {p : Piece} (hp : p ∈ d.pieces a) :
    p.Inside (d.encode a file).length := (length_encode ha).symm ▸ ha.inside p hp

theorem fileHeader_fits (hd : d.WellFormed) (ha : d.Fits a file) : (d.fileHeader a).Fits := by
  have hindex := hd.indexOf_lt (c := .sectionNames) (by simp)
  have hfew := hd.few
  have hcount := Nat.lt_of_lt_of_le hfew (by decide : _ ≤ Bytes.limit 2)
  have hoffset := ha.offsets ⟨a.sectionHeaders, d.sectionBytes a⟩ (by simp [pieces])
  exact ⟨hd.machine, d.format.wordSize.limit_pos, hoffset, Nat.zero_lt_succ _, hcount,
    Nat.lt_trans hindex hcount⟩

theorem read_fileHeader (hd : d.WellFormed) (ha : d.Fits a file) :
    FileHeader.read (d.encode a file) = .ok (d.fileHeader a) := by
  have hstands := standsIn_encode ha (p := ⟨0, (d.fileHeader a).write d.unread⟩) (by simp [pieces])
  obtain ⟨rest, hrest⟩ := hstands
  rw [List.drop_zero] at hrest
  rw [← hrest]
  exact FileHeader.read_write (fileHeader_fits hd ha) d.unread rest

theorem read_programHeaders (d : Description) (a : Arrangement) (image : List UInt8) :
    readProgramHeaders (d.fileHeader a) image = .ok [] := by
  simp [readProgramHeaders, fileHeader, pure, Except.pure]

theorem length_sectionBytes (d : Description) (a : Arrangement) :
    (d.sectionBytes a).length = d.sections.length * SectionHeader.entryBytes d.format.wordSize := by
  rw [sectionBytes, length_flatMap_of_length (fun s => SectionHeader.length_write ..),
    length_namedSections]

theorem length_symbolBytes (d : Description) :
    d.symbolBytes.length = d.symbols.length * Symbol.entryBytes d.format.wordSize := by
  rw [symbolBytes, length_flatMap_of_length (fun s => Symbol.length_write ..),
    length_namedSymbols]

/-- The table of section headers is not empty, so it does not begin at the file header. -/
theorem sectionHeaders_ne_zero (hd : d.WellFormed) (ha : d.Fits a file) : a.sectionHeaders ≠ 0 := by
  intro hzero
  have hpair := List.pairwise_cons.mp ha.apart
  have hapart := hpair.1 ⟨a.sectionHeaders, d.sectionBytes a⟩ (by simp)
  have hlen := length_sectionBytes d a
  have hpos : 0 < d.sections.length := by
    have := hd.indexOf_lt (c := .symbols) (by simp)
    omega
  have hentry : 0 < SectionHeader.entryBytes d.format.wordSize := by
    cases d.format.wordSize <;> decide
  have hheader : 0 < FileHeader.bytes (d.fileHeader a).format.wordSize := by
    cases (d.fileHeader a).format.wordSize <;> decide
  have hbytes : 0 < (d.sectionBytes a).length := hlen ▸ Nat.mul_pos hpos hentry
  simp only [Piece.Apart, Piece.ending, hzero, FileHeader.length_write] at hapart
  omega

theorem read_sectionHeaders (hd : d.WellFormed) (ha : d.Fits a file) :
    readSectionHeaders (d.fileHeader a) (d.encode a file) = .ok (d.headers a) := by
  have hmem : (⟨a.sectionHeaders, d.sectionBytes a⟩ : Piece) ∈ d.pieces a := by simp [pieces]
  have hinside := inside_encode ha hmem
  have hbytes := bytesFrom_of_inside hinside
  obtain ⟨rest, hrest⟩ := standsIn_encode ha hmem
  have hcount : ¬ d.sections.length >
      (d.encode a file).length / SectionHeader.entryBytes d.format.wordSize := by
    have hentry : 0 < SectionHeader.entryBytes d.format.wordSize := by
      cases d.format.wordSize <;> decide
    have hend := hinside.2
    simp only [Piece.ending, length_sectionBytes] at hend
    rw [gt_iff_lt, Nat.not_lt, Nat.le_div_iff_mul_le hentry]
    omega
  have hwrite (s : Nat × SectionDescription) (hs : s ∈ d.namedSections) (more : List UInt8) :
      SectionHeader.read d.format
        ((d.headerOf a s).write d.format s.2.unread ++ more) = .ok (d.headerOf a s, more) :=
    SectionHeader.read_write (headerOf_fits hd ha hs) s.2.unread more
  -- the first header is read by itself, because it may hold the number of the others
  cases hnamed : d.namedSections with
  | nil =>
    have hlen := length_namedSections d
    have hfirst := hd.indexOf_lt (c := .symbols) (by simp)
    rw [hnamed, List.length_nil] at hlen
    omega
  | cons first others =>
    rw [hnamed] at hwrite
    have hlen : d.sections.length = others.length + 1 := by
      rw [← length_namedSections, hnamed, List.length_cons]
    have hothers := readMany_flatMap (fun s hs => hwrite s (List.mem_cons_of_mem first hs)) rest
    have htable : (d.encode a file).drop a.sectionHeaders =
        (d.headerOf a first).write d.format first.2.unread ++
          (others.flatMap (fun s => (d.headerOf a s).write d.format s.2.unread) ++ rest) := by
      rw [← hrest, sectionBytes, hnamed, List.flatMap_cons, List.append_assoc]
    rw [htable] at hbytes
    have hread := hwrite first (List.mem_cons_self ..)
      (others.flatMap (fun s => (d.headerOf a s).write d.format s.2.unread) ++ rest)
    rw [hlen] at hcount
    simp only [readSectionHeaders, fileHeader, sectionHeaders_ne_zero hd ha, ↓reduceIte, hbytes,
      bind, Except.bind, hread, hcount, hlen, Nat.add_sub_cancel, Nat.succ_ne_zero, Reader.on,
      hothers, Except.map, headers, hnamed, List.map_cons]
    rfl

theorem read_names (ha : d.Fits a file) {names : List String} {offset : Nat}
    (hp : (⟨offset, nameBytes ("" :: names)⟩ : Piece) ∈ d.pieces a) (hnames : Textual names) :
    StringTable.read (d.encode a file) offset (nameBytes ("" :: names)).length =
      .ok (.ofNames 0 ("" :: names)) := by
  have hinside := inside_encode ha hp
  have hstands := (standsIn_encode ha hp).take_drop
  have hsize : (d.encode a file).length < wordLimit := (length_encode ha).symm ▸ ha.size
  obtain ⟨hstart, hending⟩ := hinside
  simp only [Piece.ending] at hstart hending hstands
  have hempty : Textual ("" :: names) := by
    intro name hname
    rcases List.mem_cons.mp hname with rfl | hname
    · exact fun h => absurd h (by decide)
    · exact hnames name hname
  have hbegins : ¬ offset > (d.encode a file).length := by omega
  have hword : ¬ offset + (nameBytes ("" :: names)).length ≥ wordLimit := by omega
  have hends : ¬ offset + (nameBytes ("" :: names)).length > (d.encode a file).length := by omega
  simp only [StringTable.read, hbegins, hword, hends, ↓reduceIte, hstands,
    StringTable.cut_nameBytes hempty, bind, Except.bind, pure, Except.pure]

theorem ofSection_names (hd : d.WellFormed) (ha : d.Fits a file) {c : Contents}
    (hc : c ∈ [Contents.symbols, .symbolNames, .sectionNames])
    {names : List String} {offset : Nat}
    (hheader : ∀ s : Nat × SectionDescription, s.2.contents = c → d.headerOf a s =
      ⟨s.1, SectionHeader.strings, 0, offset, (nameBytes ("" :: names)).length, 0, 0⟩)
    (hp : (⟨offset, nameBytes ("" :: names)⟩ : Piece) ∈ d.pieces a) (hnames : Textual names) :
    StringTable.ofSection (d.encode a file) (d.headers a) (d.indexOf c) =
      .ok (.ofNames 0 ("" :: names)) := by
  obtain ⟨s, _, hs, hget⟩ := hd.headers_indexOf hc (a := a)
  have hinside := inside_encode ha hp
  have hsize : (d.encode a file).length < wordLimit := (length_encode ha).symm ▸ ha.size
  have hending := hinside.2
  simp only [Piece.ending] at hending
  have hdirect : d.indexOf c ≠ StringTable.indirect := by
    have := hd.indexOf_lt hc
    have := hd.few
    simp only [StringTable.indirect]
    omega
  have hcheck : (d.headerOf a s).check (d.encode a file).length = .ok () := by
    have hword : ¬ offset + (nameBytes ("" :: names)).length ≥ wordLimit := by omega
    have hends : ¬ offset + (nameBytes ("" :: names)).length > (d.encode a file).length := by omega
    have hmemory : ¬ 0 + (nameBytes ("" :: names)).length ≥ wordLimit := by omega
    rw [hheader s hs]
    simp only [SectionHeader.check, hword, hends, hmemory, ↓reduceIte, ite_self]
  have hread := read_names ha hp hnames
  simp only [StringTable.ofSection, hdirect, ↓reduceIte, hget, hcheck, bind, Except.bind]
  rw [hheader s hs]
  exact hread

theorem read_symbolTable (hd : d.WellFormed) (ha : d.Fits a file) :
    Symbol.readTable d.format (d.encode a file) a.symbols d.symbols.length = .ok d.entries := by
  have hmem : (⟨a.symbols, d.symbolBytes⟩ : Piece) ∈ d.pieces a := by simp [pieces]
  obtain ⟨hstart, hending⟩ := inside_encode ha hmem
  obtain ⟨rest, hrest⟩ := standsIn_encode ha hmem
  have hsize : (d.encode a file).length < wordLimit := (length_encode ha).symm ▸ ha.size
  simp only [Piece.ending, length_symbolBytes] at hstart hending
  have hbegins : ¬ a.symbols ≥ (d.encode a file).length := by omega
  have hword : ¬ d.symbols.length * Symbol.entryBytes d.format.wordSize ≥ wordLimit := by omega
  have hends : ¬ d.symbols.length * Symbol.entryBytes d.format.wordSize >
      (d.encode a file).length - a.symbols := by omega
  have hwrite (s : Nat × SymbolDescription) (hs : s ∈ d.namedSymbols) (more : List UInt8) :
      Symbol.read d.format ((s.2.entry s.1).write d.format s.2.unread ++ more) =
        .ok (s.2.entry s.1, more) := by
    have hfits : (s.2.entry s.1).Fits d.format.wordSize :=
      { hd.symbols s.2 (mem_symbols_of_mem_named hs) with name := ha.names.2 s hs }
    exact Symbol.read_write hfits s.2.unread more
  have hread := readMany_flatMap hwrite rest
  simp only at hrest
  rw [length_namedSymbols, ← symbolBytes, hrest] at hread
  simp only [Symbol.readTable, hbegins, hword, hends, ↓reduceIte, Reader.on, hread, Except.map,
    entries]

theorem find_symbols (hd : d.WellFormed) : ∃ s : Nat × SectionDescription,
    s.2.contents = .symbols ∧
      (d.headers a).reverse.find? (·.kind == SectionHeader.symbols) = some (d.headerOf a s) := by
  obtain ⟨t, _, ht, hget⟩ := hd.headers_indexOf (c := .symbols) (by simp) (a := a)
  have hkind : (d.headerOf a t).kind = SectionHeader.symbols := by rw [headerOf_kind, ht]; rfl
  cases hfind : (d.headers a).reverse.find? (·.kind == SectionHeader.symbols) with
  | none =>
    have hnone := List.find?_eq_none.mp hfind (d.headerOf a t)
      (List.mem_reverse.mpr (List.mem_of_getElem? hget))
    exact absurd (beq_iff_eq.mpr hkind) hnone
  | some h =>
    have hmem := List.mem_reverse.mp (List.mem_of_find?_eq_some hfind)
    obtain ⟨s, hs, rfl⟩ := List.mem_map.mp hmem
    have hfound : (d.headerOf a s).kind = SectionHeader.symbols := by
      simpa using List.find?_some hfind
    rw [headerOf_kind] at hfound
    have hexamined : s.2.contents.kind ∈ SectionHeader.examined := hfound ▸ by decide
    exact ⟨s, hd.kind_examined (mem_sections_of_mem_named hs) hexamined, rfl⟩

theorem read_symbols (hd : d.WellFormed) (ha : d.Fits a file) :
    readSymbols d.format (d.encode a file) (d.headers a) =
      .ok (d.entries, .ofNames 0 ("" :: d.symbols.map (·.name))) := by
  obtain ⟨s, hs, hfind⟩ := find_symbols hd (a := a)
  have hentry : 0 < Symbol.entryBytes d.format.wordSize := by cases d.format.wordSize <;> decide
  have hheader : d.headerOf a s = ⟨s.1, SectionHeader.symbols, 0, a.symbols, d.symbolBytes.length,
      d.indexOf .symbolNames, Symbol.entryBytes d.format.wordSize⟩ := by
    simp only [headerOf, hs]
  have hcount : d.symbolBytes.length / Symbol.entryBytes d.format.wordSize = d.symbols.length := by
    rw [length_symbolBytes, Nat.mul_div_cancel _ hentry]
  have hnames := ofSection_names hd ha (c := .symbolNames) (by simp)
    (fun s hs => by simp only [headerOf, hs]; rfl) (by simp [pieces, symbolNameBytes])
    hd.symbolNames
  simp only [readSymbols, hfind, hheader, hcount, read_symbolTable hd ha, hnames, bind, Except.bind]
  rfl

theorem read_dynamicSymbols (d : Description) (a : Arrangement) (image : List UInt8) :
    readDynamicSymbols (d.fileHeader a) image [] = .ok ([], .empty) := rfl

/-- Kinds other than that of the symbol table are not examined. -/
theorem kind_ne_of_examined (hd : d.WellFormed) {h : SectionHeader} (hh : h ∈ d.headers a)
    {kind : Nat} (hkind : kind ∈ SectionHeader.examined) (hne : kind ≠ SectionHeader.symbols) :
    h.kind ≠ kind := by
  obtain ⟨s, hs, rfl⟩ := List.mem_map.mp hh
  rw [headerOf_kind]
  rintro rfl
  rw [hd.kind_examined (mem_sections_of_mem_named hs) hkind] at hne
  exact hne rfl

theorem check_relocations (hd : d.WellFormed) (image : List UInt8) :
    checkRelocations image (d.headers a) = .ok () := by
  refine forM_ok fun h hh => if_neg ?_
  rintro (hk | hk)
  · exact kind_ne_of_examined hd hh (by decide) (by decide) hk
  · exact kind_ne_of_examined hd hh (by decide) (by decide) hk

theorem check_versions (hd : d.WellFormed) (image : List UInt8) :
    checkVersions image (d.headers a) = .ok () := by
  refine forM_ok fun kind hkind => ?_
  have hexamined : kind ∈ SectionHeader.examined := List.mem_append_right _ hkind
  have hne : kind ≠ SectionHeader.symbols := by
    rintro rfl
    exact absurd hkind (by decide)
  have hfind : (d.headers a).find? (·.kind == kind) = none := by
    rw [List.find?_eq_none]
    intro h hh heq
    exact kind_ne_of_examined hd hh hexamined hne (beq_iff_eq.mp heq)
  rw [hfind]

/-- Reading an encoded image gives the tables of its description. -/
theorem read_encode (hd : d.WellFormed) (ha : d.Fits a file) :
    Tables.read (d.encode a file) = .ok (d.tables a) := by
  have hsections := ofSection_names hd ha (c := .sectionNames) (by simp)
    (fun s hs => by simp only [headerOf, hs]; rfl) (by simp [pieces, sectionNameBytes])
    hd.sectionNames
  have hheader : (d.fileHeader a).nameSection = d.indexOf .sectionNames := rfl
  have hformat : (d.fileHeader a).format = d.format := rfl
  simp only [Tables.read, read_fileHeader hd ha, read_programHeaders, read_sectionHeaders hd ha,
    hheader, hformat, hsections, read_symbols hd ha, read_dynamicSymbols, check_relocations hd,
    check_versions hd, bind, Except.bind]
  rfl

end Description

end Freestanding.Image
