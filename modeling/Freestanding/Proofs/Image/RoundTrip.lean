import Freestanding.Proofs.Image.Encoded
import Mathlib.Data.List.Find

/-!
# Inspecting an encoded image

What an inspection answers of an encoded image is what the description says.
-/
namespace Freestanding.Image.Description

variable {d : Description} {a : Arrangement} {file : List UInt8}

theorem lookup?_of_mem_zip {names : List String} {offset : Nat} {name : String}
    (h : (offset, name) ∈ (offsetsFrom 1 names).zip names) :
    (StringTable.ofNames 0 ("" :: names)).lookup? offset = some name := by
  have hentry : (offset, name) ∈ (StringTable.ofNames 0 ("" :: names)).entries :=
    List.mem_cons_of_mem _ h
  exact StringTable.lookup?_ofNames hentry

theorem lookup?_symbol {s : Nat × SymbolDescription} (hs : s ∈ d.namedSymbols) :
    (d.tables a).symbolNames.lookup? s.1 = some s.2.name := by
  apply lookup?_of_mem_zip
  rw [List.zip_map_right]
  exact List.mem_map.mpr ⟨s, hs, rfl⟩

theorem lookup?_section {s : Nat × SectionDescription} (hs : s ∈ d.namedSections) :
    (d.tables a).sectionNames.lookup? s.1 = some s.2.name := by
  apply lookup?_of_mem_zip
  rw [List.zip_map_right]
  exact List.mem_map.mpr ⟨s, hs, rfl⟩

theorem sectionOf_headerOf {s : Nat × SectionDescription} (hs : s ∈ d.namedSections) :
    (d.tables a).sectionOf (d.headerOf a s) = d.report s.2 := by
  simp only [Tables.sectionOf, report, headerOf_name, headerOf_kind, headerOf_size,
    lookup?_section hs, Option.getD_some, Storage.ofKind]

theorem zeroFillSections_tables (d : Description) (a : Arrangement) :
    (d.tables a).zeroFillSections = d.zeroFill := by
  have hreports : (d.headers a).map (d.tables a).sectionOf = d.sections.map d.report := by
    rw [← map_snd_namedSections d, List.map_map, headers, List.map_map]
    exact List.map_congr_left fun s hs => sectionOf_headerOf hs
  have hstorage (s : SectionDescription) :
      ((d.report s).storage == .zeroFill) = (s.contents.kind == SectionHeader.noBits) := by
    rw [Bool.eq_iff_iff, beq_iff_eq, beq_iff_eq, report]
    split <;> simp [*]
  have htables : (d.tables a).sections = d.headers a := rfl
  rw [Tables.zeroFillSections, htables, hreports, zeroFill, List.filter_map]
  congr 1
  exact List.filter_congr fun s _ => hstorage s

/-- The symbol found for a name is the first one described with it. -/
theorem symbol?_tables (d : Description) (a : Arrangement) (name : String) :
    (d.tables a).symbol? name =
      (d.namedSymbols.find? fun s => s.2.name == name).map fun s => s.2.entry s.1 := by
  have hname : ∀ s ∈ d.namedSymbols,
      ((d.tables a).symbolNames.lookup? (s.2.entry s.1).name == some name) =
        (s.2.name == name) := by
    intro s hs
    have hlookup : (d.tables a).symbolNames.lookup? (s.2.entry s.1).name = some s.2.name :=
      lookup?_symbol hs
    rw [hlookup, Option.some_beq_some]
  have hstatic : findSymbol? (d.tables a).symbols (d.tables a).symbolNames name =
      (d.namedSymbols.find? fun s => s.2.name == name).map fun s => s.2.entry s.1 := by
    have hsymbols : (d.tables a).symbols = d.namedSymbols.map fun s => s.2.entry s.1 := rfl
    rw [findSymbol?, hsymbols, List.find?_map]
    exact congrArg _ (List.find?_congr hname)
  have hdynamic :
      findSymbol? (d.tables a).dynamicSymbols (d.tables a).dynamicNames name = none := rfl
  rw [Tables.symbol?, hstatic, hdynamic, Option.or_none]

theorem placement_tables (d : Description) (a : Arrangement) (name : String) :
    (d.tables a).placement name = d.placement name := by
  have hfirst : d.symbols.find? (·.name == name) =
      (d.namedSymbols.find? fun s => s.2.name == name).map Prod.snd := by
    rw [← map_snd_namedSymbols d, List.find?_map]
    rfl
  rw [Tables.placement, symbol?_tables, placement, hfirst]
  cases d.namedSymbols.find? (fun s => s.2.name == name) with
  | none => rfl
  | some s =>
    obtain ⟨offset, s⟩ := s
    have hheader : (d.tables a).sections[s.sectionIndex]? =
        d.namedSections[s.sectionIndex]?.map (d.headerOf a) := List.getElem?_map ..
    have hsection : d.sections[s.sectionIndex]? =
        d.namedSections[s.sectionIndex]?.map Prod.snd := by
      rw [← map_snd_namedSections d, List.getElem?_map]
    simp only [Option.map_some, Tables.headerOf?, SymbolDescription.entry, hheader, hsection]
    by_cases hzero : s.sectionIndex = 0
    · simp only [hzero, ↓reduceIte]
    · simp only [hzero, ↓reduceIte]
      cases hget : d.namedSections[s.sectionIndex]? with
      | none => rfl
      | some home =>
        have hreport := sectionOf_headerOf (a := a) (List.mem_of_getElem? hget)
        simp only [Option.map_some, hreport]

/-- Encoding and inspecting are inverse: of an image that was encoded, in any arrangement and into
any file, the sections filled with zeros and the placement of every symbol are those described. -/
theorem inspect_encode (d : Description) (a : Arrangement) (file : List UInt8) (hd : d.WellFormed)
    (ha : d.Fits a file) :
    zeroFillSections (d.encode a file) = .ok d.zeroFill ∧
      (∀ name, inspectSymbol (d.encode a file) name = d.placement name) ∧
      ∀ s ∈ d.sections, (d.report s).fileSize =
        if s.contents.kind = SectionHeader.noBits then 0 else d.sizeOf s.contents := by
  have hread : readTables (d.encode a file) = .ok (d.tables a) := by
    rw [readTables, read_encode hd ha]
    rfl
  refine ⟨?_, fun name => ?_, fun s _ => ?_⟩
  · rw [zeroFillSections, hread, Except.map, zeroFillSections_tables]
  · rw [inspectSymbol, hread]
    exact placement_tables d a name
  · unfold Section.fileSize report
    split <;> simp_all

/-- A wide image in which the first of two symbols of one name lives in a section of zeros. -/
def small : Description where
  format := ⟨.bits64, .littleEndian⟩
  machine := 62
  sections := [
    ⟨"", .plain ⟨0, 0, 0, 0, 0, 0⟩, ⟨0, 0, 0⟩⟩,
    ⟨".bss", .plain ⟨8, 0x4000, 0, 128, 0, 0⟩, ⟨3, 0, 8⟩⟩,
    ⟨".symtab", .symbols, ⟨0, 1, 8⟩⟩,
    ⟨".strtab", .symbolNames, ⟨0, 0, 1⟩⟩,
    ⟨".shstrtab", .sectionNames, ⟨0, 0, 1⟩⟩]
  symbols := [
    ⟨"", 0, 0, 0, ⟨0, 0⟩⟩,
    ⟨"region", 1, 0x4000, 128, ⟨17, 0⟩⟩,
    ⟨"region", 0, 7, 9, ⟨17, 0⟩⟩]
  unread := ⟨2, 1, 0x1000, 0⟩

/-- The tables of `small` in a file of 512 bytes, with the section headers last. -/
def smallArrangement : Arrangement := ⟨192, 64, 136, 152⟩

theorem small_wellFormed : small.WellFormed where
  machine := by decide
  few := by decide
  tables := by decide
  sectionNames := by decide
  symbolNames := by decide
  contents := by decide
  symbols := by decide

theorem small_fits : small.Fits smallArrangement (List.replicate 512 0) where
  size := by rw [List.length_replicate]; decide
  inside := by rw [List.length_replicate]; decide +kernel
  apart := by decide +kernel
  offsets := by decide
  sizes := by decide
  names := by decide

theorem inspect_encode_small :
    small.WellFormed ∧ small.Fits smallArrangement (List.replicate 512 0) ∧
      zeroFillSections (small.encode smallArrangement (List.replicate 512 0)) =
        .ok [⟨".bss", .zeroFill, 128⟩] ∧
      inspectSymbol (small.encode smallArrangement (List.replicate 512 0)) "region" =
        .ok ⟨"region", 0x4000, 128, ⟨".bss", .zeroFill, 128⟩⟩ := by
  obtain ⟨hzero, hplacement, _⟩ := inspect_encode small smallArrangement (List.replicate 512 0)
    small_wellFormed small_fits
  have hdescribed : small.zeroFill = [⟨".bss", .zeroFill, 128⟩] := by decide
  have hregion : small.placement "region" =
      .ok ⟨"region", 0x4000, 128, ⟨".bss", .zeroFill, 128⟩⟩ := by rfl
  exact ⟨small_wellFormed, small_fits, hzero.trans (congrArg _ hdescribed),
    (hplacement "region").trans hregion⟩

end Freestanding.Image.Description
