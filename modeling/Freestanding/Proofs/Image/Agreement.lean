import Freestanding.Proofs.Image.Resolution
import Mathlib.Data.List.Forall2

/-!
# Two views of one image

An image is asked for the place of one symbol, or for all sections that are filled with zeros. Both
answers come from one reading of the image, so they fail together and for one reason. Where the
image can be read, the section of a symbol is told of its header in the same words as the sections
of the list are, so it is in the list exactly when the symbol's bytes are not stored in the file.
-/
namespace Freestanding.Image

variable {tables : Tables} {bytes : List UInt8} {name : String} {p : Placement}

/-! ## Sections in the list -/

/-- Filtering the sections is filtering their headers. -/
theorem zeroFillSections_eq_map (tables : Tables) :
    tables.zeroFillSections = (tables.sections.filter (·.kind == 8)).map tables.sectionOf := by
  have hsame : ∀ header ∈ tables.sections,
      ((tables.sectionOf header).storage == .zeroFill) = (header.kind == 8) := by
    intro header _
    rw [Bool.eq_iff_iff, beq_iff_eq, beq_iff_eq]
    exact storage_ofKind_iff
  rw [Tables.zeroFillSections, List.filter_map]
  exact congrArg _ (List.filter_congr hsame)

/-- One section stands in the list for each header without contents, in the order of the headers. -/
theorem tells_zeroFillSections (tables : Tables) :
    List.Forall₂ (fun s header => tables.Tells header s ∧ s.fileSize = 0) tables.zeroFillSections
      (tables.sections.filter (·.kind == 8)) := by
  rw [zeroFillSections_eq_map, List.forall₂_map_left_iff, List.forall₂_same]
  intro header hheader
  have hkind : header.kind = 8 := by simpa using (List.mem_filter.mp hheader).2
  have htells := tells_sectionOf tables header
  refine ⟨htells, ?_⟩
  rw [htells.fileSize, if_pos (htells.zeroFill.mpr hkind)]

/-- The section of a header is in the list exactly when it is filled with zeros. -/
theorem sectionOf_mem_zeroFillSections {header : SectionHeader} (h : header ∈ tables.sections) :
    tables.sectionOf header ∈ tables.zeroFillSections ↔
      (tables.sectionOf header).storage = .zeroFill := by
  rw [Tables.zeroFillSections, List.mem_filter, beq_iff_eq, and_iff_right]
  exact List.mem_map_of_mem h

theorem isStored_eq_false_iff : p.isStored = false ↔ p.home.storage = .zeroFill := by
  unfold Placement.isStored
  cases p.home.storage with
  | zeroFill => simp
  | stored => simp

/-! ## Answers -/

theorem headerOf?_eq_some_iff {s : Symbol} {header : SectionHeader} :
    tables.headerOf? s = some header ↔
      s.sectionIndex ≠ 0 ∧ tables.sections[s.sectionIndex]? = some header := by
  unfold Tables.headerOf?
  split
  · next h => simp [h]
  · next h => simp [h]

/-- A name is not found, or its first candidate has no section, or that candidate is placed in the
section at its index. -/
theorem placement_cases (tables : Tables) (name : String) :
    tables.placement name = .error (.symbolNotFound name) ∨
      tables.placement name = .error (.noSection name) ∨
      ∃ s header, FirstNamed tables.candidates name s ∧ s.sectionIndex ≠ 0 ∧
        tables.sections[s.sectionIndex]? = some header ∧
        tables.placement name = .ok ⟨name, s.value, s.size, tables.sectionOf header⟩ := by
  cases hsymbol : tables.symbol? name with
  | none => exact .inl (placement_eq_notFound_iff.mpr hsymbol)
  | some s =>
    have hplacement := placement_of_symbol? hsymbol
    cases hheader : tables.headerOf? s with
    | none => exact .inr (.inl ((placement_eq_noSection_iff hsymbol).mpr hheader))
    | some header =>
      rw [hheader] at hplacement
      obtain ⟨hindex, hget⟩ := headerOf?_eq_some_iff.mp hheader
      exact .inr (.inr ⟨s, header, symbol?_eq_some_iff.mp hsymbol, hindex, hget, hplacement⟩)

theorem exists_of_placement (h : tables.placement name = .ok p) :
    ∃ s header, FirstNamed tables.candidates name s ∧ s.sectionIndex ≠ 0 ∧
      tables.sections[s.sectionIndex]? = some header ∧
      p = ⟨name, s.value, s.size, tables.sectionOf header⟩ := by
  rcases placement_cases tables name with hnone | hnone | hplaced
  · rw [hnone] at h
    cases h
  · rw [hnone] at h
    cases h
  · obtain ⟨s, header, hfirst, hindex, hget, hplacement⟩ := hplaced
    rw [hplacement] at h
    exact ⟨s, header, hfirst, hindex, hget, (Except.ok.inj h).symm⟩

theorem placement_ne_malformed (fault : Fault) :
    tables.placement name ≠ .error (.malformed fault) := by
  intro h
  rcases placement_cases tables name with hnone | hnone | ⟨s, header, _, _, _, hplacement⟩
  · rw [hnone] at h
    cases h
  · rw [hnone] at h
    cases h
  · rw [hplacement] at h
    cases h

theorem zeroFillSections_of_read (hread : Tables.read bytes = .ok tables) :
    zeroFillSections bytes = .ok tables.zeroFillSections := by
  rw [zeroFillSections, readTables, hread]
  rfl

theorem zeroFillSections_of_fault {fault : Fault} (hread : Tables.read bytes = .error fault) :
    zeroFillSections bytes = .error (.malformed fault) := by
  rw [zeroFillSections, readTables, hread]
  rfl

theorem inspectSymbol_of_fault {fault : Fault} (hread : Tables.read bytes = .error fault)
    (name : String) : inspectSymbol bytes name = .error (.malformed fault) := by
  rw [inspectSymbol, readTables, hread]
  rfl

theorem zeroFillSections_eq_error_iff {e : InspectError} :
    zeroFillSections bytes = .error e ↔
      (∃ fault, e = .malformed fault) ∧ inspectSymbol bytes name = .error e := by
  cases hread : Tables.read bytes with
  | error fault =>
    rw [zeroFillSections_of_fault hread, inspectSymbol_of_fault hread]
    constructor
    · intro h
      obtain rfl := Except.error.inj h
      exact ⟨⟨fault, rfl⟩, rfl⟩
    · intro h
      rw [Except.error.inj h.2]
  | ok tables =>
    rw [zeroFillSections_of_read hread, inspectSymbol_of_read hread]
    constructor
    · intro h
      cases h
    · intro h
      obtain ⟨⟨fault, he⟩, hplacement⟩ := h
      rw [he] at hplacement
      exact absurd hplacement (placement_ne_malformed fault)

/-- The two views agree. They fail together, with the same fault, when the image cannot be read.
Otherwise the list holds one section for each header without contents, in the order of the headers;
and a symbol that has a place has its section in the list exactly when its bytes are not stored, the
section being told of the header at the index of the first symbol of that name. -/
theorem inspections_agree (bytes : List UInt8) :
    (∀ name e, zeroFillSections bytes = .error e ↔
      (∃ fault, e = .malformed fault) ∧ inspectSymbol bytes name = .error e) ∧
    ∀ tables, Tables.read bytes = .ok tables → ∃ sections,
      zeroFillSections bytes = .ok sections ∧
      List.Forall₂ (fun s header => tables.Tells header s ∧ s.fileSize = 0) sections
        (tables.sections.filter (·.kind == 8)) ∧
      ∀ name p, inspectSymbol bytes name = .ok p → ∃ s header,
        FirstNamed tables.candidates name s ∧ s.sectionIndex ≠ 0 ∧
          tables.sections[s.sectionIndex]? = some header ∧ tables.Tells header p.home ∧
          (p.home ∈ sections ↔ p.isStored = false) := by
  refine ⟨fun name e => zeroFillSections_eq_error_iff, fun tables hread => ?_⟩
  refine ⟨_, zeroFillSections_of_read hread, tells_zeroFillSections tables, fun name p hp => ?_⟩
  rw [inspectSymbol_of_read hread] at hp
  obtain ⟨s, header, hfirst, hindex, hheader, rfl⟩ := exists_of_placement hp
  have hmem := List.mem_of_getElem? hheader
  refine ⟨s, header, hfirst, hindex, hheader, tells_sectionOf tables header, ?_⟩
  rw [isStored_eq_false_iff]
  exact sectionOf_mem_zeroFillSections hmem

end Freestanding.Image
