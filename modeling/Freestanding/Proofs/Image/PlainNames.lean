import Freestanding.Proofs.Image.Resolution
import Freestanding.Proofs.Json.Text
import Freestanding.Text.Utf8

/-!
# Names read in place

A string table is cut into its texts once, and a name is looked up among them: in the last text that
begins at its offset or before. That comes to the plain reading of the bytes, from the offset to the
next zero byte or to the end of the table. The invariant of the cut is that each text begins behind
the zero byte of the one before it, so that no text begins inside another.
-/
namespace Freestanding.Image

open Freestanding.Json (ok_of_bind)
open Freestanding.Text (length_utf8_pos ofUtf8?_eq_some_iff utf8 utf8_append)

/-- A name stands in bytes at an offset: it holds no zero byte, its bytes are there, and behind them
is a zero byte or nothing. -/
def StandsAt (strings : List UInt8) (offset : Nat) (name : String) : Prop :=
  0 ∉ utf8 name ∧ ∃ rest, strings.drop offset = utf8 name ++ rest ∧ ∀ b ∈ rest.head?, b = 0

/-- A table gives, at every offset, the name that stands there in bytes and no other. The empty name
is left out, since an offset without a text is taken for it. -/
structure StringTable.Plain (table : StringTable) (strings : List UInt8) : Prop where
  stands {offset : Nat} {name : String} : name ≠ "" →
    (table.lookup? offset = some name ↔ StandsAt strings offset name)
  /-- The tail of a name is a name. -/
  tail {offset : Nat} {front name : String} : name ≠ "" → StandsAt strings offset (front ++ name) →
    table.lookup? (offset + (utf8 front).length) = some name
  /-- The front of a name is none. -/
  front {offset : Nat} {front name : String} : name ≠ "" → StandsAt strings offset (front ++ name) →
    table.lookup? offset ≠ some front
  /-- No name goes on beyond the end of the bytes. -/
  beyond {offset : Nat} {name : String} : name ≠ "" →
    strings.length < offset + (utf8 name).length → table.lookup? offset ≠ some name

variable {name text : String} {image bytes : List UInt8} {start offset k : Nat}

/-! ## Reading in place -/

theorem standsAt_iff :
    StandsAt bytes offset name ↔ (bytes.drop offset).takeWhile (· != 0) = utf8 name := by
  constructor
  · rintro ⟨hzero, rest, hdrop, hend⟩
    have htext : ∀ b ∈ utf8 name, (b != 0) = true := by
      intro b hb
      exact bne_iff_ne.mpr fun h0 => hzero (h0 ▸ hb)
    rw [hdrop, List.takeWhile_append_of_pos htext]
    cases rest with
    | nil => simp
    | cons b rest => simp [hend b rfl]
  · intro h
    refine ⟨fun hmem => ?_, (bytes.drop offset).dropWhile (· != 0), ?_, fun b hb => ?_⟩
    · rw [← h] at hmem
      have hne := List.all_eq_true.mp List.all_takeWhile 0 hmem
      simp at hne
    · rw [← h, List.takeWhile_append_dropWhile]
    · have hhead := List.head?_dropWhile_not (fun b : UInt8 => b != 0) (bytes.drop offset)
      rw [Option.mem_def.mp hb] at hhead
      simpa using hhead

instance (strings : List UInt8) (offset : Nat) (name : String) :
    Decidable (StandsAt strings offset name) := decidable_of_iff _ standsAt_iff.symm

/-- A name stands within the bytes; the empty one stands behind them as well. -/
theorem StandsAt.le_length (h : StandsAt bytes offset name) (hne : name ≠ "") :
    offset + (utf8 name).length ≤ bytes.length := by
  obtain ⟨-, rest, hdrop, -⟩ := h
  have hpos := length_utf8_pos hne
  have hlength := congrArg List.length hdrop
  rw [List.length_drop, List.length_append] at hlength
  omega

theorem StandsAt.tail {front : String} (h : StandsAt bytes offset (front ++ name)) :
    StandsAt bytes (offset + (utf8 front).length) name := by
  obtain ⟨hzero, rest, hdrop, hend⟩ := h
  rw [utf8_append] at hzero hdrop
  refine ⟨fun hmem => hzero (List.mem_append_right _ hmem), rest, ?_, hend⟩
  rw [← List.drop_drop, hdrop, List.append_assoc, List.drop_left]

/-- Inside the first text, what stands at an offset is the rest of the text. -/
theorem takeWhile_drop_of_le (h : k ≤ (bytes.takeWhile (· != 0)).length) :
    (bytes.drop k).takeWhile (· != 0) = (bytes.takeWhile (· != 0)).drop k := by
  have hcut : bytes.takeWhile (· != 0) ++ bytes.dropWhile (· != 0) = bytes :=
    List.takeWhile_append_dropWhile
  have htext : ∀ b ∈ (bytes.takeWhile (· != 0)).drop k, (b != 0) = true := by
    intro b hb
    exact List.all_eq_true.mp List.all_takeWhile b (List.mem_of_mem_drop hb)
  have hend : (bytes.dropWhile (· != 0)).takeWhile (· != 0) = [] := by
    cases hrest : bytes.dropWhile (· != 0) with
    | nil => rfl
    | cons b rest =>
      have hhead := List.head?_dropWhile_not (fun b : UInt8 => b != 0) bytes
      rw [hrest, List.head?_cons] at hhead
      exact List.takeWhile_cons_of_neg (by simpa using hhead)
  conv_lhs => rw [← hcut]
  rw [List.drop_append_of_le_length h, List.takeWhile_append_of_pos htext, hend, List.append_nil]

/-! ## The texts of a table -/

namespace StringTable

variable {entries others : List (Nat × String)} {table : StringTable}

theorem tail?_eq_some_iff {skipped : Nat} :
    tail? text skipped = some name ↔
      skipped ≤ (utf8 text).length ∧ (utf8 text).drop skipped = utf8 name := by
  unfold tail?
  dsimp only
  split
  · next hle => rw [ofUtf8?_eq_some_iff, and_iff_right hle]
  · next hle => simp [hle]

/-- What cutting gives where bytes are left: the first text, and what cutting gives behind it. -/
theorem cut_eq_ok (hne : bytes ≠ []) (h : cut start bytes = .ok entries) :
    ∃ text others, utf8 text = bytes.takeWhile (· != 0) ∧
      cut (start + (utf8 text).length + 1) (bytes.drop ((utf8 text).length + 1)) = .ok others ∧
      entries = (start, text) :: others := by
  obtain ⟨b, bs, rfl⟩ := List.exists_cons_of_ne_nil hne
  rw [cut] at h
  split at h
  · cases h
  · next text htext =>
    have hpiece := ofUtf8?_eq_some_iff.mp htext
    obtain ⟨others, hothers, hentries⟩ := ok_of_bind h
    rw [hpiece] at hothers
    exact ⟨text, others, hpiece.symm, hothers, (Except.ok.inj hentries).symm⟩

/-- The first text begins where cutting begins. -/
theorem start_of_cut (h : cut start bytes = .ok entries) : ∀ e ∈ entries.head?, e.1 = start := by
  by_cases hne : bytes = []
  · subst hne
    rw [cut] at h
    obtain rfl := Except.ok.inj h
    intro e he
    cases he
  · obtain ⟨text, others, -, -, rfl⟩ := cut_eq_ok hne h
    rintro _ ⟨⟩
    rfl

/-- Up to where the next text begins, the first text is the one that counts. -/
theorem lookup?_first (hstart : start ≤ offset) (hnext : ∀ e ∈ others.head?, offset < e.1) :
    (StringTable.mk ((start, text) :: others)).lookup? offset = tail? text (offset - start) := by
  have hothers : others.takeWhile (·.1 ≤ offset) = [] := by
    cases others with
    | nil => rfl
    | cons e more => exact List.takeWhile_cons_of_neg (by simpa using hnext e rfl)
  rw [lookup?, List.takeWhile_cons_of_pos (by simpa using hstart), hothers]
  rfl

/-- From where the next text begins, the first text does not count. -/
theorem lookup?_later {e : Nat × String} (hstart : start ≤ offset) (hnext : e.1 ≤ offset) :
    (StringTable.mk ((start, text) :: e :: others)).lookup? offset =
      (StringTable.mk (e :: others)).lookup? offset := by
  have hentries : (e :: others).takeWhile (·.1 ≤ offset) =
      e :: others.takeWhile (·.1 ≤ offset) := List.takeWhile_cons_of_pos (by simpa using hnext)
  rw [lookup?, List.takeWhile_cons_of_pos (by simpa using hstart), lookup?, hentries,
    List.getLast?_cons_cons]

/-- The induction is on the bytes, a text at a time. An offset up to the end of the first text lies in
that text, because no other begins there; any offset behind it is looked up among the others. -/
theorem lookup?_of_cut (hname : name ≠ "") (h : cut start bytes = .ok entries) :
    (StringTable.mk entries).lookup? (start + k) = some name ↔ StandsAt bytes k name := by
  induction hlength : bytes.length using Nat.strong_induction_on
    generalizing start bytes entries k with
  | _ length ih =>
    by_cases hne : bytes = []
    · subst hne
      rw [cut] at h
      obtain rfl := Except.ok.inj h
      constructor
      · intro hfound
        cases hfound
      · intro hstands
        have hle := hstands.le_length hname
        have hpos := length_utf8_pos hname
        rw [List.length_nil] at hle
        omega
    obtain ⟨text, others, htext, hothers, rfl⟩ := cut_eq_ok hne h
    have hpos : 0 < bytes.length := List.length_pos_iff.mpr hne
    have hnext := start_of_cut hothers
    by_cases hinside : k ≤ (utf8 text).length
    · rw [lookup?_first (by omega) (fun e he => by rw [hnext e he]; omega), Nat.add_sub_cancel_left,
        tail?_eq_some_iff, and_iff_right hinside, standsAt_iff,
        takeWhile_drop_of_le (htext ▸ hinside), htext]
    · obtain ⟨j, rfl⟩ := Nat.exists_eq_add_of_lt (Nat.not_le.mp hinside)
      have hplace : start + ((utf8 text).length + j + 1) = start + (utf8 text).length + 1 + j := by
        omega
      have hrest : StandsAt bytes ((utf8 text).length + j + 1) name ↔
          StandsAt (bytes.drop ((utf8 text).length + 1)) j name := by
        rw [standsAt_iff, standsAt_iff, List.drop_drop, Nat.add_right_comm]
      have hlater := ih _ (by rw [List.length_drop]; omega) hothers rfl (k := j)
      rw [hplace, hrest, ← hlater]
      cases others with
      | nil =>
        rw [lookup?_first (by omega) (by simp), tail?_eq_some_iff]
        constructor
        · intro hfound
          omega
        · intro hfound
          cases hfound
      | cons e more =>
        have hbegins : e.1 = start + (utf8 text).length + 1 := hnext e rfl
        rw [lookup?_later (by omega) (by omega)]

theorem Plain.of_stands (h : ∀ {offset : Nat} {name : String}, name ≠ "" →
    (table.lookup? offset = some name ↔ StandsAt bytes offset name)) : table.Plain bytes where
  stands := h
  tail hname hstands := (h hname).mpr hstands.tail
  front {offset front name} hname hstands hfront := by
    have hwhole : front ++ name ≠ "" := fun hempty => hname (String.append_eq_empty_iff.mp hempty).2
    have hsame := ((h hwhole).mpr hstands).symm.trans hfront
    have hlength := congrArg (fun s => (utf8 s).length) (Option.some.inj hsame)
    have hpos := length_utf8_pos hname
    rw [utf8_append, List.length_append] at hlength
    omega
  beyond hname hlength hfound := by
    have hle := ((h hname).mp hfound).le_length hname
    omega

theorem plain_of_cut (h : cut 0 bytes = .ok entries) : (StringTable.mk entries).Plain bytes := by
  refine .of_stands fun {offset name} hname => ?_
  rw [← lookup?_of_cut hname h, Nat.zero_add]

theorem plain_empty : empty.Plain [] := plain_of_cut (by rw [cut])

theorem Plain.getD_eq_iff {strings : List UInt8} (h : table.Plain strings) (hname : name ≠ "") :
    (table.lookup? offset).getD "" = name ↔ StandsAt strings offset name := by
  rw [← h.stands hname]
  cases table.lookup? offset with
  | none => simpa using Ne.symm hname
  | some text => simp

theorem plain_of_read {size : Nat} (h : read image offset size = .ok table) :
    table.Plain ((image.drop offset).take size) := by
  unfold read at h
  dsimp only at h
  split at h
  · cases h
  split at h
  · cases h
  split at h
  · cases h
  obtain ⟨entries, hentries, htable⟩ := ok_of_bind h
  obtain rfl := Except.ok.inj htable
  exact plain_of_cut hentries

end StringTable

/-! ## The string tables of an image -/

/-- The bytes that a section takes up by its header. -/
def SectionHeader.contents (s : SectionHeader) (image : List UInt8) : List UInt8 :=
  (image.drop s.offset).take s.size

/-- The strings of the section that an index links to, if there is such a section. -/
def linkedStrings (image : List UInt8) (sections : List SectionHeader) (index : Nat) :
    List UInt8 :=
  let found :=
    if index = StringTable.indirect then sections.head?.bind fun first => sections[first.link]?
    else sections[index]?
  found.elim [] (·.contents image)

/-- The strings that the last symbol table links to. -/
def symbolStrings (image : List UInt8) (sections : List SectionHeader) : List UInt8 :=
  (sections.reverse.find? (·.kind == SectionHeader.symbols)).elim []
    fun s => linkedStrings image sections s.link

/-- The strings that the dynamic segment gives by their address and their size. -/
def dynamicStrings (f : Format) (image : List UInt8) (segments : List ProgramHeader) :
    List UInt8 :=
  match readDynamic? f image segments with
  | .ok (some entries) =>
    let address := DynamicEntry.last? entries DynamicEntry.strings
    let size := (DynamicEntry.last? entries DynamicEntry.stringsSize).getD 0
    (image.drop ((address.bind (fileOffset? segments)).getD 0)).take size
  | _ => []

/-- The bytes of the three string tables of an image. -/
structure Strings where
  sectionNames : List UInt8
  symbolNames : List UInt8
  dynamicNames : List UInt8

def Strings.read (image : List UInt8) : Except Fault Strings := do
  let header ← FileHeader.read image
  let segments ← readProgramHeaders header image
  let sections ← readSectionHeaders header image
  return ⟨linkedStrings image sections header.nameSection, symbolStrings image sections,
    dynamicStrings header.format image segments⟩

/-- Each table of names gives the names that stand in its bytes. -/
structure Tables.NamedBy (tables : Tables) (strings : Strings) : Prop where
  sectionNames : tables.sectionNames.Plain strings.sectionNames
  symbolNames : tables.symbolNames.Plain strings.symbolNames
  dynamicNames : tables.dynamicNames.Plain strings.dynamicNames

variable {sections : List SectionHeader} {segments : List ProgramHeader} {symbols : List Symbol}
  {names : StringTable} {f : Format}

theorem plain_of_section {index : Nat} (h : StringTable.ofSection image sections index = .ok names) :
    names.Plain (linkedStrings image sections index) := by
  unfold StringTable.ofSection at h
  unfold linkedStrings
  dsimp only at h ⊢
  split at h
  · next hnone =>
    rw [hnone]
    exact Except.ok.inj h ▸ StringTable.plain_empty
  · next s hsome =>
    rw [hsome]
    obtain ⟨_, -, hread⟩ := ok_of_bind h
    exact StringTable.plain_of_read hread

theorem plain_of_readSymbols (h : readSymbols f image sections = .ok (symbols, names)) :
    names.Plain (symbolStrings image sections) := by
  unfold readSymbols at h
  unfold symbolStrings
  split at h
  · next hnone =>
    rw [hnone]
    exact (Prod.mk.inj (Except.ok.inj h)).2 ▸ StringTable.plain_empty
  · next s hsome =>
    rw [hsome]
    obtain ⟨_, -, h⟩ := ok_of_bind h
    obtain ⟨table, htable, h⟩ := ok_of_bind h
    exact (Prod.mk.inj (Except.ok.inj h)).2 ▸ plain_of_section htable

theorem plain_of_readDynamicSymbols {header : FileHeader}
    (h : readDynamicSymbols header image segments = .ok (symbols, names)) :
    names.Plain (dynamicStrings header.format image segments) := by
  obtain ⟨found, hfound, h⟩ := ok_of_bind h
  unfold dynamicStrings
  rw [hfound]
  cases found with
  | none => exact (Prod.mk.inj (Except.ok.inj h)).2 ▸ StringTable.plain_empty
  | some entries =>
    obtain ⟨table, htable, h⟩ := ok_of_bind h
    obtain ⟨_, -, h⟩ := ok_of_bind h
    obtain ⟨_, -, h⟩ := ok_of_bind h
    obtain ⟨_, -, h⟩ := ok_of_bind h
    -- the three ways of counting the symbols leave the names alone
    have hnames : table = names := by
      dsimp only at h
      split at h <;>
        · obtain ⟨_, -, h⟩ := ok_of_bind h
          obtain ⟨_, -, h⟩ := ok_of_bind h
          exact (Prod.mk.inj (Except.ok.inj h)).2
    exact hnames ▸ StringTable.plain_of_read htable

variable {tables : Tables}

theorem namedBy_of_read (h : Tables.read image = .ok tables) :
    ∃ strings, Strings.read image = .ok strings ∧ tables.NamedBy strings := by
  obtain ⟨header, hheader, h⟩ := ok_of_bind h
  obtain ⟨segments, hsegments, h⟩ := ok_of_bind h
  obtain ⟨sections, hsections, h⟩ := ok_of_bind h
  obtain ⟨sectionNames, hsectionNames, h⟩ := ok_of_bind h
  obtain ⟨⟨symbols, symbolNames⟩, hsymbols, h⟩ := ok_of_bind h
  obtain ⟨⟨dynamicSymbols, dynamicNames⟩, hdynamic, h⟩ := ok_of_bind h
  obtain ⟨_, -, h⟩ := ok_of_bind h
  obtain ⟨_, -, h⟩ := ok_of_bind h
  obtain rfl := Except.ok.inj h
  refine ⟨⟨linkedStrings image sections header.nameSection, symbolStrings image sections,
    dynamicStrings header.format image segments⟩, ?_, plain_of_section hsectionNames,
    plain_of_readSymbols hsymbols, plain_of_readDynamicSymbols hdynamic⟩
  simp only [Strings.read, hheader, hsegments, hsections, bind, Except.bind, pure, Except.pure]

/-- The first entry of a table at whose offset a name stands. -/
def firstStanding? (symbols : List Symbol) (strings : List UInt8) (name : String) :
    Option Symbol := symbols.find? fun s => StandsAt strings s.name name

theorem findSymbol?_eq {strings : List UInt8} (h : names.Plain strings) (hname : name ≠ "")
    (symbols : List Symbol) :
    findSymbol? symbols names name = firstStanding? symbols strings name := by
  unfold findSymbol? firstStanding?
  congr 1
  funext s
  rw [Bool.eq_iff_iff, beq_iff_eq, decide_eq_true_iff]
  exact h.stands hname

/-- The symbol of a name, found by reading the names in place. -/
theorem symbol?_eq_firstStanding {strings : Strings} (h : tables.NamedBy strings)
    (hname : name ≠ "") :
    tables.symbol? name = (firstStanding? tables.symbols strings.symbolNames name).or
      (firstStanding? tables.dynamicSymbols strings.dynamicNames name) := by
  rw [Tables.symbol?, findSymbol?_eq h.symbolNames hname, findSymbol?_eq h.dynamicNames hname]

/-- Names are read in place. In each of the three string tables of an image that can be read, an
offset names a text exactly when the text stands there, ended by a zero byte or by the end of the
table; so an inspection answers for the first entry at whose offset the name stands, and a section
has the name that stands at its own offset, or none. -/
theorem inspectSymbol_plain (hread : Tables.read image = .ok tables) :
    ∃ strings, Strings.read image = .ok strings ∧ tables.NamedBy strings ∧
      (∀ name, name ≠ "" → inspectSymbol image name =
        match (firstStanding? tables.symbols strings.symbolNames name).or
            (firstStanding? tables.dynamicSymbols strings.dynamicNames name) with
        | none => .error (.symbolNotFound name)
        | some s => tables.answer name s (tables.headerOf? s)) ∧
      ∀ header name, name ≠ "" →
        ((tables.sectionOf header).name = name ↔
          StandsAt strings.sectionNames header.name name) := by
  obtain ⟨strings, hstrings, hnamed⟩ := namedBy_of_read hread
  refine ⟨strings, hstrings, hnamed, fun name hname => ?_, fun header name hname => ?_⟩
  · rw [inspectSymbol_of_read hread, ← symbol?_eq_firstStanding hnamed hname]
    cases hsymbol : tables.symbol? name with
    | none => rw [Tables.placement, hsymbol]
    | some s => exact placement_of_symbol? hsymbol
  · exact hnamed.sectionNames.getD_eq_iff hname

open Description (small smallArrangement) in
/-- A name stands at the offset of its entry, its tail stands behind, and its front stands nowhere
there. -/
theorem inspectSymbol_plain_small :
    Tables.read (small.encode smallArrangement (List.replicate 512 0)) =
        .ok (small.tables smallArrangement) ∧
      ∃ strings, Strings.read (small.encode smallArrangement (List.replicate 512 0)) =
          .ok strings ∧
        StandsAt strings.symbolNames 2 "region" ∧ StandsAt strings.symbolNames 5 "ion" ∧
        ¬ StandsAt strings.symbolNames 2 "reg" ∧ StandsAt strings.sectionNames 3 "bss" := by
  have hread := Description.read_encode Description.small_wellFormed Description.small_fits
  obtain ⟨strings, hstrings, hnamed, -⟩ := inspectSymbol_plain hread
  refine ⟨hread, strings, hstrings, ?_, ?_, ?_, ?_⟩
  · exact (hnamed.symbolNames.stands (by decide)).mp (by decide)
  · exact (hnamed.symbolNames.stands (by decide)).mp (by decide)
  · exact fun h => absurd ((hnamed.symbolNames.stands (by decide)).mpr h) (by decide)
  · exact (hnamed.sectionNames.stands (by decide)).mp (by decide)

end Freestanding.Image
