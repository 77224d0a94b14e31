import Freestanding.Inspector.Command
import Freestanding.Proofs.Image.Resolution

/-!
# The contract of the inspection command

The exit status of a run tells three cases apart, and nothing else ends a run: there is nothing to
say of the symbol, it lives in memory only, or its section is stored in the file. What is written goes
with the case. All this is so whatever the files hold and however their reading fails.
-/
namespace Freestanding.Inspector

open Freestanding.Files (FileError)
open Freestanding.Image

/-! ## The three cases -/

/-- Arguments ask for a symbol of the file at a path; without a name, for the reserved region. -/
inductive Asks : List String → String → String → Prop
  | region (path : String) : Asks [path] path "RESERVED_REGION"
  | symbol (path symbol : String) : Asks [path, symbol] path symbol

/-- In an image, the first candidate of a name belongs to a section, and so has a place. -/
inductive Resolves (bytes : List UInt8) (name : String) : Placement → SectionHeader → Prop
  | mk {tables : Tables} {s : Symbol} {header : SectionHeader} {home : Section} :
      Tables.read bytes = .ok tables → FirstNamed tables.candidates name s → s.sectionIndex ≠ 0 →
      tables.sections[s.sectionIndex]? = some header → tables.Tells header home →
      Resolves bytes name ⟨name, s.value, s.size, home⟩ header

/-- The bytes are no image, or no candidate has the name, or the first that has it belongs to no
section. -/
inductive Unresolved (bytes : List UInt8) (name : String) : Prop
  | malformed {fault : Fault} : Tables.read bytes = .error fault → Unresolved bytes name
  | absent {tables : Tables} : Tables.read bytes = .ok tables →
      (∀ c ∈ tables.candidates, c.name? ≠ some name) → Unresolved bytes name
  | sectionless {tables : Tables} {s : Symbol} : Tables.read bytes = .ok tables →
      FirstNamed tables.candidates name s →
      s.sectionIndex = 0 ∨ tables.sections.length ≤ s.sectionIndex → Unresolved bytes name

/-- The symbol that is asked for has a place, in the section of a header. -/
inductive Located (readFile : FileReader) (arguments : List String) (path : String) (p : Placement)
    (header : SectionHeader) : Prop
  | mk {symbol : String} {bytes : List UInt8} : Asks arguments path symbol →
      readFile path = .ok bytes → Resolves bytes symbol p header →
      Located readFile arguments path p header

/-- There is nothing to say: the arguments ask for nothing, or the file cannot be read, or the symbol
has no place in it. -/
inductive Unanswered (readFile : FileReader) (arguments : List String) : Prop
  | usage : arguments.length ≠ 1 → arguments.length ≠ 2 → Unanswered readFile arguments
  | unreadable {path symbol : String} {error : FileError} : Asks arguments path symbol →
      readFile path = .error error → Unanswered readFile arguments
  | unresolved {path symbol : String} {bytes : List UInt8} : Asks arguments path symbol →
      readFile path = .ok bytes → Unresolved bytes symbol → Unanswered readFile arguments

variable {readFile : FileReader} {arguments : List String} {path symbol name : String}
  {bytes : List UInt8} {p : Placement} {header : SectionHeader}

/-! ## Images -/

theorem inspectSymbol_of_resolves (h : Resolves bytes name p header) :
    inspectSymbol bytes name = .ok p := by
  cases h with
  | @mk tables s header home hread hfirst hindex hheader htells =>
    have hs := symbol?_eq_some_iff.mpr hfirst
    rw [inspectSymbol_of_read hread, placement_of_symbol? hs, Tables.headerOf?, if_neg hindex,
      hheader, Tables.answer, htells.eq_sectionOf]

theorem inspectSymbol_of_unresolved (h : Unresolved bytes name) :
    ∃ e, inspectSymbol bytes name = .error e := by
  cases h with
  | @malformed fault hread =>
    refine ⟨.malformed fault, ?_⟩
    rw [inspectSymbol, readTables, hread]
    rfl
  | absent hread hnone =>
    rw [inspectSymbol_of_read hread]
    exact ⟨_, placement_eq_notFound_iff.mpr (symbol?_eq_none_iff.mpr hnone)⟩
  | sectionless hread hfirst hindex =>
    have hs := symbol?_eq_some_iff.mpr hfirst
    rw [inspectSymbol_of_read hread]
    exact ⟨_, (placement_eq_noSection_iff hs).mpr (headerOf?_eq_none_iff.mpr hindex)⟩

theorem resolves_or_unresolved (bytes : List UInt8) (name : String) :
    (∃ p header, Resolves bytes name p header) ∨ Unresolved bytes name := by
  cases hread : Tables.read bytes with
  | error fault => exact .inr (.malformed hread)
  | ok tables =>
    cases hsymbol : tables.symbol? name with
    | none => exact .inr (.absent hread (symbol?_eq_none_iff.mp hsymbol))
    | some s =>
      have hfirst := symbol?_eq_some_iff.mp hsymbol
      by_cases hindex : s.sectionIndex = 0
      · exact .inr (.sectionless hread hfirst (.inl hindex))
      · cases hheader : tables.sections[s.sectionIndex]? with
        | none =>
          have hbeyond := List.getElem?_eq_none_iff.mp hheader
          exact .inr (.sectionless hread hfirst (.inr hbeyond))
        | some header =>
          exact .inl ⟨_, _, .mk hread hfirst hindex hheader (tells_sectionOf tables header)⟩

theorem isStored_iff (h : Resolves bytes name p header) : p.isStored = true ↔ header.kind ≠ 8 := by
  cases h with
  | @mk tables s header home hread hfirst hindex hheader htells =>
    rw [Placement.isStored, beq_iff_eq, ne_eq, ← htells.zeroFill]
    cases home.storage <;> simp

/-! ## Runs -/

theorem asks_of_length (h : arguments.length = 1 ∨ arguments.length = 2) :
    ∃ path symbol, Asks arguments path symbol := by
  match arguments, h with
  | [path], _ => exact ⟨_, _, .region path⟩
  | [path, symbol], _ => exact ⟨_, _, .symbol path symbol⟩
  | [], h => simp at h
  | _ :: _ :: _ :: _, h => simp at h

theorem run_of_asks (h : Asks arguments path symbol) :
    run readFile arguments = report path symbol (inspectFile (readFile path) symbol) := by
  cases h <;> rfl

theorem run_of_length (hone : arguments.length ≠ 1) (htwo : arguments.length ≠ 2) :
    run readFile arguments = usage := by
  have hrequest : request? arguments = none := by
    unfold request?
    split
    · exact absurd rfl hone
    · exact absurd rfl htwo
    · rfl
  rw [run, hrequest]

/-- A run looks at no other file than the one that is asked for. -/
theorem run_congr {others : FileReader}
    (h : ∀ path symbol, Asks arguments path symbol → others path = readFile path) :
    run others arguments = run readFile arguments := by
  by_cases hlength : arguments.length = 1 ∨ arguments.length = 2
  · obtain ⟨path, symbol, hasks⟩ := asks_of_length hlength
    rw [run_of_asks hasks, run_of_asks hasks, h path symbol hasks]
  · rw [not_or] at hlength
    rw [run_of_length hlength.1 hlength.2, run_of_length hlength.1 hlength.2]

theorem append_ne_empty (text : String) {ending : String} (h : ending ≠ "") :
    text ++ ending ≠ "" :=
  fun hempty => h (String.append_eq_empty_iff.mp hempty).2

theorem report_error (path symbol : String) (e : InspectError) :
    (report path symbol (.error e)).status = 2 ∧ (report path symbol (.error e)).output = "" ∧
      (report path symbol (.error e)).errors ≠ "" :=
  ⟨rfl, rfl, append_ne_empty _ (by decide)⟩

theorem run_of_unanswered (h : Unanswered readFile arguments) :
    (run readFile arguments).status = 2 ∧ (run readFile arguments).output = "" ∧
      (run readFile arguments).errors ≠ "" := by
  cases h with
  | usage hone htwo =>
    rw [run_of_length hone htwo]
    exact ⟨rfl, rfl, by decide⟩
  | unreadable hasks hread =>
    rw [run_of_asks hasks, hread]
    exact report_error ..
  | unresolved hasks hread hnone =>
    obtain ⟨e, herror⟩ := inspectSymbol_of_unresolved hnone
    rw [run_of_asks hasks, hread, inspectFile, herror]
    exact report_error ..

theorem run_of_located (h : Located readFile arguments path p header) :
    (run readFile arguments).status = (if header.kind = 8 then 0 else 1) ∧
      (run readFile arguments).output = path ++ ": " ++ p.text ++ "\n" ∧
      ((run readFile arguments).errors = "" ↔ header.kind = 8) := by
  cases h with
  | @mk symbol bytes hasks hread hresolves =>
    have hstored := isStored_iff hresolves
    rw [run_of_asks hasks, hread, inspectFile, inspectSymbol_of_resolves hresolves, report]
    by_cases hkind : header.kind = 8
    · have hmemory : ¬ p.isStored = true := fun h => hstored.mp h hkind
      simp [hkind, hmemory]
    · have hwritten : symbol ++ " is stored in the image, not zero-filled\n" ≠ "" :=
        append_ne_empty symbol (by decide)
      simp [hkind, hstored.mpr hkind]

theorem located_or_unanswered (readFile : FileReader) (arguments : List String) :
    (∃ path p header, Located readFile arguments path p header) ∨
      Unanswered readFile arguments := by
  by_cases hlength : arguments.length = 1 ∨ arguments.length = 2
  · obtain ⟨path, symbol, hasks⟩ := asks_of_length hlength
    cases hread : readFile path with
    | error e => exact .inr (.unreadable hasks hread)
    | ok bytes =>
      rcases resolves_or_unresolved bytes symbol with ⟨p, header, hresolves⟩ | hnone
      · exact .inl ⟨path, p, header, .mk hasks hread hresolves⟩
      · exact .inr (.unresolved hasks hread hnone)
  · rw [not_or] at hlength
    exact .inr (.usage hlength.1 hlength.2)

/-! ## The statuses -/

theorem status_two_iff :
    (run readFile arguments).status = 2 ↔ Unanswered readFile arguments := by
  constructor
  · intro h
    rcases located_or_unanswered readFile arguments with ⟨path, p, header, hplace⟩ | hnothing
    · rw [(run_of_located hplace).1] at h
      split at h <;> exact absurd h (by decide)
    · exact hnothing
  · intro h
    exact (run_of_unanswered h).1

theorem status_eq_iff {n : UInt8} (h : n ≠ 2) :
    (run readFile arguments).status = n ↔
      ∃ path p header, Located readFile arguments path p header ∧
        (if header.kind = 8 then 0 else 1) = n := by
  constructor
  · rintro rfl
    rcases located_or_unanswered readFile arguments with ⟨path, p, header, hplace⟩ | hnothing
    · exact ⟨path, p, header, hplace, (run_of_located hplace).1.symm⟩
    · exact absurd (run_of_unanswered hnothing).1 h
  · rintro ⟨path, p, header, hplace, rfl⟩
    exact (run_of_located hplace).1

theorem status_zero_iff :
    (run readFile arguments).status = 0 ↔
      ∃ path p header, Located readFile arguments path p header ∧ header.kind = 8 := by
  rw [status_eq_iff (by decide)]
  refine exists_congr fun path => exists_congr fun p => exists_congr fun header => ?_
  by_cases hkind : header.kind = 8 <;> simp [hkind]

theorem status_one_iff :
    (run readFile arguments).status = 1 ↔
      ∃ path p header, Located readFile arguments path p header ∧ header.kind ≠ 8 := by
  rw [status_eq_iff (by decide)]
  refine exists_congr fun path => exists_congr fun p => exists_congr fun header => ?_
  by_cases hkind : header.kind = 8 <;> simp [hkind]

theorem status_cases (readFile : FileReader) (arguments : List String) :
    (run readFile arguments).status = 0 ∨ (run readFile arguments).status = 1 ∨
      (run readFile arguments).status = 2 := by
  rcases located_or_unanswered readFile arguments with ⟨path, p, header, hplace⟩ | hnothing
  · rw [(run_of_located hplace).1]
    split
    · exact .inl rfl
    · exact .inr (.inl rfl)
  · exact .inr (.inr (run_of_unanswered hnothing).1)

/-- The three exit statuses and what is written with each. The status is 2 exactly when there is
nothing to say, 0 exactly when the symbol lives in a section without bytes in the file, and 1 exactly
when it lives in any other section. The output is empty in the first case and says the symbol's place
in the others; errors are reported except with status 0. Asking for the reserved region by name is
asking without a name, and only the file that is asked for makes a difference. -/
theorem exit_contract (readFile : FileReader) (arguments : List String) :
    ((run readFile arguments).status = 2 ↔ Unanswered readFile arguments) ∧
      ((run readFile arguments).status = 0 ↔
        ∃ path p header, Located readFile arguments path p header ∧ header.kind = 8) ∧
      ((run readFile arguments).status = 1 ↔
        ∃ path p header, Located readFile arguments path p header ∧ header.kind ≠ 8) ∧
      ((run readFile arguments).status = 0 ∨ (run readFile arguments).status = 1 ∨
        (run readFile arguments).status = 2) ∧
      (Unanswered readFile arguments →
        (run readFile arguments).output = "" ∧ (run readFile arguments).errors ≠ "") ∧
      (∀ path p header, Located readFile arguments path p header →
        (run readFile arguments).output = path ++ ": " ++ p.text ++ "\n" ∧
          ((run readFile arguments).errors = "" ↔ header.kind = 8)) ∧
      (∀ path, run readFile [path, "RESERVED_REGION"] = run readFile [path]) ∧
      ∀ others : FileReader,
        (∀ path symbol, Asks arguments path symbol → others path = readFile path) →
        run others arguments = run readFile arguments :=
  ⟨status_two_iff, status_zero_iff, status_one_iff, status_cases readFile arguments,
    fun h => (run_of_unanswered h).2, fun _ _ _ h => (run_of_located h).2, fun _ => rfl,
    fun _ => run_congr⟩

end Freestanding.Inspector
