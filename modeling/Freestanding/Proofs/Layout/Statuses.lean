import Freestanding.Proofs.Json.Unambiguous
import Freestanding.Proofs.Layout.Encodings

/-!
# Which values are statuses

A configuration gives each of its two statuses as an integer or as a text. Whether a build takes a
value depends on the integer it denotes and not on the notation, and this integer is the one that is
produced. A value that denotes none is refused because no other value is written in the same way.
-/
namespace Freestanding.Layout

open Freestanding.Files (Tree)
open Freestanding.Json
open Freestanding.Text (Signed integer? integer?_eq_some integer?_trim ofUtf8?_utf8 trim utf8)

/-- The integer that a value gives as a status: an integer of 32 bits that is no zero with a minus, or
a text that holds at most one sign and then digits, once the white space around them is removed. -/
inductive GivesStatus : Int → Value → Prop
  | integer {m : Numeral} : m.IsInteger → ¬(m.negative = true ∧ m.integer = 0) →
      -2147483648 ≤ m.integer → m.integer ≤ 2147483647 → GivesStatus m.integer (.number m)
  | text {i : Int} {s : String} : Signed i (trim s.toList) → -2147483648 ≤ i → i ≤ 2147483647 →
      GivesStatus i (.text s)

/-- The file holds these two values for the statuses and is otherwise the text of a configuration that
keeps every rule. The configuration's own statuses play no part. -/
inductive Offers (tree : Tree) (env : Environment) (c : Configuration) (initial status : Value) : Prop
  | mk {text : String} {v region collaborator : Value} :
      tree.read "zerostart.json" = .ok (utf8 text) → Document v text.toList →
      Record [("arch", .text c.arch), ("os", .text c.os), ("entry-symbol", .text c.entrySymbol),
        ("reserved-region", region), ("collaborator", collaborator)] v →
      DenotesRegion c.region region →
      Record [("initial-status", initial), ("status", status)] collaborator →
      c.Passes tree env → Offers tree env c initial status

/-! ## Statuses -/

theorem signed_trim {i : Int} {cs : List Char} : Signed i (trim cs) ↔ Text.Padded i cs := by
  rw [← integer?_eq_some, integer?_trim]

theorem denotesStatus_iff {status : Int32} {v : Value} :
    DenotesStatus status v ↔ GivesStatus status.toInt v := by
  have hlow := status.le_toInt
  have hhigh := status.toInt_lt
  constructor
  · intro h
    cases h with
    | @integer m hint hzero hvalue =>
      rw [← hvalue] at hlow hhigh ⊢
      refine .integer hint ?_ (by omega) (by omega)
      rintro ⟨hnegative, hnone⟩
      rw [Numeral.integer, if_pos hnegative] at hnone
      exact hzero hnegative (by omega)
    | text hpadded => exact .text (signed_trim.mpr hpadded) (by omega) (by omega)
  · generalize hi : status.toInt = i
    intro h
    cases h with
    | @integer m hint hzero =>
      refine .integer hint (fun hnegative hnone => hzero ⟨hnegative, ?_⟩) hi.symm
      rw [Numeral.integer, if_pos hnegative, hnone]
      rfl
    | text hsigned => exact .text (hi ▸ signed_trim.mp hsigned)

/-- What a value gives as a status has 32 bits. -/
theorem GivesStatus.exists_int32 {i : Int} {v : Value} (h : GivesStatus i v) :
    ∃ status : Int32, status.toInt = i ∧ DenotesStatus status v := by
  have hrange : -2147483648 ≤ i ∧ i ≤ 2147483647 := by
    cases h with
    | integer _ _ hlow hhigh => exact ⟨hlow, hhigh⟩
    | text _ hlow hhigh => exact ⟨hlow, hhigh⟩
  have hsame : (Int32.ofInt i).toInt = i := Int32.toInt_ofInt_of_le hrange.1 (by omega)
  exact ⟨Int32.ofInt i, hsame, denotesStatus_iff.mpr (hsame.symm ▸ h)⟩

/-- Texts without digits, with two signs, with white space inside and with digits of another script. -/
example : ["", " ", "+", "+-7", "- 7", "4 2", "4٢", "1e2"].all
    (fun s => (integer? (trim s.toList)).isNone) = true := by decide +kernel

/-! ## What a file says -/

theorem DenotesRegion.unique {r r' : RegionExtent} {v : Value} (h : DenotesRegion r v)
    (h' : DenotesRegion r' v) : r = r' := by
  obtain ⟨words, size, hrecord, ⟨m, rfl, _, _, hwords⟩, n, rfl, _, _, hsize⟩ := h
  obtain ⟨words', size', hrecord', ⟨m', rfl, _, _, hwords'⟩, n', rfl, _, _, hsize'⟩ := h'
  have hfields := hrecord.unique hrecord' rfl (by simp)
  simp only [List.cons.injEq, Prod.mk.injEq, Value.number.injEq, true_and, and_true] at hfields
  obtain ⟨rfl, rfl⟩ := hfields
  cases r
  cases r'
  simp_all only

variable {tree : Tree} {env : Environment} {c : Configuration} {initial status : Value}

theorem Configuration.Passes.withStatuses (h : c.Passes tree env) (values : CollaboratorValues) :
    { c with collaborator := values }.Passes tree env where
  entry := h.entry
  words := h.words
  wordSize := h.wordSize
  arch := h.arch
  os := h.os
  output := h.output

/-- What is produced from a file that offers two values for the statuses. -/
theorem Offers.generate_eq_ok (h : Offers tree env c initial status) {p : Product} :
    generate tree env = .ok p ↔ ∃ i j : Int32, DenotesStatus i initial ∧ DenotesStatus j status ∧
      p = ⟨instructions env, { c with collaborator := ⟨i, j⟩ }.numbers.compilerDefine,
        { c with collaborator := ⟨i, j⟩ }.numbers.layoutText⟩ := by
  obtain ⟨hfile, hdocument, hrecord, hregion, hcollaborator, hpasses⟩ := h
  rw [Layout.generate_eq_ok]
  constructor
  · rintro ⟨text', v', c', hfile', hdocument', hdenotes, -, rfl⟩
    -- The text, its value, the fields and the two values are those of the file offered.
    have htext := congrArg Text.ofUtf8? (Except.ok.inj (hfile.symm.trans hfile'))
    rw [ofUtf8?_utf8, ofUtf8?_utf8] at htext
    obtain rfl := Option.some.inj htext
    obtain rfl := hdocument.unique hdocument'
    obtain ⟨region', collaborator', hrecord', hregion', initial', status', hcollaborator', hinitial,
      hstatus⟩ := hdenotes
    have hfields := hrecord.unique hrecord' rfl (by simp)
    simp only [List.cons.injEq, Prod.mk.injEq, Value.text.injEq, true_and, and_true] at hfields
    obtain ⟨-, -, -, rfl, rfl⟩ := hfields
    have hvalues := hcollaborator.unique hcollaborator' rfl (by simp)
    simp only [List.cons.injEq, Prod.mk.injEq, true_and, and_true] at hvalues
    obtain ⟨rfl, rfl⟩ := hvalues
    refine ⟨_, _, hinitial, hstatus, ?_⟩
    simp only [Configuration.numbers, hregion.unique hregion']
  · rintro ⟨i, j, hinitial, hstatus, rfl⟩
    exact ⟨_, _, { c with collaborator := ⟨i, j⟩ }, hfile, hdocument,
      ⟨_, _, hrecord, hregion, _, _, hcollaborator, hinitial, hstatus⟩,
      hpasses.withStatuses ⟨i, j⟩, rfl⟩

/-- A build takes two values for the statuses when both give one, and produces the integers that they
give: in the option for the compiler of the collaborator, and in the layout. Any other two values that
give the same integers in the same configuration produce the same. -/
theorem generate_statuses (h : Offers tree env c initial status) :
    ((∃ p, generate tree env = .ok p) ↔ (∃ i, GivesStatus i initial) ∧ ∃ j, GivesStatus j status) ∧
      ∀ i j, GivesStatus i initial → GivesStatus j status →
        ∃ p, generate tree env = .ok p ∧ p.define = "-DCOLLABORATOR_STATUS=" ++ toString j ∧
          readConstants? p.layout = some
            [⟨"RESERVED_WORDS", "usize", (c.region.words : Int)⟩,
              ⟨"WORD_SIZE", "usize", (c.region.wordSize : Int)⟩,
              ⟨"COLLABORATOR_INITIAL_STATUS", "i32", i⟩, ⟨"COLLABORATOR_STATUS", "i32", j⟩] ∧
          ∀ tree' initial' status', Offers tree' env c initial' status' →
            GivesStatus i initial' → GivesStatus j status' → generate tree' env = .ok p := by
  constructor
  · constructor
    · rintro ⟨p, hp⟩
      obtain ⟨i, j, hinitial, hstatus, -⟩ := h.generate_eq_ok.mp hp
      exact ⟨⟨_, denotesStatus_iff.mp hinitial⟩, _, denotesStatus_iff.mp hstatus⟩
    · rintro ⟨⟨i, hinitial⟩, j, hstatus⟩
      obtain ⟨m, -, hm⟩ := hinitial.exists_int32
      obtain ⟨n, -, hn⟩ := hstatus.exists_int32
      exact ⟨_, h.generate_eq_ok.mpr ⟨m, n, hm, hn, rfl⟩⟩
  · intro i j hinitial hstatus
    obtain ⟨m, rfl, hm⟩ := hinitial.exists_int32
    obtain ⟨n, rfl, hn⟩ := hstatus.exists_int32
    refine ⟨_, h.generate_eq_ok.mpr ⟨m, n, hm, hn, rfl⟩, rfl, ?_, ?_⟩
    · obtain ⟨-, -, -, -, -, hpasses⟩ := h
      obtain ⟨hwords, hsize⟩ := (hpasses.withStatuses ⟨m, n⟩).fits
      exact readConstants?_layoutText hwords hsize
    · intro tree' initial' status' hother hinitial' hstatus'
      exact hother.generate_eq_ok.mpr
        ⟨m, n, denotesStatus_iff.mpr hinitial', denotesStatus_iff.mpr hstatus', rfl⟩

/-- A text with a sign, a zero in front and white space, and an integer with a minus. -/
theorem generate_statuses_sample :
    ∃ c initial status, Offers sampleTree sampleEnvironment c initial status ∧
      GivesStatus 42 initial ∧ GivesStatus (-7) status ∧
      ∃ p, generate sampleTree sampleEnvironment = .ok p ∧
        p.define = "-DCOLLABORATOR_STATUS=" ++ toString (-7 : Int) := by
  have hregion : DenotesRegion sample.region sampleRegion :=
    ⟨_, _, .object (.swap _ _ _), ⟨_, rfl, ⟨rfl, rfl⟩, rfl, by decide⟩,
      ⟨_, rfl, ⟨rfl, rfl⟩, rfl, by decide⟩⟩
  have hoffers : Offers sampleTree sampleEnvironment sample (.text " +042")
      (.number (numeral true ['7'])) :=
    .mk read_sampleTree document_sample (.object (.swap _ _ _)) hregion .list passes_sample
  have hinitial : GivesStatus 42 (.text " +042") :=
    .text (integer?_eq_some.mp (by decide +kernel)) (by decide) (by decide)
  have hseven : (numeral true ['7']).integer = -7 := by decide
  have hstatus : GivesStatus (-7) (.number (numeral true ['7'])) :=
    hseven ▸ .integer ⟨rfl, rfl⟩ (by decide) (by decide) (by decide)
  obtain ⟨p, hp, hdefine, -⟩ := (generate_statuses hoffers).2 42 (-7) hinitial hstatus
  exact ⟨_, _, _, hoffers, hinitial, hstatus, p, hp, hdefine⟩

end Freestanding.Layout
