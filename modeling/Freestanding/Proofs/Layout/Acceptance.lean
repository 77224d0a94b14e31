import Freestanding.Layout.Product
import Freestanding.Proofs.Files.Writing
import Freestanding.Proofs.Layout.Meaning

/-!
# Which configurations are built from

A build takes a file exactly when it holds a text of one value, the value denotes a configuration and
the configuration keeps every rule.
-/
namespace Freestanding.Layout

open Freestanding.Files (FileError Plain Tree fromRoot)
open Freestanding.Json
open Freestanding.Text (isBlank ofUtf8?_eq_some_iff ofUtf8?_utf8 utf8)

/-- The rules that a configuration keeps for a build. -/
structure Configuration.Passes (c : Configuration) (tree : Tree) (env : Environment) : Prop where
  entry : c.entrySymbol = "_start"
  words : 1 ≤ c.region.words ∧ c.region.words ≤ 4096
  wordSize : c.region.wordSize = 8
  arch : c.arch = env.arch.getD "unknown"
  os : c.os = env.os.getD "unknown"
  output : ∃ directory, env.outputDirectory = some directory ∧ tree.Writable directory "layout.rs"

/-! ## The checks -/

theorem plain_fileName : Plain "zerostart.json" := by
  constructor <;> decide

theorem plain_layoutName : Plain "layout.rs" := by
  constructor <;> decide

theorem parseConfiguration_eq_ok {bytes : List UInt8} {c : Configuration} :
    parseConfiguration bytes = .ok c ↔
      ∃ text, bytes = utf8 text ∧ configurationShape.parse text.toList = .ok c := by
  constructor
  · intro h
    unfold parseConfiguration at h
    split at h
    · cases h
    · next text htext =>
      obtain rfl := ofUtf8?_eq_some_iff.mp htext
      refine ⟨text, rfl, ?_⟩
      cases hparse : configurationShape.parse text.toList with
      | error failure =>
        rw [hparse] at h
        cases h
      | ok other =>
        rw [hparse] at h
        rw [Except.ok.inj h]
  · rintro ⟨text, rfl, hparse⟩
    rw [parseConfiguration, ofUtf8?_utf8]
    dsimp only
    rw [hparse]
    rfl

theorem readConfiguration_of_absent {tree : Tree} (h : tree.present "zerostart.json" = false) :
    readConfiguration tree = .error .notFound :=
  if_neg (Bool.eq_false_iff.mp h)

theorem readConfiguration_of_unreadable {tree : Tree} {e : FileError}
    (hpresent : tree.present "zerostart.json" = true)
    (hread : tree.read "zerostart.json" = .error e) :
    readConfiguration tree = .error (.unreadable e) := by
  rw [readConfiguration, fileName, if_pos hpresent, hread]
  rfl

/-- A file that can be read is there. -/
theorem readConfiguration_of_read {tree : Tree} {bytes : List UInt8}
    (h : tree.read "zerostart.json" = .ok bytes) :
    readConfiguration tree = parseConfiguration bytes := by
  rw [readConfiguration, fileName, if_pos (Tree.present_of_read h), h]
  rfl

theorem readConfiguration_eq_ok {tree : Tree} {c : Configuration} :
    readConfiguration tree = .ok c ↔
      ∃ text, tree.read "zerostart.json" = .ok (utf8 text) ∧
        configurationShape.parse text.toList = .ok c := by
  constructor
  · intro h
    cases hpresent : tree.present "zerostart.json" with
    | false =>
      rw [readConfiguration_of_absent hpresent] at h
      cases h
    | true =>
      cases hread : tree.read "zerostart.json" with
      | error e =>
        rw [readConfiguration_of_unreadable hpresent hread] at h
        cases h
      | ok bytes =>
        rw [readConfiguration_of_read hread] at h
        obtain ⟨text, rfl, hparse⟩ := parseConfiguration_eq_ok.mp h
        exact ⟨text, rfl, hparse⟩
  · rintro ⟨text, hread, hparse⟩
    rw [readConfiguration_of_read hread]
    exact parseConfiguration_eq_ok.mpr ⟨text, rfl, hparse⟩

theorem checkLayout_eq_ok {c : Configuration} :
    c.checkLayout = .ok () ↔ c.entrySymbol = "_start" ∧
      (1 ≤ c.region.words ∧ c.region.words ≤ 4096) ∧ c.region.wordSize = 8 := by
  unfold Configuration.checkLayout
  constructor
  · intro h
    split at h
    · cases h
    next hentry =>
    split at h
    · cases h
    next hwords =>
    split at h
    · cases h
    next hsize =>
    rw [maxWords] at hwords
    exact ⟨Decidable.not_not.mp hentry, by omega, Decidable.not_not.mp hsize⟩
  · rintro ⟨hentry, hwords, hsize⟩
    have hsymbol : c.entrySymbol = loaderSymbol := hentry
    have hrange : ¬ (c.region.words = 0 ∨ maxWords < c.region.words) := by
      rw [maxWords]
      omega
    have hword : c.region.wordSize = wordBytes := hsize
    rw [if_neg (not_not_intro hsymbol), if_neg hrange, if_neg (not_not_intro hword)]

theorem checkTarget_eq_ok {c : Configuration} {env : Environment} :
    c.checkTarget env = .ok () ↔
      c.arch = env.arch.getD "unknown" ∧ c.os = env.os.getD "unknown" := by
  unfold Configuration.checkTarget orUnknown
  constructor
  · intro h
    split at h
    · cases h
    next harch =>
    split at h
    · cases h
    next hos =>
    exact ⟨(Decidable.not_not.mp harch).symm, (Decidable.not_not.mp hos).symm⟩
  · rintro ⟨harch, hos⟩
    rw [if_neg (not_not_intro harch.symm), if_neg (not_not_intro hos.symm)]

theorem checkOutput_eq_ok {env : Environment} {tree : Tree} :
    env.checkOutput tree = .ok () ↔ ∃ directory, env.outputDirectory = some directory ∧
      tree.Writable directory "layout.rs" := by
  unfold Environment.checkOutput
  cases env.outputDirectory with
  | none => simp
  | some directory =>
    simp only [Option.some.injEq, exists_eq_left', ← Tree.checkWrite_eq_ok_iff plain_layoutName]
    cases hwrite : tree.checkWrite directory "layout.rs" with
    | error e => simp [layoutName, hwrite, Except.mapError]
    | ok u => simp [layoutName, hwrite, Except.mapError]

theorem accept_eq_ok {tree : Tree} {env : Environment} {c : Configuration} :
    accept tree env = .ok c ↔
      readConfiguration tree = .ok c ∧ c.Passes tree env := by
  constructor
  · intro h
    obtain ⟨found, hread, h⟩ := Json.ok_of_bind h
    obtain ⟨_, hlayout, h⟩ := Json.ok_of_bind h
    obtain ⟨_, htarget, h⟩ := Json.ok_of_bind h
    obtain ⟨_, houtput, h⟩ := Json.ok_of_bind h
    obtain rfl := Except.ok.inj h
    obtain ⟨hentry, hwords, hsize⟩ := checkLayout_eq_ok.mp hlayout
    obtain ⟨harch, hos⟩ := checkTarget_eq_ok.mp htarget
    exact ⟨hread, hentry, hwords, hsize, harch, hos, checkOutput_eq_ok.mp houtput⟩
  · rintro ⟨hread, hpasses⟩
    have hlayout := checkLayout_eq_ok.mpr ⟨hpasses.entry, hpasses.words, hpasses.wordSize⟩
    have htarget := checkTarget_eq_ok.mpr ⟨hpasses.arch, hpasses.os⟩
    have houtput := checkOutput_eq_ok.mpr hpasses.output
    simp only [accept, hread, hlayout, htarget, houtput, bind, Except.bind, pure, Except.pure]

theorem generate_of_read_error {tree : Tree} {env : Environment} {r : Rejection}
    (h : readConfiguration tree = .error r) : generate tree env = .error r := by
  simp only [generate, accept, h, bind, Except.bind]

/-- What is produced comes from a file that holds the text of a configuration, and the configuration
keeps every rule. -/
theorem generate_eq_ok {tree : Tree} {env : Environment} {p : Product} :
    generate tree env = .ok p ↔ ∃ text v c,
      tree.read "zerostart.json" = .ok (utf8 text) ∧
      Document v text.toList ∧ DenotesConfiguration c v ∧ c.Passes tree env ∧
      p = ⟨instructions env, c.numbers.compilerDefine, c.numbers.layoutText⟩ := by
  constructor
  · intro h
    obtain ⟨c, haccept, hproduct⟩ := Json.ok_of_bind h
    obtain ⟨hread, hpasses⟩ := accept_eq_ok.mp haccept
    obtain ⟨text, hfile, hparse⟩ := readConfiguration_eq_ok.mp hread
    obtain ⟨v, hdocument, hdenotes, -⟩ := parse_eq_ok.mp hparse
    exact ⟨text, v, c, hfile, hdocument, hdenotes, hpasses, (Except.ok.inj hproduct).symm⟩
  · rintro ⟨text, v, c, hfile, hdocument, hdenotes, hpasses, rfl⟩
    -- the bounds on the region are far below 64 bits
    have hfit : c.region.FitsWord := by
      have hwords := hpasses.words
      have hsize := hpasses.wordSize
      exact ⟨by omega, by omega⟩
    have hparse := parse_eq_ok.mpr ⟨v, hdocument, hdenotes, hfit⟩
    have hread := readConfiguration_eq_ok.mpr ⟨text, hfile, hparse⟩
    have haccept := accept_eq_ok.mpr ⟨hread, hpasses⟩
    simp only [generate, haccept, bind, Except.bind, pure, Except.pure]

/-! ## A text with escapes, keys out of order and a list for a record -/

def sampleText : String :=
  "\x7b\"os\": \"linux\", \"arch\": \"x86_64\", \"entry-symbol\": \"\\u005fstart\","
    ++ "\n\"reserved-region\": \x7b\"word-size\": 8, \"words\": 16\x7d, "
    ++ "\"collaborator\": [\" +042\", -7]\x7d\n"

def numeral (negative : Bool) (digits : List Char) : Numeral := ⟨negative, digits, none, none⟩

def sampleRegion : Value :=
  .object [("word-size", .number (numeral false ['8'])),
    ("words", .number (numeral false ['1', '6']))]

def sampleCollaborator : Value := .list [.text " +042", .number (numeral true ['7'])]

def sampleValue : Value := .object [
  ("os", .text "linux"), ("arch", .text "x86_64"), ("entry-symbol", .text "_start"),
  ("reserved-region", sampleRegion), ("collaborator", sampleCollaborator)]

def sample : Configuration := ⟨"x86_64", "linux", "_start", ⟨16, 8⟩, ⟨42, -7⟩⟩

/-- A tree with a configuration in its working directory and a place elsewhere for the layout. -/
def treeOf (content : List UInt8) : Tree where
  workingDirectory := ["home", "zerostart"]
  entries := [(["home", "zerostart", "zerostart.json"], .file content),
    (["target", "build", "out"], .directory)]

def sampleTree : Tree := treeOf (utf8 sampleText)

def sampleEnvironment : Environment :=
  ⟨some "x86_64", some "linux", none, none, some "/target/build/out", false⟩

theorem spells_integer (negative : Bool) (digits : List Char) (hd : Digits digits)
    (hfront : digits.head? = some '0' → digits = ['0']) :
    Spells (.number (numeral negative digits)) ((if negative then ['-'] else []) ++ digits) := by
  have hint : (numeral negative digits).IsInteger := ⟨rfl, rfl⟩
  have hw := Spells.number (hint.valid hd hfront)
  rw [hint.chars] at hw
  exact hw

theorem spells_member (key : String) (h : Unescaped key.toList) {v : Value} {written : List Char}
    (hw : Spells v written) :
    SpellsMember Spells (key, v) ('"' :: key.toList ++ ['"'] ++ [] ++ ':' :: [' '] ++ written) :=
  .mk h.spellsText blank_nil (by decide) hw

theorem spells_entry : SpellsText "_start" "\"\\u005fstart\"".toList := by
  have hunit : SpellsUnit 0x5f ['0', '0', '5', 'f'] :=
    .mk (w := 0) (x := 0) (y := 5) (z := 15) rfl rfl rfl rfl
  have hrest : Unescaped "start".toList := by decide
  exact .mk (.cons (.unit hunit (by decide)) hrest.spells)

theorem document_sample : Document sampleValue sampleText.toList := by
  have hspace : Blank [' '] := by decide
  have hline : Blank ['\n'] := by decide
  have hos : Unescaped "linux".toList := by decide
  have harch : Unescaped "x86_64".toList := by decide
  have hstatus : Unescaped " +042".toList := by decide
  have hwords := spells_integer false ['1', '6'] (by decide) (by decide)
  have hsize := spells_integer false ['8'] (by decide) (by decide)
  have hseven := spells_integer true ['7'] (by decide) (by decide)
  have hregion : Spells sampleRegion "\x7b\"word-size\": 8, \"words\": 16\x7d".toList :=
    .object (.some blank_nil (spells_member "word-size" (by decide) hsize)
      (.next blank_nil hspace (spells_member "words" (by decide) hwords) (.ends blank_nil)))
  have hcollaborator : Spells sampleCollaborator "[\" +042\", -7]".toList :=
    .list (.some blank_nil (.text hstatus.spellsText)
      (.next blank_nil hspace hseven (.ends blank_nil)))
  have hwritten := Document.mk blank_nil
    (.object (.some blank_nil (spells_member "os" (by decide) (.text hos.spellsText))
      (.next blank_nil hspace (spells_member "arch" (by decide) (.text harch.spellsText))
      (.next blank_nil hspace (spells_member "entry-symbol" (by decide) (.text spells_entry))
      (.next blank_nil hline (spells_member "reserved-region" (by decide) hregion)
      (.next blank_nil hspace (spells_member "collaborator" (by decide) hcollaborator)
      (.ends blank_nil))))))) hline
  suffices heq : _ = sampleText.toList from heq ▸ hwritten
  decide +kernel

theorem denotes_sample : DenotesConfiguration sample sampleValue := by
  refine ⟨sampleRegion, sampleCollaborator, .object (.swap _ _ _), ?_, ?_⟩
  · exact ⟨_, _, .object (.swap _ _ _), ⟨_, rfl, ⟨rfl, rfl⟩, rfl, by decide⟩,
      ⟨_, rfl, ⟨rfl, rfl⟩, rfl, by decide⟩⟩
  · refine ⟨_, _, .list, .text ?_, .integer ⟨rfl, rfl⟩ (by decide) (by decide)⟩
    have hdigits : Digits ['0', '4', '2'] := by decide
    have hblank : ∀ c ∈ [' '], isBlank c = true := by simp [isBlank]
    exact .mk hblank (.plus hdigits) (by simp)

theorem read_treeOf (content : List UInt8) :
    (treeOf content).read "zerostart.json" = .ok content := rfl

theorem writable_treeOf (content : List UInt8) :
    (treeOf content).Writable "/target/build/out" "layout.rs" := by
  have hpath : fromRoot ["target", "build", "out"] = "/target/build/out" := rfl
  have hplain : ∀ part ∈ ["target", "build", "out"], Plain part := by
    simp only [List.forall_mem_cons]
    refine ⟨?_, ?_, ?_, nofun⟩ <;> constructor <;> decide
  have hway (n : Nat) :
      (treeOf content).node? (["target", "build", "out"].take n) = some .directory := by
    rcases n with _ | _ | _ | n
    · rfl
    · rfl
    · rfl
    · rw [List.take_of_length_le (Nat.le_add_left 3 n)]
      rfl
  rw [← hpath]
  exact Tree.writable_fromRoot (by decide) hplain plain_layoutName hway nofun (by decide)

theorem read_sampleTree : sampleTree.read "zerostart.json" = .ok (utf8 sampleText) :=
  read_treeOf _

theorem passes_sample : sample.Passes sampleTree sampleEnvironment where
  entry := rfl
  words := by decide
  wordSize := rfl
  arch := rfl
  os := rfl
  output := ⟨_, rfl, writable_treeOf _⟩

theorem generate_sample : generate sampleTree sampleEnvironment =
    .ok ⟨instructions sampleEnvironment, sample.numbers.compilerDefine, sample.numbers.layoutText⟩ :=
  generate_eq_ok.mpr ⟨sampleText, sampleValue, sample, read_sampleTree, document_sample,
    denotes_sample, passes_sample, rfl⟩

end Freestanding.Layout
