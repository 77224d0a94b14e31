import Freestanding.Proofs.Layout.Steps
import Mathlib.Data.Nat.Find

/-!
# The first check that fails

The checks of a build and their order, each by what it asks of the file and of the environment. A
build is rejected exactly when a check fails, the first one that fails says why, and what only a
later check looks at makes no difference.
-/
namespace Freestanding.Layout

open Freestanding.Files (FileError Tree)
open Freestanding.Json
open Freestanding.Text (ofUtf8?_eq_some_iff ofUtf8?_utf8 utf8)

/-- The checks of a build, in their order. -/
inductive Check where
  | present
  | readable
  | record
  | entry
  | words
  | wordSize
  | arch
  | os
  | output
  /-- The layout can be written to its place. -/
  | written
  deriving DecidableEq, Repr

/-- How many checks come before a check. -/
def Check.rank : Check → Nat
  | .present => 0
  | .readable => 1
  | .record => 2
  | .entry => 3
  | .words => 4
  | .wordSize => 5
  | .arch => 6
  | .os => 7
  | .output => 8
  | .written => 9

/-- The file is a text that holds one value, and the value denotes the configuration. -/
def Configured (tree : Tree) (c : Configuration) : Prop :=
  ∃ text v, tree.read "zerostart.json" = .ok (utf8 text) ∧ Document v text.toList ∧
    DenotesConfiguration c v ∧ c.region.FitsWord

/-- A check fails, whatever the others do, and this is what it reports. What the checks on a
configuration ask is asked only of a file that holds one. -/
inductive Fails (tree : Tree) (env : Environment) : Check → Rejection → Prop
  | present : tree.present "zerostart.json" = false → Fails tree env .present .notFound
  | unreadable {e : FileError} : tree.read "zerostart.json" = .error e →
    Fails tree env .readable (.unreadable e)
  | notText {bytes : List UInt8} : tree.read "zerostart.json" = .ok bytes →
    (∀ text, bytes ≠ utf8 text) → Fails tree env .readable .notText
  | record {text : String} {failure : Failure} : tree.read "zerostart.json" = .ok (utf8 text) →
    (∀ c, ¬ Configured tree c) → configurationShape.parse text.toList = .error failure →
    Fails tree env .record (.invalid (failure.fault (utf8 text)))
  | entry {c : Configuration} : Configured tree c → c.entrySymbol ≠ "_start" →
    Fails tree env .entry (.wrongEntry c.entrySymbol)
  | words {c : Configuration} : Configured tree c →
    ¬ (1 ≤ c.region.words ∧ c.region.words ≤ 4096) →
    Fails tree env .words (.wrongExtent c.region.words)
  | wordSize {c : Configuration} : Configured tree c → c.region.wordSize ≠ 8 →
    Fails tree env .wordSize (.wrongWord c.region.wordSize)
  | arch {c : Configuration} : Configured tree c → env.arch.getD "unknown" ≠ c.arch →
    Fails tree env .arch (.wrongArch (env.arch.getD "unknown") c.arch)
  | os {c : Configuration} : Configured tree c → env.os.getD "unknown" ≠ c.os →
    Fails tree env .os (.wrongOs (env.os.getD "unknown") c.os)
  | output : env.outputDirectory = none → Fails tree env .output .noOutput
  | written {directory : String} {e : FileError} : env.outputDirectory = some directory →
    tree.checkWrite directory "layout.rs" = .error e →
    Fails tree env .written (.unwritable directory e)

/-- None of the first checks, so many, fails. -/
def Clear (tree : Tree) (env : Environment) (checks : Nat) : Prop :=
  ∀ j r, j.rank < checks → ¬ Fails tree env j r

/-- What a check looks at, besides the configuration, is the same in two builds. -/
def Check.SeesSame (tree other : Tree) (env env' : Environment) : Check → Prop
  | .present => other.present "zerostart.json" = tree.present "zerostart.json"
  | .readable | .record | .entry | .words | .wordSize =>
    other.read "zerostart.json" = tree.read "zerostart.json"
  | .arch => env'.arch = env.arch
  | .os => env'.os = env.os
  | .output => env'.outputDirectory = env.outputDirectory
  | .written => ∀ directory,
    other.checkWrite directory "layout.rs" = tree.checkWrite directory "layout.rs"

/-- Two builds look the same to a check and to every check before it. -/
def AgreeUpTo (k : Check) (tree other : Tree) (env env' : Environment) : Prop :=
  ∀ j : Check, j.rank ≤ k.rank → j.SeesSame tree other env env'

variable {tree other : Tree} {env env' : Environment} {c : Configuration} {k : Check}
  {r : Rejection}

/-! ## The configuration of a file -/

theorem configured_iff :
    Configured tree c ↔ readConfiguration tree = .ok c := by
  rw [readConfiguration_eq_ok]
  constructor
  · rintro ⟨text, v, hfile, hdocument, hdenotes, hfit⟩
    exact ⟨text, hfile, parse_eq_ok.mpr ⟨v, hdocument, hdenotes, hfit⟩⟩
  · rintro ⟨text, hfile, hparse⟩
    obtain ⟨v, hdocument, hdenotes, hfit⟩ := parse_eq_ok.mp hparse
    exact ⟨text, v, hfile, hdocument, hdenotes, hfit⟩

theorem Clear.mono {few many : Nat} (h : Clear tree env many) (hle : few ≤ many) :
    Clear tree env few :=
  fun j r hj => h j r (Nat.lt_of_lt_of_le hj hle)

theorem Clear.present (h : Clear tree env Check.readable.rank) :
    tree.present "zerostart.json" = true :=
  Bool.of_not_eq_false fun habsent => h .present _ (by decide) (.present habsent)

/-- A file that passes the three checks on it holds a configuration. -/
theorem Clear.configured (h : Clear tree env Check.entry.rank) : ∃ c, Configured tree c := by
  cases hread : tree.read "zerostart.json" with
  | error e => exact absurd (.unreadable hread) (h .readable _ (by decide))
  | ok bytes =>
    by_contra hconfigured
    have hnone : ∀ c, ¬ Configured tree c := not_exists.mp hconfigured
    by_cases htext : ∃ text, bytes = utf8 text
    · obtain ⟨text, rfl⟩ := htext
      cases hparse : configurationShape.parse text.toList with
      | ok c =>
        have hfile := readConfiguration_eq_ok.mpr ⟨text, hread, hparse⟩
        exact hnone c (configured_iff.mpr hfile)
      | error failure => exact h .record _ (by decide) (.record hread hnone hparse)
    · exact h .readable _ (by decide) (.notText hread (not_exists.mp htext))

/-! ## Checks that do not fail -/

theorem Clear.entry (h : Clear tree env Check.words.rank) (hconfigured : Configured tree c) :
    c.entrySymbol = "_start" :=
  by_contra fun hentry => h .entry _ (by decide) (.entry hconfigured hentry)

theorem Clear.words (h : Clear tree env Check.wordSize.rank) (hconfigured : Configured tree c) :
    1 ≤ c.region.words ∧ c.region.words ≤ 4096 :=
  by_contra fun hwords => h .words _ (by decide) (.words hconfigured hwords)

theorem Clear.checkLayout (h : Clear tree env Check.arch.rank) (hconfigured : Configured tree c) :
    c.checkLayout = .ok () := by
  refine checkLayout_eq_ok.mpr ⟨?_, (h.mono (by decide)).words hconfigured, ?_⟩
  · exact (h.mono (by decide)).entry hconfigured
  · exact by_contra fun hsize => h .wordSize _ (by decide) (.wordSize hconfigured hsize)

theorem Clear.arch (h : Clear tree env Check.os.rank) (hconfigured : Configured tree c) :
    env.arch.getD "unknown" = c.arch :=
  by_contra fun harch => h .arch _ (by decide) (.arch hconfigured harch)

theorem Clear.checkTarget (h : Clear tree env Check.output.rank)
    (hconfigured : Configured tree c) : c.checkTarget env = .ok () := by
  refine checkTarget_eq_ok.mpr ⟨((h.mono (by decide)).arch hconfigured).symm, ?_⟩
  exact by_contra fun hos => h .os _ (by decide) (.os hconfigured (Ne.symm hos))

theorem Clear.checkOutput (h : ∀ checks, Clear tree env checks) :
    env.checkOutput tree = .ok () := by
  cases hdirectory : env.outputDirectory with
  | none => exact absurd (.output hdirectory) (h _ .output _ (Nat.lt_succ_self _))
  | some directory =>
    cases hwrite : tree.checkWrite directory "layout.rs" with
    | error e => exact absurd (.written hdirectory hwrite) (h _ .written _ (Nat.lt_succ_self _))
    | ok _ =>
      have hwritable := (Tree.checkWrite_eq_ok_iff plain_layoutName).mp hwrite
      exact checkOutput_eq_ok.mpr ⟨directory, hdirectory, hwritable⟩

theorem AgreeUpTo.mono {j : Check} (h : AgreeUpTo k tree other env env') (hle : j.rank ≤ k.rank) :
    AgreeUpTo j tree other env env' :=
  fun i hi => h i (Nat.le_trans hi hle)

theorem AgreeUpTo.symm (h : AgreeUpTo k tree other env env') :
    AgreeUpTo k other tree env' env := by
  intro j hj
  have hsame := h j hj
  cases j with
  | written => exact fun directory => (hsame directory).symm
  | _ => exact Eq.symm hsame

theorem AgreeUpTo.read_eq (h : AgreeUpTo k tree other env env')
    (hle : Check.readable.rank ≤ k.rank) :
    other.read "zerostart.json" = tree.read "zerostart.json" :=
  h .readable hle

theorem AgreeUpTo.configured (h : AgreeUpTo k tree other env env')
    (hle : Check.readable.rank ≤ k.rank) : Configured other c ↔ Configured tree c := by
  rw [Configured, h.read_eq hle, Configured]

end Freestanding.Layout
