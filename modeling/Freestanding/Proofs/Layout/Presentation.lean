import Freestanding.Proofs.Layout.Encodings

/-!
# What a text says and what is produced

A build produces something only from a text that says what is produced, and the way in which the
text says it makes no difference. What is produced is read back here, by readers of its constants and
of its option for the compiler.
-/
namespace Freestanding.Layout

open Freestanding.Files (Tree)
open Freestanding.Json
open Freestanding.Text (utf8)

/-- What is produced gives the numbers of a configuration: as the constants of the layout, each once,
and as the integer that the option defines. -/
structure Product.Gives (p : Product) (c : Configuration) : Prop where
  layout : readConstants? p.layout = some
    [⟨"RESERVED_WORDS", "usize", (c.region.words : Int)⟩,
      ⟨"WORD_SIZE", "usize", (c.region.wordSize : Int)⟩,
      ⟨"COLLABORATOR_INITIAL_STATUS", "i32", c.collaborator.initialStatus.toInt⟩,
      ⟨"COLLABORATOR_STATUS", "i32", c.collaborator.status.toInt⟩]
  define : ∃ body, defined? p.define = some ("COLLABORATOR_STATUS".toList, body) ∧
    expression? body = some c.collaborator.status.toInt

theorem Configuration.Passes.gives {c : Configuration} {tree : Tree} {env : Environment}
    (h : c.Passes tree env) (lines : List String) :
    Product.Gives ⟨lines, c.numbers.compilerDefine, c.numbers.layoutText⟩ c where
  layout := readConstants?_layoutText h.fits.1 h.fits.2
  define := ⟨_, defined?_compilerDefine c.numbers, expression?_status _⟩

/-- What is produced says what the file says: the file is a text that holds one value, the value
denotes a configuration that keeps every rule, and its numbers are the ones that the layout and the
option for the compiler give. -/
theorem generate_only_configured {tree : Tree} {env : Environment} {p : Product}
    (h : generate tree env = .ok p) :
    ∃ text v c, tree.read "zerostart.json" = .ok (utf8 text) ∧ Document v text.toList ∧
      DenotesConfiguration c v ∧ c.Passes tree env ∧ p.Gives c ∧
      p.define = "-DCOLLABORATOR_STATUS=" ++ toString c.collaborator.status.toInt := by
  obtain ⟨text, v, c, hfile, hdocument, hdenotes, hpasses, rfl⟩ := generate_eq_ok.mp h
  exact ⟨text, v, c, hfile, hdocument, hdenotes, hpasses, hpasses.gives _, rfl⟩

theorem generate_only_configured_sample :
    ∃ p, generate sampleTree sampleEnvironment = .ok p ∧
      ∃ text v c, sampleTree.read "zerostart.json" = .ok (utf8 text) ∧ Document v text.toList ∧
        DenotesConfiguration c v ∧ c.Passes sampleTree sampleEnvironment ∧ p.Gives c ∧
        p.define = "-DCOLLABORATOR_STATUS=" ++ toString c.collaborator.status.toInt :=
  ⟨_, generate_sample, generate_only_configured generate_sample⟩

/-- Every text that holds a value of the configuration is built from, and what is produced gives the
numbers of the configuration. Any other text that holds such a value gives the same lines, the same
layout and the same option: the order of keys makes no difference, nor lists for records, escapes,
white space, or how a status is written. -/
theorem generate_every_presentation {tree : Tree} {env : Environment} {c : Configuration}
    {v : Value} {text : String} (hfile : tree.read "zerostart.json" = .ok (utf8 text))
    (hdocument : Document v text.toList) (hdenotes : DenotesConfiguration c v)
    (hpasses : c.Passes tree env) :
    ∃ p, generate tree env = .ok p ∧ p.Gives c ∧ p.instructions = instructions env ∧
      ∀ other v' text', other.read "zerostart.json" = .ok (utf8 text') →
        Document v' text'.toList → DenotesConfiguration c v' → c.Passes other env →
        generate other env = .ok p := by
  refine ⟨_, generate_eq_ok.mpr ⟨text, v, c, hfile, hdocument, hdenotes, hpasses, rfl⟩,
    hpasses.gives _, rfl, ?_⟩
  intro other v' text' hfile' hdocument' hdenotes' hpasses'
  exact generate_eq_ok.mpr ⟨text', v', c, hfile', hdocument', hdenotes', hpasses', rfl⟩

theorem generate_every_presentation_sample :
    sampleTree.read "zerostart.json" = .ok (utf8 sampleText) ∧
      Document sampleValue sampleText.toList ∧ DenotesConfiguration sample sampleValue ∧
      sample.Passes sampleTree sampleEnvironment ∧
      ∃ p, generate sampleTree sampleEnvironment = .ok p ∧ p.Gives sample := by
  obtain ⟨p, h, hgives, -⟩ := generate_every_presentation read_sampleTree document_sample
    denotes_sample passes_sample
  exact ⟨read_sampleTree, document_sample, denotes_sample, passes_sample, p, h, hgives⟩

end Freestanding.Layout
