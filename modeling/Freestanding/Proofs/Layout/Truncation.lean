import Freestanding.Proofs.Files.Writing
import Freestanding.Proofs.Layout.Acceptance
import Freestanding.Text.Utf8

/-!
# Cut and extended configurations

No file that a build takes is the beginning of another one, but for white space at its end. So a file
that was cut short is never built from, and neither is a file with something behind its record.
-/
namespace Freestanding.Layout

open Freestanding.Files (Plain Tree)
open Freestanding.Json
open Freestanding.Text (eq_append_of_utf8 ofUtf8?_eq_some_iff utf8 utf8_append)

/-! ## White space as bytes -/

/-- Bytes that are white space of JSON. -/
def BlankBytes (bytes : List UInt8) : Prop :=
  ∀ b ∈ bytes, b = 0x20 ∨ b = 0x09 ∨ b = 0x0A ∨ b = 0x0D

instance : DecidablePred BlankBytes := fun bytes => List.decidableBAll _ bytes

theorem blank_text_of_bytes {bytes : List UInt8} (h : BlankBytes bytes) :
    ∃ text : String, Blank text.toList ∧ utf8 text = bytes := by
  induction bytes with
  | nil => exact ⟨"", blank_nil, rfl⟩
  | cons b bytes ih =>
    obtain ⟨text, hblank, hbytes⟩ := ih fun b hb => h b (List.mem_cons_of_mem _ hb)
    obtain ⟨first, hfirst, hb⟩ : ∃ first : String, Blank first.toList ∧ utf8 first = [b] := by
      rcases h b List.mem_cons_self with rfl | rfl | rfl | rfl
      · exact ⟨" ", by decide, rfl⟩
      · exact ⟨"\t", by decide, rfl⟩
      · exact ⟨"\n", by decide, rfl⟩
      · exact ⟨"\r", by decide, rfl⟩
    refine ⟨first ++ text, ?_, by simp [hb, hbytes]⟩
    rw [String.toList_append]
    exact hfirst.append hblank

theorem blankBytes_of_text {cs : List Char} (h : Blank cs) :
    BlankBytes (utf8 (String.ofList cs)) := by
  induction cs with
  | nil => exact fun b hb => absurd hb (List.not_mem_nil)
  | cons c cs ih =>
    have hothers := ih fun c hc => h c (List.mem_cons_of_mem _ hc)
    have hfirst : BlankBytes (utf8 (String.ofList [c])) := by
      rcases h c List.mem_cons_self with rfl | rfl | rfl | rfl <;> decide
    rw [← List.singleton_append, String.ofList_append, utf8_append]
    intro b hb
    exact (List.mem_append.mp hb).elim (hfirst b) (hothers b)

/-! ## What no build takes -/

/-- No build takes a file of this content: every environment meets the same rejection. -/
def Refused (content : List UInt8) : Prop :=
  ∃ rejection, ∀ (tree : Tree) (env : Environment),
    tree.read "zerostart.json" = .ok content → generate tree env = .error rejection

/-- A file that holds no configuration is rejected before anything else is looked at. -/
theorem refused_of_not_parsed {content : List UInt8}
    (h : ∀ text c, content = utf8 text → configurationShape.parse text.toList ≠ .ok c) :
    Refused content := by
  cases hread : parseConfiguration content with
  | ok c =>
    obtain ⟨text, rfl, hparse⟩ := parseConfiguration_eq_ok.mp hread
    exact absurd hparse (h text c rfl)
  | error rejection =>
    refine ⟨rejection, fun tree env hfile => generate_of_read_error ?_⟩
    rw [readConfiguration_of_read hfile, hread]

theorem Configuration.Passes.alike {c : Configuration} {tree other : Tree} {env : Environment}
    (h : c.Passes tree env) (halike : tree.Alike other) : c.Passes other env where
  entry := h.entry
  words := h.words
  wordSize := h.wordSize
  arch := h.arch
  os := h.os
  output := by
    obtain ⟨directory, hdirectory, hwrite⟩ := h.output
    exact ⟨directory, hdirectory, halike.writable plain_layoutName hwrite⟩

theorem parse_append {text : String} {c : Configuration}
    (h : configurationShape.parse text.toList = .ok c) (more : String) (c' : Configuration) :
    configurationShape.parse (text ++ more).toList = .ok c' ↔ Blank more.toList ∧ c' = c := by
  rw [String.toList_append]
  exact Shape.parse_append configuration_lawful (reads_field (by decide)) h more.toList c'

/-- Of two files that hold configurations, one begins the other only with white space between their
ends. -/
theorem blankBytes_of_parsed {text other : String} {c c' : Configuration} {more : List UInt8}
    (h : configurationShape.parse text.toList = .ok c)
    (hother : configurationShape.parse other.toList = .ok c')
    (hmore : utf8 other = utf8 text ++ more) : BlankBytes more := by
  obtain ⟨rest, rfl, rfl⟩ := eq_append_of_utf8 hmore
  obtain ⟨hblank, -⟩ := (parse_append h rest c').mp hother
  have hbytes := blankBytes_of_text hblank
  rwa [String.ofList_toList] at hbytes

/-- A configuration that is built from has no other end. Cut before the white space at its end, it is
rejected in every environment alike; with more white space behind it, the same is produced; with
anything else behind it, it is rejected in every environment alike. -/
theorem generate_only_whole {tree : Tree} {env : Environment} {p : Product}
    (h : generate tree env = .ok p) :
    ∃ content, tree.read "zerostart.json" = .ok content ∧
      (∀ cut dropped, content = cut ++ dropped → ¬ BlankBytes dropped → Refused cut) ∧
      (∀ added other, BlankBytes added →
        tree.AgreesExcept (tree.workingDirectory ++ ["zerostart.json"]) other →
        other.read "zerostart.json" = .ok (content ++ added) → generate other env = .ok p) ∧
      ∀ added, ¬ BlankBytes added → Refused (content ++ added) := by
  obtain ⟨c, haccept, hproduct⟩ := Json.ok_of_bind h
  obtain ⟨hread, hpasses⟩ := accept_eq_ok.mp haccept
  obtain ⟨text, hfile, hparse⟩ := readConfiguration_eq_ok.mp hread
  refine ⟨utf8 text, hfile, fun cut dropped hcut hdropped => ?_, ?_, fun added hadded => ?_⟩
  · refine refused_of_not_parsed fun short c' hshort hparse' => hdropped ?_
    exact blankBytes_of_parsed hparse' hparse (hshort ▸ hcut)
  · intro added other hadded hagrees hother
    obtain ⟨blank, hblank, rfl⟩ := blank_text_of_bytes hadded
    have halike := hagrees.alike_of_read plain_fileName hfile hother
    rw [← utf8_append] at hother
    have hparse' := (parse_append hparse blank c).mpr ⟨hblank, rfl⟩
    have hread' := readConfiguration_eq_ok.mpr ⟨_, hother, hparse'⟩
    have haccept' := accept_eq_ok.mpr ⟨hread', hpasses.alike halike⟩
    rw [← hproduct]
    simp only [generate, haccept', bind, Except.bind]
  · refine refused_of_not_parsed fun long c' hlong hparse' => hadded ?_
    exact blankBytes_of_parsed hparse hparse' hlong.symm

theorem agreesExcept_treeOf (content others : List UInt8) :
    (treeOf content).AgreesExcept ((treeOf content).workingDirectory ++ ["zerostart.json"])
      (treeOf others) := by
  refine ⟨rfl, fun place hplace => ?_⟩
  have hother : (["home", "zerostart", "zerostart.json"] == place) = false :=
    beq_eq_false_iff_ne.mpr (Ne.symm hplace)
  simp only [Tree.node?, treeOf, List.find?_cons, hother, List.any_cons]
  rfl

/-- The file cut inside its last record, with one more line, and with a comma behind it. -/
theorem generate_only_whole_sample :
    ∃ p, generate sampleTree sampleEnvironment = .ok p ∧ Refused ((utf8 sampleText).take 130) ∧
      generate (treeOf (utf8 sampleText ++ [0x0A])) sampleEnvironment = .ok p ∧
      Refused (utf8 sampleText ++ [0x2C]) := by
  obtain ⟨content, hfile, hcut, hblank, hmore⟩ := generate_only_whole generate_sample
  obtain rfl : utf8 sampleText = content := Except.ok.inj (read_sampleTree.symm.trans hfile)
  refine ⟨_, generate_sample, hcut _ _ (List.take_append_drop 130 _).symm (by decide +kernel), ?_,
    hmore [0x2C] (by decide)⟩
  exact hblank [0x0A] _ (by decide) (agreesExcept_treeOf _ _) (read_treeOf _)

end Freestanding.Layout
