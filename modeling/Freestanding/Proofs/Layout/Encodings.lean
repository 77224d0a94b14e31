import Freestanding.Proofs.Layout.Acceptance
import Freestanding.Proofs.Layout.Constants
import Freestanding.Status.Cell

/-!
# One number in every encoding

A status is given in a configuration, printed among the constants of the programs and handed to the
compiler of the collaborator. All three say the same integer, at both ends of its range too, so the
collaborator leaves in a cell what the programs have as its status.
-/
namespace Freestanding.Layout

open Freestanding.Files (Tree)
open Freestanding.Json (Digits decimal)
open Freestanding.Status (Cell)
open Freestanding.Text (decimal_toDigits digits_toDigits eq_zero_of_head?_toDigits
  toList_toString_int)

/-! ## What the collaborator is compiled to write -/

/-- The name that a compiler option defines, and what it stands for: one, if the option gives
nothing. -/
def defined? (option : String) : Option (List Char × List Char) :=
  match option.toList with
  | '-' :: 'D' :: rest =>
    match rest.dropWhile (· != '=') with
    | [] => some (rest, ['1'])
    | _ :: body => some (rest.takeWhile (· != '='), body)
  | _ => none

/-- A constant without a suffix, of 63 bits at most. A zero in front makes it octal. -/
def literal? (cs : List Char) : Option Nat :=
  let base := if cs.head? = some '0' then 8 else 10
  let value := Nat.ofDigitChars base cs 0
  if !cs.isEmpty && (cs.all fun c => c.isDigit && c.toNat < '0'.toNat + base)
      && value < 0x8000000000000000 then some value
  else none

/-- The value of a constant, with or without a minus sign. -/
def expression? : List Char → Option Int
  | '-' :: cs => (literal? cs).map fun n => -(n : Int)
  | cs => (literal? cs).map Int.ofNat

/-- What the collaborator writes when it is compiled with options: the value that its status is
defined as, converted to 32 bits, or zero where no option defines it. -/
def compiledStatus? (options : List String) : Option Int32 :=
  let definition? := (options.filterMap defined?).find? (·.1 == "COLLABORATOR_STATUS".toList)
  (expression? ((definition?.map Prod.snd).getD ['0'])).map Int32.ofInt

theorem literal?_toDigits {n : Nat} (h : n < 0x8000000000000000) :
    literal? (Nat.toDigits 10 n) = some n := by
  by_cases hzero : n = 0
  · rw [hzero, Nat.toDigits_zero]
    rfl
  · have hhead : (Nat.toDigits 10 n).head? ≠ some '0' :=
      fun hfront => hzero (eq_zero_of_head?_toDigits (by decide) hfront)
    have hvalue : Nat.ofDigitChars 10 (Nat.toDigits 10 n) 0 = n := decimal_toDigits n
    obtain ⟨hne, hdigits⟩ := digits_toDigits n
    have hempty : (Nat.toDigits 10 n).isEmpty = false := List.isEmpty_eq_false_iff.mpr hne
    have hall : (Nat.toDigits 10 n).all (fun c => c.isDigit && c.toNat < '0'.toNat + 10) := by
      rw [List.all_eq_true]
      intro c hc
      rw [Bool.and_eq_true, decide_eq_true_iff]
      exact ⟨Char.isDigit_iff_toNat.mpr (hdigits c hc), Nat.lt_succ_of_le (hdigits c hc).2⟩
    simp only [literal?, hhead, ↓reduceIte, hvalue, hempty, hall, h, decide_true, Bool.not_false,
      Bool.and_self]

theorem expression?_toString {i : Int} (h : i.natAbs < 0x8000000000000000) :
    expression? (toString i).toList = some i := by
  have hliteral := literal?_toDigits h
  rw [toList_toString_int]
  by_cases hneg : i < 0
  · have habs : -(i.natAbs : Int) = i := by omega
    rw [if_pos hneg, List.singleton_append, expression?, hliteral]
    exact congrArg some habs
  · rw [if_neg hneg, List.nil_append]
    -- No digit is a minus sign.
    have hdigit := (digits_toDigits i.natAbs).2
    unfold expression?
    split
    · next cs hcs => exact absurd (hdigit '-' (hcs ▸ List.mem_cons_self)) (by decide)
    · rw [hliteral]
      exact congrArg some (Int.natAbs_of_nonneg (by omega))

theorem defined?_eq {option : String} {name body : List Char}
    (h : option.toList = '-' :: 'D' :: (name ++ '=' :: body)) (hname : '=' ∉ name) :
    defined? option = some (name, body) := by
  have hkeep : ∀ c ∈ name, (c != '=') = true := by
    intro c hc
    rw [bne_iff_ne]
    rintro rfl
    exact hname hc
  have hdrop : (name ++ '=' :: body).dropWhile (· != '=') = '=' :: body := by
    rw [List.dropWhile_append_of_pos hkeep]
    rfl
  have htake : (name ++ '=' :: body).takeWhile (· != '=') = name := by
    rw [List.takeWhile_append_of_pos hkeep]
    exact List.append_nil name
  simp only [defined?, h, hdrop, htake]

theorem defined?_compilerDefine (n : Numbers) :
    defined? n.compilerDefine =
      some ("COLLABORATOR_STATUS".toList, (toString n.status.toInt).toList) := by
  have hoption : "-DCOLLABORATOR_STATUS=".toList =
      '-' :: 'D' :: ("COLLABORATOR_STATUS".toList ++ ['=']) := rfl
  refine defined?_eq ?_ (by decide)
  unfold Numbers.compilerDefine
  rw [String.toList_append, hoption, List.cons_append, List.cons_append, List.append_assoc,
    List.singleton_append]

theorem expression?_status (status : Int32) :
    expression? (toString status.toInt).toList = some status.toInt := by
  have hlow := status.le_toInt
  have hhigh := status.toInt_lt
  exact expression?_toString (by omega)

/-- The option that defines the collaborator's status gives it as it is. -/
theorem compiledStatus?_define (n : Numbers) :
    compiledStatus? [n.compilerDefine] = some n.status := by
  simp only [compiledStatus?, List.filterMap_cons, defined?_compilerDefine, List.filterMap_nil,
    List.find?_cons, beq_self_eq_true, Option.map_some, Option.getD_some, expression?_status,
    Int32.ofInt_toInt]

/-! ## The layout -/

theorem Definition.Valid.count {comment name : String} {count : Nat}
    (hcomment : '\n' ∉ comment.toList) (hname : Scanning.isWord name.toList = true)
    (hcount : count < 0x10000000000000000) : (Definition.mk comment name "usize" count).Valid :=
  ⟨hcomment, hname, Or.inl ⟨rfl, Int.natCast_nonneg count, Int.ofNat_lt.mpr hcount⟩⟩

theorem Definition.Valid.status {comment name : String} (status : Int32)
    (hcomment : '\n' ∉ comment.toList) (hname : Scanning.isWord name.toList = true) :
    (Definition.mk comment name "i32" status.toInt).Valid :=
  ⟨hcomment, hname, Or.inr ⟨rfl, status.le_toInt, status.toInt_lt⟩⟩

theorem Numbers.definitions_valid {n : Numbers} (hwords : n.words < 0x10000000000000000)
    (hsize : n.wordSize < 0x10000000000000000) : ∀ d ∈ n.definitions, d.Valid := by
  simp only [definitions, List.forall_mem_cons]
  refine ⟨.count ?_ ?_ hwords, .count ?_ ?_ hsize, .status _ ?_ ?_, .status _ ?_ ?_, nofun⟩
  -- The comments and the names are fixed texts.
  all_goals decide +kernel

theorem readConstants?_layoutText {n : Numbers} (hwords : n.words < 0x10000000000000000)
    (hsize : n.wordSize < 0x10000000000000000) :
    readConstants? n.layoutText = some (n.definitions.map Definition.constant) := by
  have hfront : "// Generated by build.rs from " ++ fileName ++ ".\n" =
      "//" ++ " Generated by build.rs from zerostart.json." ++ "\n" := rfl
  unfold Numbers.layoutText
  rw [hfront]
  exact Definition.readConstants?_texts (by decide) (Numbers.definitions_valid hwords hsize)

/-- The numbers that a text of constants was printed from. -/
theorem Numbers.eq_of_layoutText {n m : Numbers}
    (hn : n.words < 0x10000000000000000 ∧ n.wordSize < 0x10000000000000000)
    (hm : m.words < 0x10000000000000000 ∧ m.wordSize < 0x10000000000000000)
    (h : n.layoutText = m.layoutText) : n = m := by
  have hread := readConstants?_layoutText hn.1 hn.2
  rw [h, readConstants?_layoutText hm.1 hm.2] at hread
  have hvalues := congrArg (List.map Constant.value) (Option.some.inj hread)
  simp only [definitions, List.map_cons, List.map_nil, Definition.constant, List.cons.injEq,
    Int.ofNat_inj, Int32.toInt_inj, and_true] at hvalues
  obtain ⟨hwords, hsize, hinitial, hstatus⟩ := hvalues
  cases n
  cases m
  simp_all only

/-- What the programs assert of their numbers when they are compiled: a word of the region is one of
64 bits, the region is not empty, and the multiplication that gives its size does not overflow. -/
structure Numbers.Asserted (n : Numbers) : Prop where
  wordSize : n.wordSize = 8
  words : 0 < n.words
  bytes : n.words * n.wordSize < 0x10000000000000000

theorem generate_of_accept {tree : Tree} {env : Environment} {c : Configuration}
    (h : accept tree env = .ok c) :
    generate tree env =
      .ok ⟨instructions env, c.numbers.compilerDefine, c.numbers.layoutText⟩ := by
  rw [generate, h]
  rfl

/-- The rules of a configuration are what the programs assert, and bound the region. -/
theorem Configuration.Passes.asserted {c : Configuration} {tree : Tree} {env : Environment}
    (h : c.Passes tree env) : c.numbers.Asserted ∧ c.numbers.bytes ≤ 32768 := by
  have hsize : c.numbers.wordSize = 8 := h.wordSize
  have hwords : 1 ≤ c.numbers.words ∧ c.numbers.words ≤ 4096 := h.words
  have hbytes : c.numbers.words * c.numbers.wordSize ≤ 32768 := by
    rw [hsize]
    omega
  exact ⟨⟨hsize, hwords.1, by omega⟩, hbytes⟩

theorem Configuration.Passes.fits {c : Configuration} {tree : Tree} {env : Environment}
    (h : c.Passes tree env) :
    c.numbers.words < 0x10000000000000000 ∧ c.numbers.wordSize < 0x10000000000000000 := by
  have hsize : c.numbers.wordSize = 8 := h.wordSize
  have hwords : 1 ≤ c.numbers.words ∧ c.numbers.words ≤ 4096 := h.words
  omega

/-- The numbers of a configuration that is accepted are the same wherever they are used. Its layout
is read back as the four constants, each once, and no configuration with other numbers has this
layout; the constants are as the programs assert them, and the region has at most 32768 bytes; the
option for the compiler of the collaborator gives the status among them, as an integer expression;
and every cell holds that status once the collaborator has run. -/
theorem accept_agrees {tree : Tree} {env : Environment} {c : Configuration}
    (h : accept tree env = .ok c) :
    ∃ p, generate tree env = .ok p ∧
      readConstants? p.layout = some
        [⟨"RESERVED_WORDS", "usize", (c.region.words : Int)⟩,
          ⟨"WORD_SIZE", "usize", (c.region.wordSize : Int)⟩,
          ⟨"COLLABORATOR_INITIAL_STATUS", "i32", c.collaborator.initialStatus.toInt⟩,
          ⟨"COLLABORATOR_STATUS", "i32", c.collaborator.status.toInt⟩] ∧
      (∀ tree' env' c' p', accept tree' env' = .ok c' → generate tree' env' = .ok p' →
        p'.layout = p.layout → c'.numbers = c.numbers) ∧
      c.numbers.Asserted ∧ c.numbers.bytes ≤ 32768 ∧
      (∃ body, defined? p.define = some ("COLLABORATOR_STATUS".toList, body) ∧
        expression? body = some c.collaborator.status.toInt) ∧
      ∃ written, compiledStatus? [p.define] = some written ∧
        ∀ cell : Cell, (cell.step written .collaborate).value = c.collaborator.status := by
  have hpasses := (accept_eq_ok.mp h).2
  obtain ⟨hasserted, hbytes⟩ := hpasses.asserted
  obtain ⟨hwords, hsize⟩ := hpasses.fits
  refine ⟨_, generate_of_accept h, readConstants?_layoutText hwords hsize, ?_, hasserted, hbytes,
    ⟨_, defined?_compilerDefine c.numbers, expression?_status _⟩,
    c.collaborator.status, compiledStatus?_define c.numbers, fun cell => rfl⟩
  intro tree' env' c' p' haccept hgenerate hlayout
  obtain rfl := Except.ok.inj ((generate_of_accept haccept).symm.trans hgenerate)
  exact Numbers.eq_of_layoutText (accept_eq_ok.mp haccept).2.fits ⟨hwords, hsize⟩ hlayout

theorem accept_agrees_sample :
    accept sampleTree sampleEnvironment = .ok sample ∧
      ∃ p written, generate sampleTree sampleEnvironment = .ok p ∧
        compiledStatus? [p.define] = some written ∧
        (Cell.step written ⟨0⟩ .collaborate).value = -7 := by
  have hfit : sample.region.FitsWord := ⟨by decide, by decide⟩
  have hparse := parse_eq_ok.mpr ⟨sampleValue, document_sample, denotes_sample, hfit⟩
  have hread := readConfiguration_eq_ok.mpr ⟨sampleText, read_sampleTree, hparse⟩
  have haccept : accept sampleTree sampleEnvironment = .ok sample :=
    accept_eq_ok.mpr ⟨hread, passes_sample⟩
  obtain ⟨p, hgenerate, -, -, -, -, -, written, hwritten, hcell⟩ := accept_agrees haccept
  exact ⟨haccept, p, written, hgenerate, hwritten, hcell ⟨0⟩⟩

end Freestanding.Layout
