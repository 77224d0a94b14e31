import Freestanding.Layout.Product
import Freestanding.Proofs.Text.Printed

/-!
# Reading definitions of constants

A text of definitions is cut into tokens, with comments and white space between them, and each
definition names a public constant, its type and its value. A printed definition is read back as
what was printed, so the text of a layout tells its numbers.
-/
namespace Freestanding.Layout

open Freestanding.Json (Digits decimal)
open Freestanding.Text (decimal_toDigits digits_toDigits toList_toString_int)

/-! ## Tokens -/

inductive Token where
  | word (letters : List Char)
  | number (digits : List Char)
  | mark (c : Char)
  deriving DecidableEq, Repr

/-- What a scanner has begun and not ended. -/
inductive Scanning where
  | nothing
  | word (letters : List Char)
  | number (digits : List Char)
  /-- The first of the two slashes of a comment. -/
  | slash
  | comment
  deriving DecidableEq, Repr

def startsWord (c : Char) : Bool :=
  ('a' ≤ c && c ≤ 'z') || ('A' ≤ c && c ≤ 'Z') || c == '_'

def inWord (c : Char) : Bool := startsWord c || c.isDigit

def isMark (c : Char) : Bool := c == ':' || c == '=' || c == '-' || c == ';'

/-- What a character begins, where nothing else goes on. -/
def begin? (c : Char) : Option (List Token × Scanning) :=
  if startsWord c then some ([], .word [c])
  else if c.isDigit then some ([], .number [c])
  else if c == '/' then some ([], .slash)
  else if isMark c then some ([.mark c], .nothing)
  else if c.isWhitespace then some ([], .nothing)
  else none

namespace Scanning

/-- The tokens that one character ends, and what goes on behind it. -/
def step? : Scanning → Char → Option (List Token × Scanning)
  | .nothing, c => begin? c
  | .word letters, c =>
    if inWord c then some ([], .word (letters ++ [c]))
    else (begin? c).map fun (tokens, next) => (.word letters :: tokens, next)
  | .number digits, c =>
    if c.isDigit then some ([], .number (digits ++ [c]))
    else if startsWord c then none
    else (begin? c).map fun (tokens, next) => (.number digits :: tokens, next)
  | .slash, c => if c == '/' then some ([], .comment) else none
  | .comment, c => some ([], if c == '\n' then .nothing else .comment)

def run? : Scanning → List Char → Option (List Token × Scanning)
  | s, [] => some ([], s)
  | s, c :: cs => do
    let (front, next) ← s.step? c
    let (others, last) ← next.run? cs
    return (front ++ others, last)

/-- The token that the end of the text ends, if there is one. -/
def close? : Scanning → Option (List Token)
  | .nothing => some []
  | .word letters => some [.word letters]
  | .number digits => some [.number digits]
  | .slash => none
  | .comment => some []

end Scanning

/-- The tokens of a text. -/
def tokens? (cs : List Char) : Option (List Token) := do
  let (front, last) ← Scanning.nothing.run? cs
  let others ← last.close?
  return front ++ others

/-! ## Constants -/

structure Constant where
  name : String
  type : String
  value : Int
  deriving DecidableEq, Repr

/-- The value of a sign and a magnitude, if the type has it. A type without negative values takes no
sign. -/
def valueOf? (type : String) (negative : Bool) (magnitude : Nat) : Option Int :=
  if type = "usize" then
    if negative = false ∧ magnitude < 0x10000000000000000 then some magnitude else none
  else if type = "i32" then
    if negative then if magnitude ≤ 0x80000000 then some (-magnitude) else none
    else if magnitude < 0x80000000 then some magnitude else none
  else none

/-- The constant of one definition, from its two leading words, its name, its type and its value. -/
def constantOf? (visibility keyword name type : List Char) (negative : Bool) (digits : List Char) :
    Option Constant :=
  if visibility = "pub".toList ∧ keyword = "const".toList then
    (valueOf? (.ofList type) negative (decimal digits)).map fun value =>
      ⟨.ofList name, .ofList type, value⟩
  else none

/-- The constants that tokens define. -/
def constants? : List Token → Option (List Constant)
  | [] => some []
  | .word visibility :: .word keyword :: .word name :: .mark ':' :: .word type :: .mark '=' ::
      .mark '-' :: .number digits :: .mark ';' :: more => do
    let first ← constantOf? visibility keyword name type true digits
    let others ← constants? more
    return first :: others
  | .word visibility :: .word keyword :: .word name :: .mark ':' :: .word type :: .mark '=' ::
      .number digits :: .mark ';' :: more => do
    let first ← constantOf? visibility keyword name type false digits
    let others ← constants? more
    return first :: others
  | _ => none

/-- The constants that a text defines, in order. -/
def readConstants? (text : String) : Option (List Constant) := do
  let tokens ← tokens? text.toList
  constants? tokens

/-! ## Scanning -/

namespace Scanning

variable {s next last : Scanning} {cs ds : List Char} {front others : List Token}

theorem run?_append (h : s.run? cs = some (front, next)) (h' : next.run? ds = some (others, last)) :
    s.run? (cs ++ ds) = some (front ++ others, last) := by
  induction cs generalizing s front with
  | nil =>
    obtain ⟨rfl, rfl⟩ := Prod.mk.inj (Option.some.inj h)
    exact h'
  | cons c cs ih =>
    cases hstep : s.step? c with
    | none => simp [run?, hstep] at h
    | some begun =>
      obtain ⟨ended, middle⟩ := begun
      cases hrun : middle.run? cs with
      | none => simp [run?, hstep, hrun] at h
      | some reached =>
        obtain ⟨tokens, state⟩ := reached
        simp only [run?, hstep, hrun, Option.bind_eq_bind, Option.bind_some, Option.pure_def,
          Option.some.injEq, Prod.mk.injEq] at h
        obtain ⟨rfl, rfl⟩ := h
        simp [run?, hstep, ih hrun]

theorem run?_word {letters : List Char} (h : ∀ c ∈ cs, inWord c = true) :
    (Scanning.word letters).run? cs = some ([], .word (letters ++ cs)) := by
  induction cs generalizing letters with
  | nil => simp [run?]
  | cons c cs ih =>
    rw [List.forall_mem_cons] at h
    simp [run?, step?, h.1, ih h.2]

theorem run?_number {digits : List Char} (h : ∀ c ∈ cs, c.isDigit = true) :
    (Scanning.number digits).run? cs = some ([], .number (digits ++ cs)) := by
  induction cs generalizing digits with
  | nil => simp [run?]
  | cons c cs ih =>
    rw [List.forall_mem_cons] at h
    simp [run?, step?, h.1, ih h.2]

theorem run?_comment (h : '\n' ∉ cs) : Scanning.comment.run? cs = some ([], .comment) := by
  induction cs with
  | nil => rfl
  | cons c cs ih =>
    rw [List.mem_cons, not_or] at h
    simp [run?, step?, Ne.symm h.1, ih h.2]

/-- A name, as a token of its own. -/
def isWord (cs : List Char) : Bool := cs.head?.any startsWord && cs.all inWord

theorem run?_of_isWord (h : isWord cs = true) :
    Scanning.nothing.run? cs = some ([], .word cs) := by
  rw [isWord, Bool.and_eq_true, Option.any_eq_true, List.all_eq_true] at h
  obtain ⟨⟨c, hc, hstart⟩, hin⟩ := h
  obtain ⟨more, rfl⟩ := List.head?_eq_some_iff.mp hc
  have hmore : (Scanning.word [c]).run? more = some ([], .word ([c] ++ more)) :=
    run?_word fun x hx => hin x (List.mem_cons_of_mem c hx)
  simp [run?, step?, begin?, hstart, hmore]

theorem startsWord_of_isDigit {c : Char} (h : c.isDigit = true) : startsWord c = false := by
  have hrange : 48 ≤ c.toNat ∧ c.toNat ≤ 57 := Char.isDigit_iff_toNat.mp h
  simp only [startsWord, Bool.or_eq_false_iff, Bool.and_eq_false_iff, decide_eq_false_iff_not,
    beq_eq_false_iff_ne, ne_eq, ← Char.toNat_inj]
  show ((¬ 97 ≤ c.toNat ∨ ¬ c.toNat ≤ 122) ∧ (¬ 65 ≤ c.toNat ∨ ¬ c.toNat ≤ 90)) ∧ ¬ c.toNat = 95
  omega

theorem run?_of_digits (h : Digits cs) : Scanning.nothing.run? cs = some ([], .number cs) := by
  have hdigits : ∀ c ∈ cs, c.isDigit = true := fun c hc => Char.isDigit_iff_toNat.mpr (h.2 c hc)
  obtain ⟨c, more, rfl⟩ := List.exists_cons_of_ne_nil h.1
  have hdigit := hdigits c List.mem_cons_self
  have hmore : (Scanning.number [c]).run? more = some ([], .number ([c] ++ more)) :=
    run?_number fun x hx => hdigits x (List.mem_cons_of_mem c hx)
  simp [run?, step?, begin?, startsWord_of_isDigit hdigit, hdigit, hmore]

end Scanning

/-! ## Printed definitions -/

namespace Definition

/-- A definition that can be read: the comment ends with its line, the name is a name, and the value
is one of the type. -/
structure Valid (d : Definition) : Prop where
  comment : '\n' ∉ d.comment.toList
  name : Scanning.isWord d.name.toList = true
  value : d.type = "usize" ∧ 0 ≤ d.value ∧ d.value < 0x10000000000000000 ∨
    d.type = "i32" ∧ -0x80000000 ≤ d.value ∧ d.value < 0x80000000

def constant (d : Definition) : Constant := ⟨d.name, d.type, d.value⟩

/-- The tokens of a printed definition. -/
def tokens (d : Definition) : List Token :=
  [.word "pub".toList, .word "const".toList, .word d.name.toList, .mark ':', .word d.type.toList,
      .mark '=']
    ++ (if d.value < 0 then [.mark '-'] else [])
    ++ [.number (Nat.toDigits 10 d.value.natAbs), .mark ';']

theorem Valid.type {d : Definition} (h : d.Valid) : Scanning.isWord d.type.toList = true := by
  rcases h.value with ⟨htype, -⟩ | ⟨htype, -⟩ <;> rw [htype] <;> decide

theorem run?_text {d : Definition} (h : d.Valid) :
    Scanning.nothing.run? d.text.toList = some (d.tokens, .nothing) := by
  -- What stands between the parts is fixed, and ends the token before it.
  have hslashes : Scanning.nothing.run? "/// ".toList = some ([], .comment) := rfl
  have hwords : Scanning.comment.run? "\npub const ".toList =
      some ([.word "pub".toList, .word "const".toList], .nothing) := rfl
  have hcolon : (Scanning.word d.name.toList).run? ": ".toList =
      some ([.word d.name.toList, .mark ':'], .nothing) := rfl
  have hsign : (Scanning.word d.type.toList).run?
      (" = ".toList ++ if d.value < 0 then ['-'] else []) =
      some ([.word d.type.toList, .mark '='] ++ (if d.value < 0 then [.mark '-'] else []),
        .nothing) := by
    split <;> rfl
  have hend (digits : List Char) : (Scanning.number digits).run? ";\n".toList =
      some ([.number digits, .mark ';'], .nothing) := rfl
  have hcomment := Scanning.run?_append hslashes (Scanning.run?_comment h.comment)
  have hname := Scanning.run?_append hwords (Scanning.run?_of_isWord h.name)
  have htype := Scanning.run?_append hcolon (Scanning.run?_of_isWord h.type)
  have hvalue := Scanning.run?_append (Scanning.run?_of_digits (digits_toDigits d.value.natAbs))
    (hend _)
  have hall := Scanning.run?_append hcomment (Scanning.run?_append hname
    (Scanning.run?_append htype (Scanning.run?_append hsign hvalue)))
  simpa only [text, tokens, String.toList_append, toList_toString_int, List.append_assoc,
    List.nil_append, List.append_nil, List.cons_append] using hall

theorem valueOf?_eq {d : Definition} (h : d.Valid) :
    valueOf? d.type (decide (d.value < 0)) d.value.natAbs = some d.value := by
  rcases h.value with ⟨htype, hlow, hhigh⟩ | ⟨htype, hlow, hhigh⟩
  · rw [htype, valueOf?, if_pos rfl, if_pos ⟨by simpa using hlow, by omega⟩]
    exact congrArg some (by omega)
  · rw [htype, valueOf?, if_neg (by decide), if_pos rfl]
    by_cases hneg : d.value < 0
    · rw [if_pos (by simpa using hneg), if_pos (by omega)]
      exact congrArg some (by omega)
    · rw [if_neg (by simpa using hneg), if_pos (by omega)]
      exact congrArg some (by omega)

/-- A definition is read before whatever follows it. -/
theorem constants?_tokens {d : Definition} (h : d.Valid) (more : List Token) :
    constants? (d.tokens ++ more) = (constants? more).map (d.constant :: ·) := by
  have hvalue := valueOf?_eq h
  have hfirst : constantOf? "pub".toList "const".toList d.name.toList d.type.toList
      (decide (d.value < 0)) (Nat.toDigits 10 d.value.natAbs) = some d.constant := by
    rw [constantOf?, if_pos ⟨rfl, rfl⟩, String.ofList_toList, String.ofList_toList,
      decimal_toDigits, hvalue]
    rfl
  by_cases hneg : d.value < 0
  · rw [decide_eq_true hneg] at hfirst
    simp only [tokens, hneg, ↓reduceIte, List.cons_append, List.nil_append, constants?, hfirst]
    cases constants? more <;> rfl
  · rw [decide_eq_false hneg] at hfirst
    simp only [tokens, hneg, ↓reduceIte, List.cons_append, List.nil_append, constants?, hfirst]
    cases constants? more <;> rfl

theorem run?_texts {ds : List Definition} (h : ∀ d ∈ ds, d.Valid) :
    Scanning.nothing.run? (String.join (ds.map text)).toList =
      some (ds.flatMap tokens, .nothing) := by
  induction ds with
  | nil => rfl
  | cons d ds ih =>
    rw [List.forall_mem_cons] at h
    rw [List.map_cons, String.join_cons, String.toList_append, List.flatMap_cons]
    exact Scanning.run?_append (run?_text h.1) (ih h.2)

theorem constants?_flatMap_tokens {ds : List Definition} (h : ∀ d ∈ ds, d.Valid) :
    constants? (ds.flatMap tokens) = some (ds.map constant) := by
  induction ds with
  | nil => rfl
  | cons d ds ih =>
    rw [List.forall_mem_cons] at h
    rw [List.flatMap_cons, constants?_tokens h.1, ih h.2]
    rfl

/-- What is printed is read back, behind a line of comment. -/
theorem readConstants?_texts {comment : String} {ds : List Definition}
    (hcomment : '\n' ∉ comment.toList) (h : ∀ d ∈ ds, d.Valid) :
    readConstants? ("//" ++ comment ++ "\n" ++ String.join (ds.map text)) =
      some (ds.map constant) := by
  have hopen : Scanning.nothing.run? "//".toList = some ([], .comment) := rfl
  have hclose : Scanning.comment.run? "\n".toList = some ([], .nothing) := rfl
  have hline := Scanning.run?_append (Scanning.run?_append hopen (Scanning.run?_comment hcomment))
    hclose
  have hall := Scanning.run?_append hline (run?_texts h)
  simp only [readConstants?, tokens?, String.toList_append, hall]
  show constants? ((([] ++ [] ++ []) ++ ds.flatMap tokens) ++ []) = _
  rw [List.append_nil]
  exact constants?_flatMap_tokens h

/-- A type without negative values takes no sign. -/
example : readConstants? "pub const RESERVED_WORDS: usize = -1;" = none := by decide +kernel

end Definition

end Freestanding.Layout
