import Freestanding.Text.Numeral

/-!
# The grammar of JSON

What a JSON text says, and the ways of writing it down. A value may be written in many ways: with
any white space between its tokens, and with any character of a text written as itself or as an
escape. The relations below hold of a value and each of the ways of writing it.
-/
namespace Freestanding.Json

open Freestanding.Text (hexDigit?)

/-- The exponent of a number: its mark, its sign, which may be missing, and its digits. -/
structure Exponent where
  mark : Char
  sign : List Char
  digits : List Char
  deriving DecidableEq, Repr

/-- A number as it is written. -/
structure Numeral where
  negative : Bool
  whole : List Char
  fraction : Option (List Char)
  exponent : Option Exponent
  deriving DecidableEq, Repr

/-- A value. Numbers are kept as they are written. -/
inductive Value where
  | null
  | boolean (b : Bool)
  | number (n : Numeral)
  | text (s : String)
  | list (values : List Value)
  | object (members : List (String × Value))

/-! ## Numbers -/

def Digits (cs : List Char) : Prop := cs ≠ [] ∧ ∀ c ∈ cs, '0' ≤ c ∧ c ≤ '9'

instance : DecidablePred Digits := fun cs =>
  have : Decidable (∀ c ∈ cs, '0' ≤ c ∧ c ≤ '9') := List.decidableBAll _ cs
  inferInstanceAs (Decidable (_ ∧ _))

def decimal (digits : List Char) : Nat := Nat.ofDigitChars 10 digits 0

namespace Numeral

def chars (n : Numeral) : List Char :=
  (if n.negative then ['-'] else []) ++ n.whole
    ++ n.fraction.elim [] (fun digits => '.' :: digits)
    ++ n.exponent.elim [] (fun e => e.mark :: e.sign ++ e.digits)

/-- The whole part has no zero in front, unless it is zero. -/
structure Valid (n : Numeral) : Prop where
  whole : Digits n.whole
  front : n.whole.head? = some '0' → n.whole = ['0']
  fraction : ∀ digits, n.fraction = some digits → Digits digits
  exponent : ∀ e, n.exponent = some e →
    (e.mark = 'e' ∨ e.mark = 'E') ∧ e.sign ∈ [[], ['+'], ['-']] ∧ Digits e.digits

/-- There is neither a fraction nor an exponent. -/
def IsInteger (n : Numeral) : Prop := n.fraction = none ∧ n.exponent = none

theorem IsInteger.chars {n : Numeral} (h : n.IsInteger) :
    n.chars = (if n.negative then ['-'] else []) ++ n.whole := by
  simp [Numeral.chars, h.1, h.2]

theorem IsInteger.valid {n : Numeral} (h : n.IsInteger) (hw : Digits n.whole)
    (hfront : n.whole.head? = some '0' → n.whole = ['0']) : n.Valid where
  whole := hw
  front := hfront
  fraction digits hd := by rw [h.1] at hd; cases hd
  exponent e he := by rw [h.2] at he; cases he

def integer (n : Numeral) : Int := if n.negative then -decimal n.whole else decimal n.whole

end Numeral

/-! ## Texts -/

def isHalf (n : Nat) : Prop := 0xD800 ≤ n ∧ n ≤ 0xDFFF

instance : DecidablePred isHalf := fun _ => inferInstanceAs (Decidable (_ ∧ _))

/-- The letters of the short escapes, with what they stand for. -/
def shortEscapes : List (Char × Char) := [
  ('"', '"'), ('\\', '\\'), ('/', '/'), ('b', '\x08'), ('f', '\x0c'), ('n', '\n'), ('r', '\r'),
  ('t', '\t')]

/-- Four hexadecimal digits and the unit that they spell. -/
inductive SpellsUnit : Nat → List Char → Prop
  | mk {a b c d : Char} {w x y z : Nat} : hexDigit? a = some w → hexDigit? b = some x →
      hexDigit? c = some y → hexDigit? d = some z →
      SpellsUnit (((w * 16 + x) * 16 + y) * 16 + z) [a, b, c, d]

/-- A character of a text and a way of writing it. A character beyond the first plane may be written
as a pair of halves. -/
inductive SpellsChar : Char → List Char → Prop
  | itself {c : Char} : 0x20 ≤ c.toNat → c ≠ '"' → c ≠ '\\' → SpellsChar c [c]
  | short {letter c : Char} : (letter, c) ∈ shortEscapes → SpellsChar c ['\\', letter]
  | unit {n : Nat} {digits : List Char} : SpellsUnit n digits → ¬ isHalf n →
      SpellsChar (Char.ofNat n) ('\\' :: 'u' :: digits)
  | pair {high low : Nat} {digits others : List Char} : SpellsUnit high digits →
      SpellsUnit low others → 0xD800 ≤ high → high ≤ 0xDBFF → 0xDC00 ≤ low → low ≤ 0xDFFF →
      SpellsChar (Char.ofNat (0x10000 + (high - 0xD800) * 0x400 + (low - 0xDC00)))
        ('\\' :: 'u' :: digits ++ '\\' :: 'u' :: others)

inductive SpellsChars : List Char → List Char → Prop
  | nil : SpellsChars [] []
  | cons {c : Char} {cs written others : List Char} : SpellsChar c written →
      SpellsChars cs others → SpellsChars (c :: cs) (written ++ others)

inductive SpellsText : String → List Char → Prop
  | mk {cs body : List Char} : SpellsChars cs body →
      SpellsText (String.ofList cs) ('"' :: body ++ ['"'])

/-! ## Values -/

/-- White space between tokens. -/
def Blank (cs : List Char) : Prop := ∀ c ∈ cs, c = ' ' ∨ c = '\t' ∨ c = '\n' ∨ c = '\r'

instance : DecidablePred Blank := fun cs => List.decidableBAll _ cs

/-- The items after the first, each behind a comma, up to the closing bracket. -/
inductive Others {α : Type} (item : α → List Char → Prop) : List α → List Char → Prop
  | ends {blank : List Char} : Blank blank → Others item [] blank
  | next {a : α} {as : List α} {blank before written others : List Char} : Blank blank →
      Blank before → item a written → Others item as others →
      Others item (a :: as) (blank ++ ',' :: before ++ written ++ others)

/-- The items between two brackets. -/
inductive Items {α : Type} (item : α → List Char → Prop) : List α → List Char → Prop
  | none {blank : List Char} : Blank blank → Items item [] blank
  | some {a : α} {as : List α} {before written others : List Char} : Blank before →
      item a written → Others item as others → Items item (a :: as) (before ++ written ++ others)

/-- A key and a value, with a colon between them. -/
inductive SpellsMember {α : Type} (item : α → List Char → Prop) : String × α → List Char → Prop
  | mk {key : String} {a : α} {name before after written : List Char} : SpellsText key name →
      Blank before → Blank after → item a written →
      SpellsMember item (key, a) (name ++ before ++ ':' :: after ++ written)

/-- A value and a way of writing it. -/
inductive Spells : Value → List Char → Prop
  | null : Spells .null ['n', 'u', 'l', 'l']
  | yes : Spells (.boolean true) ['t', 'r', 'u', 'e']
  | no : Spells (.boolean false) ['f', 'a', 'l', 's', 'e']
  | number {n : Numeral} : n.Valid → Spells (.number n) n.chars
  | text {s : String} {written : List Char} : SpellsText s written → Spells (.text s) written
  | list {values : List Value} {body : List Char} : Items Spells values body →
      Spells (.list values) ('[' :: body ++ [']'])
  | object {members : List (String × Value)} {body : List Char} :
      Items (SpellsMember Spells) members body →
      Spells (.object members) ('\x7b' :: body ++ ['\x7d'])

/-- A text that holds one value and nothing else but white space. -/
inductive Document : Value → List Char → Prop
  | mk {v : Value} {before written after : List Char} : Blank before → Spells v written →
      Blank after → Document v (before ++ written ++ after)

end Freestanding.Json
