import Freestanding.Json.Number
import Freestanding.Json.Text

/-!
# Values of any kind

What stands at the front of a text, for a report, and the reading of a value of any kind. Of a list or
an object only its end matters here; an integer and a text are kept.
-/
namespace Freestanding.Json

/-- A value, as far as it is kept. -/
inductive Scalar where
  | integer (value : Int)
  | text (value : String)
  | other
  deriving DecidableEq, Repr

def Number.found : Number → Found
  | .natural n => .integer n
  | .negative n => .integer (-n)
  | .real f => .real f

def Number.scalar : Number → Scalar
  | .natural n => .integer n
  | .negative n => .integer (-n)
  | .real _ => .other

def signedNumber (cs : List Char) : Scan Number :=
  match cs with
  | '-' :: rest => number false rest
  | _ => number true cs

def beginsNumber (c : Char) : Bool := c == '-' || isDigit c

/-- What stands at the front of a text. A list or an object is named and left where it is. -/
def found (cs : List Char) : Except Failure (Found × List Char) :=
  match cs with
  | [] => failAfter .noValue []
  | 'n' :: rest => (word ['u', 'l', 'l'] rest).map (Found.null, ·)
  | 't' :: rest => (word ['r', 'u', 'e'] rest).map (Found.boolean true, ·)
  | 'f' :: rest => (word ['a', 'l', 's', 'e'] rest).map (Found.boolean false, ·)
  | '"' :: rest => (textBody rest).map fun (text, left) => (.text (String.ofList text), left)
  | '[' :: _ => .ok (.list, cs)
  | '\x7b' :: _ => .ok (.object, cs)
  | c :: _ =>
    if beginsNumber c then (signedNumber cs).map fun (n, left) => (n.found, left)
    else failAfter .noValue cs

/-- Refuses what stands at the front of a text, because another kind is expected. -/
def refuseKind {α : Type} (expected : String) (cs : List Char) : Except Failure α := do
  let (what, rest) ← found cs
  failAt (.wrongKind what expected) rest

inductive Next where
  /-- An element, or the key of a member after its quotation mark. -/
  | item (rest : List Char)
  /-- The closing bracket. -/
  | closing (rest : List Char)

/-- Looks for the next element of a list. Every element but the first follows a comma. -/
def nextElement (first : Bool) (cs : List Char) : Except Failure Next :=
  match skipSpace cs with
  | [] => failAfter .endInList []
  | ']' :: rest => .ok (.closing (']' :: rest))
  | c :: rest =>
    if first then .ok (.item (c :: rest))
    else if c = ',' then
      match skipSpace rest with
      | [] => failAfter .endInValue []
      | ']' :: rest => failAfter .trailingComma (']' :: rest)
      | rest => .ok (.item rest)
    else failAfter .noListEnd (c :: rest)

/-- Looks for the next member of an object. Every member but the first follows a comma. -/
def nextMember (first : Bool) (cs : List Char) : Except Failure Next :=
  match skipSpace cs with
  | [] => failAfter .endInObject []
  | '\x7d' :: rest => .ok (.closing ('\x7d' :: rest))
  | c :: rest =>
    if first then
      if c = '"' then .ok (.item rest) else failAfter .noKey (c :: rest)
    else if c = ',' then
      match skipSpace rest with
      | [] => failAfter .endInValue []
      | '\x7d' :: rest => failAfter .trailingComma ('\x7d' :: rest)
      | '"' :: rest => .ok (.item rest)
      | rest => failAfter .noKey rest
    else failAfter .noObjectEnd (c :: rest)

def colon (cs : List Char) : Except Failure (List Char) :=
  match skipSpace cs with
  | [] => failAfter .endInObject []
  | ':' :: rest => .ok rest
  | rest => failAfter .noColon rest

mutual

/-- Reads a value of any kind, with at most `depth` levels of lists and objects, the innermost of
which is refused. Each of the three functions spends a unit of fuel for each character it takes. -/
def valueWithin (depth : Nat) : Nat → List Char → Except Failure (Scalar × List Char)
  | 0, _ => failAt .tooDeep []
  | fuel + 1, cs =>
    match skipSpace cs with
    | [] => failAfter .endInValue []
    | 'n' :: rest => (word ['u', 'l', 'l'] rest).map (Scalar.other, ·)
    | 't' :: rest => (word ['r', 'u', 'e'] rest).map (Scalar.other, ·)
    | 'f' :: rest => (word ['a', 'l', 's', 'e'] rest).map (Scalar.other, ·)
    | '"' :: rest => (textBody rest).map fun (text, left) => (.text (String.ofList text), left)
    | '[' :: rest =>
      if depth ≤ 1 then failAfter .tooDeep ('[' :: rest)
      else (elementsWithin (depth - 1) fuel true rest).map (Scalar.other, ·)
    | '\x7b' :: rest =>
      if depth ≤ 1 then failAfter .tooDeep ('\x7b' :: rest)
      else (membersWithin (depth - 1) fuel true rest).map (Scalar.other, ·)
    | c :: rest =>
      if beginsNumber c then (signedNumber (c :: rest)).map fun (n, left) => (n.scalar, left)
      else failAfter .noValue (c :: rest)

def elementsWithin (depth : Nat) : Nat → Bool → List Char → Except Failure (List Char)
  | 0, _, _ => failAt .tooDeep []
  | fuel + 1, first, cs => do
    match ← nextElement first cs with
    | .closing rest => return rest.tail
    | .item rest =>
      let (_, rest) ← valueWithin depth fuel rest
      elementsWithin depth fuel false rest

def membersWithin (depth : Nat) : Nat → Bool → List Char → Except Failure (List Char)
  | 0, _, _ => failAt .tooDeep []
  | fuel + 1, first, cs => do
    match ← nextMember first cs with
    | .closing rest => return rest.tail
    | .item rest =>
      let (_, rest) ← textBody rest
      let rest ← colon rest
      let (_, rest) ← valueWithin depth fuel rest
      membersWithin depth fuel false rest

end

/-- Reads a value of any kind. Every second call takes a character, so the fuel suffices. -/
def value (depth : Nat) (cs : List Char) : Except Failure (Scalar × List Char) :=
  valueWithin depth (2 * cs.length + 2) cs

end Freestanding.Json
