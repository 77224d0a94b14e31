import Freestanding.Decimal.Shortest
import Freestanding.Text.Quoted
import Freestanding.Text.Utf8

/-!
# Why a JSON text is refused

A fault is a cause and the place at which it is shown. While a text is read, a place is the number of
bytes that are left from it on; only the report turns it into a line and a column.
-/
namespace Freestanding.Json

open Freestanding.Text (byteCount quoted)

/-- A value that stands where another kind is expected. -/
inductive Found where
  | null
  | boolean (value : Bool)
  | integer (value : Int)
  | real (value : Float)
  | text (value : String)
  | list
  | object

inductive Cause where
  /-- The text ends where a value, or more of one, is due. -/
  | endInValue
  | endInText
  | endInList
  | endInObject
  | noValue
  /-- A word is not one of the three of the language. -/
  | noWord
  | noColon
  /-- An element is followed neither by a comma nor by the end of the list. -/
  | noListEnd
  /-- A member is followed neither by a comma nor by the end of the object. -/
  | noObjectEnd
  | noKey
  /-- A comma is followed by the end of the list or the object. -/
  | trailingComma
  /-- Something follows where nothing more is due. -/
  | trailing
  | badNumber
  /-- A number is too large for a floating-point number. -/
  | numberRange
  | badEscape
  /-- Half of a surrogate pair stands alone. -/
  | lonePair
  /-- The first half of a surrogate pair is not followed by an escape. -/
  | brokenPair
  | control
  | tooDeep
  | unknownKey (key : String) (known : List String)
  | repeatedKey (key : String)
  | missingKey (key : String)
  /-- A list holds fewer elements than the record that these words name has fields. -/
  | shortList (length : Nat) (record : String) (fields : Nat)
  | wrongKind (found : Found) (expected : String)
  | wrongInteger (value : Int) (expected : String)
  /-- A value is refused by what it is for. -/
  | refused (reason : String)

inductive Failure where
  /-- The cause is shown where so many bytes are left. -/
  | placed (cause : Cause) (left : Nat)
  /-- The cause is shown at the end of the list or the object that is being read; so much of the text
  is left. -/
  | unplaced (cause : Cause) (rest : List Char)

/-- What reading a value from the front of a text gives: the value and the rest of the text. -/
abbrev Scan (α : Type) := Except Failure (α × List Char)

/-- Fails where the rest begins. -/
def failAt {α : Type} (cause : Cause) (rest : List Char) : Except Failure α :=
  .error (.placed cause (byteCount rest))

/-- Fails one byte into the rest, or at its end. -/
def failAfter {α : Type} (cause : Cause) (rest : List Char) : Except Failure α :=
  .error (.placed cause (byteCount rest - 1))

/-- Floating-point numbers are positional from `10 ^ -5` to below `10 ^ 16`. -/
def numberStyle : Decimal.Style := ⟨-5, 15⟩

def Found.words : Found → String
  | .null => "null"
  | .boolean value => "boolean `" ++ toString value ++ "`"
  | .integer value => "integer `" ++ toString value ++ "`"
  | .real value => "floating point `" ++ numberStyle.float value ++ "`"
  | .text value => "string " ++ quoted value
  | .list => "sequence"
  | .object => "map"

def shownKey (key : String) : String := "`" ++ key ++ "`"

def shownKeys : List String → String
  | [one] => shownKey one
  | [one, other] => shownKey one ++ " or " ++ shownKey other
  | keys => "one of " ++ ", ".intercalate (keys.map shownKey)

def Cause.message : Cause → String
  | .endInValue => "EOF while parsing a value"
  | .endInText => "EOF while parsing a string"
  | .endInList => "EOF while parsing a list"
  | .endInObject => "EOF while parsing an object"
  | .noValue => "expected value"
  | .noWord => "expected ident"
  | .noColon => "expected `:`"
  | .noListEnd => "expected `,` or `]`"
  | .noObjectEnd => "expected `,` or `\x7d`"
  | .noKey => "key must be a string"
  | .trailingComma => "trailing comma"
  | .trailing => "trailing characters"
  | .badNumber => "invalid number"
  | .numberRange => "number out of range"
  | .badEscape => "invalid escape"
  | .lonePair => "lone leading surrogate in hex escape"
  | .brokenPair => "unexpected end of hex escape"
  | .control => "control character (\\u0000-\\u001F) found while parsing a string"
  | .tooDeep => "recursion limit exceeded"
  | .unknownKey key known => "unknown field " ++ shownKey key ++ ", expected " ++ shownKeys known
  | .repeatedKey key => "duplicate field " ++ shownKey key
  | .missingKey key => "missing field " ++ shownKey key
  | .shortList length record fields =>
    "invalid length " ++ toString length ++ ", expected " ++ record ++ " with "
      ++ toString fields ++ " elements"
  | .wrongKind found expected => "invalid type: " ++ found.words ++ ", expected " ++ expected
  | .wrongInteger value expected =>
    "invalid value: integer `" ++ toString value ++ "`, expected " ++ expected
  | .refused reason => reason

/-- A line, counted from one, and the bytes of it that stand before the place. -/
structure Position where
  line : Nat
  column : Nat
  deriving DecidableEq, Repr

def Position.next (p : Position) (byte : UInt8) : Position :=
  if byte = 10 then ⟨p.line + 1, 0⟩ else ⟨p.line, p.column + 1⟩

def Position.after (bytes : List UInt8) : Position := bytes.foldl Position.next ⟨1, 0⟩

structure Fault where
  cause : Cause
  position : Position

/-- The fault of a failure to read a text of these bytes. -/
def Failure.fault (bytes : List UInt8) : Failure → Fault
  | .placed cause left => ⟨cause, .after (bytes.take (bytes.length - left))⟩
  | .unplaced cause rest => ⟨cause, .after (bytes.take (bytes.length - byteCount rest))⟩

def Fault.message (f : Fault) : String :=
  f.cause.message ++ " at line " ++ toString f.position.line ++ " column "
    ++ toString f.position.column

end Freestanding.Json
