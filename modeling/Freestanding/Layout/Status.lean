import Freestanding.Json.Record
import Freestanding.Text.Numeral

/-!
# Exit statuses in a configuration

An exit status is an integer of 32 bits. It is given as an integer, or as a text that holds a numeral
between white space.
-/
namespace Freestanding.Layout

open Freestanding.Json (Scalar Failure)
open Freestanding.Text (integer? trim)

inductive StatusError where
  /-- An integer of at most 64 bits has more than 32. -/
  | range
  /-- A text holds no numeral of 32 bits. -/
  | notNumeric (text : String)
  /-- The value is neither an integer of 64 bits nor a text. -/
  | form
  deriving DecidableEq, Repr

def StatusError.message : StatusError → String
  | .range => "exit status out of i32 range"
  | .notNumeric text => "exit status must be numeric, received '" ++ text ++ "'"
  | .form => "data did not match any variant of untagged enum StatusRaw"

def int32? (i : Int) : Option Int32 :=
  if -0x80000000 ≤ i ∧ i < 0x80000000 then some (Int32.ofInt i) else none

def statusOf : Scalar → Except StatusError Int32
  | .integer i =>
    if -0x8000000000000000 ≤ i ∧ i < 0x8000000000000000 then (int32? i).elim (.error .range) .ok
    else .error .form
  | .text t => ((integer? (trim t.toList)).bind int32?).elim (.error (.notNumeric t)) .ok
  | .other => .error .form

/-- Reads an exit status. A value that is read and then refused is reported at the end of the record
it belongs to. -/
def readStatus (depth : Nat) (cs : List Char) : Except Failure (Int32 × List Char) := do
  let (scalar, rest) ← Json.value depth cs
  match statusOf scalar with
  | .ok status => return (status, rest)
  | .error e => .error (.unplaced (.refused e.message) rest)

end Freestanding.Layout
