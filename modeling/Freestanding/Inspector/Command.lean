import Freestanding.Files.Tree
import Freestanding.Image.Placement

/-!
# The inspection command

The command takes the path of an image and, if given, the name of a symbol. It says where the symbol
is placed, and its exit status tells storage in memory from storage in the file.
-/
namespace Freestanding.Inspector

open Freestanding.Files (FileError)
open Freestanding.Image (InspectError Placement inspectSymbol)

def defaultSymbol : String := "RESERVED_REGION"

/-- What files hold, by their paths, or how their reading fails. -/
abbrev FileReader := String → Except FileError (List UInt8)

/-- The placement of a symbol in the image that a file holds. -/
def inspectFile (contents : Except FileError (List UInt8)) (name : String) :
    Except InspectError Placement :=
  match contents with
  | .error e => .error (.unreadable e.message)
  | .ok bytes => inspectSymbol bytes name

/-- What a run of a command leaves: its exit status and what it wrote. -/
structure Outcome where
  status : UInt8
  output : String
  errors : String
  deriving DecidableEq, Repr

def usage : Outcome := ⟨2, "", "Usage: zerostart-inspect <elf> [symbol]\n"⟩

def report (path symbol : String) : Except InspectError Placement → Outcome
  | .error e => ⟨2, "", path ++ ": " ++ e.message ++ "\n"⟩
  | .ok placement =>
    let output := path ++ ": " ++ placement.text ++ "\n"
    if placement.isStored then
      ⟨1, output, symbol ++ " is stored in the image, not zero-filled\n"⟩
    else ⟨0, output, ""⟩

def request? : List String → Option (String × String)
  | [path] => some (path, defaultSymbol)
  | [path, symbol] => some (path, symbol)
  | _ => none

/-- Runs the command on its arguments. -/
def run (readFile : FileReader) (arguments : List String) : Outcome :=
  match request? arguments with
  | none => usage
  | some (path, symbol) => report path symbol (inspectFile (readFile path) symbol)

end Freestanding.Inspector
