import Freestanding.Inspector.Command

/-!
# The inspection program
-/
namespace Freestanding

open Files (FileError)
open Inspector (Outcome)

/-- The failure of a system error code, which may come with its sign as a 32-bit word. -/
def ofCode (code : UInt32) (words : String) : FileError :=
  .ofNumber code.toInt32.toInt.natAbs words

/-- The failure that the system reports when a file is read. -/
def fileError : IO.Error → FileError
  | .noFileOrDirectory _ code words => ofCode code words
  | .inappropriateType _ code words => ofCode code words
  | .invalidArgument _ code words => ofCode code words
  | .permissionDenied _ code words => ofCode code words
  | .resourceExhausted _ code words => ofCode code words
  | .noSuchThing _ code words => ofCode code words
  | .hardwareFault code words => ofCode code words
  | e => .other (toString e)

def readFile (path : String) : IO (Except FileError (List UInt8)) := do
  if path.toList.contains '\x00' then return .error .zeroCharacter
  try
    return .ok (← IO.FS.readBinFile path).data.toList
  catch e => return .error (fileError e)

/-- Writes what a run leaves and gives its exit status. -/
def deliver (outcome : Outcome) : IO UInt32 := do
  IO.print outcome.output
  IO.eprint outcome.errors
  return outcome.status.toUInt32

end Freestanding

def main (arguments : List String) : IO UInt32 := do
  -- A run looks at no other file than the one that it asks for.
  let contents ← match Freestanding.Inspector.request? arguments with
    | none => pure (.error .notFound)
    | some (path, _) => Freestanding.readFile path
  Freestanding.deliver (Freestanding.Inspector.run (fun _ => contents) arguments)
