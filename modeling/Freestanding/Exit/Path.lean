import Freestanding.Build
import Freestanding.Kernel.Delivery
import Freestanding.Region.Probe
import Freestanding.Status.Cell

/-!
# Exit paths

An exit path is a value: the lines it has to say, in order, and the status it ends the process with.
A traced build delivers the lines to the trace descriptor before it ends; a build without tracing
says nothing. What becomes of a line never changes the status, unless an answer of the kernel breaks
the contract of the write call.
-/
namespace Freestanding.Exit

open Freestanding.Kernel
open Freestanding.Region (Placed ProbeReport Span Write)
open Freestanding.Status (Cell Step)

/-- A line of a trace, in the pieces in which it is written. -/
abbrev Line := List String

/-- A line, by what it opens with and the pieces after that. The mark that all lines begin with is
written in one piece with the opening. -/
def line (opening : String) (pieces : List String) : Line := ("[zerostart] " ++ opening) :: pieces

/-- The pieces of an integer: its sign is written before its digits. -/
def integerPieces (n : Int) : List String :=
  (if n < 0 then ["-"] else []) ++ [toString n.natAbs]

/-- The pieces of an address: the mark of its base is written before its digits. -/
def addressPieces (address : UInt64) : List String :=
  ["0x", String.ofList (Nat.toDigits 16 address.toNat)]

def exitLine (status : Int32) : Line :=
  line "exit_group(" (integerPieces status.toInt ++ [")\n"])

def buildLine (build : Build) : Line := line "" [build.profile, " build for ", build.target, "\n"]

def regionLine {words : Nat} (region : Placed words) : Line :=
  line "reserved region at "
    (addressPieces region.address ++ [", ", toString region.region.size, " bytes\n"])

def collaboratorLine : Line := line "collaborator: change_number\n" []

def statusLine (status : Int32) : Line :=
  line "exit status read: " (integerPieces status.toInt ++ ["\n"])

def probeLine (report : ProbeReport) : Line :=
  line "probe: " [toString report.nonzeroBytes, " nonzero bytes, in zero fill: ",
    toString report.inZeroFill, "\n"]

/-- The lines of an exit path, and the status it ends with. -/
structure Path where
  lines : List Line
  status : Int32

def immediate (status : Int32) : Path := ⟨[], status⟩

def leave (status : Int32) : Path := ⟨[exitLine status], status⟩

def Path.after (path : Path) (lines : List Line) : Path := { path with lines := lines ++ path.lines }

/-- The fixed path: names the build and the region, and ends with the fixed status. -/
def fixed (build : Build) {words : Nat} (region : Placed words) : Path :=
  (leave fixedStatus).after [buildLine build, regionLine region]

/-- The line of a step of a mutator; only the collaborator has one. -/
def stepLines : Step → List Line
  | .collaborate => [collaboratorLine]
  | _ => []

/-- The path of the status cell: runs the mutator, reads the cell once, and ends with its value. -/
def withState (build : Build) (cell : Cell) (steps : List Step) : Path :=
  let status := (cell.run build.layout.status steps).value
  (leave status).after (steps.flatMap stepLines ++ [statusLine status])

def withReport (report : ProbeReport) : Path := (leave report.status).after [probeLine report]

/-- The path that probes a region; nothing where the region's end is beyond 64 bits. -/
def withProbe? {words : Nat} (region : Placed words) (zeroFill : Span) : Option Path :=
  (region.probe? zeroFill).map withReport

inductive Ending where
  | exits (status : Int32)
  /-- The kernel claimed to have written more than it was offered. -/
  | overrun (returned : UInt64) (left : Nat)
  deriving DecidableEq, Repr

/-- The argument of the call that ends a process: the status as a 64-bit integer. -/
def exitArgument (status : Int32) : UInt64 := status.toInt64.toUInt64

/-- What the parent of a process sees of the argument: its lowest byte. -/
def parentStatus (argument : UInt64) : UInt8 := argument.toUInt8

/-- Delivers lines whose failure is nobody's concern, and then ends with a status. -/
def finish (status : Int32) (d : Descriptor) : List Line → Transfer Ending
  | [] => ⟨.exits status, [], d⟩
  | l :: ls =>
    let sent := d.note l
    match sent.result with
    | .overrun returned left => ⟨.overrun returned left, sent.calls, sent.after⟩
    | _ => (finish status sent.after ls).following sent.calls

/-- Runs a path with a trace descriptor. -/
def Path.run (path : Path) (traced : Bool) (trace : Descriptor) : Transfer Ending :=
  finish path.status trace (if traced then path.lines else [])

end Freestanding.Exit
