import Freestanding.Exit.Path

/-!
# Exit procedures

A procedure ends the process. It goes through its actions in order: it says lines, which only a
traced build delivers, and takes the steps of a mutator on the status cell. Then it ends the process
with a status that depends on what the process holds at that time.
-/
namespace Freestanding.Exit

open Freestanding.Kernel
open Freestanding.Region (Placed ProbeReport Resident Span)
open Freestanding.Status (Cell Step)

/-- What a process holds in memory: its status cell and its reserved region. -/
structure Statics (words : Nat) where
  cell : Cell
  region : Resident words

inductive Action (words : Nat) where
  /-- Says a line, which may tell what the process holds. -/
  | say (text : Statics words → Line)
  | step (s : Step)

variable {words : Nat}

/-- What the process holds after a step of the mutator. -/
def Statics.step (held : Statics words) (configured : Int32) (s : Step) : Statics words :=
  { held with cell := held.cell.step configured s }

/-- Goes through actions and ends with a status. What becomes of a line does not matter, unless an
answer of the kernel breaks the contract of the write call. -/
def perform (build : Build) (status : Statics words → Int32) :
    List (Action words) → Statics words → Descriptor → Transfer (Ending × Statics words)
  | [], held, d => ⟨(.exits (status held), held), [], d⟩
  | .step s :: actions, held, d => perform build status actions (held.step build.layout.status s) d
  | .say text :: actions, held, d =>
    let sent := d.note (if build.traced then text held else [])
    match sent.result with
    | .overrun returned left => ⟨(.overrun returned left, held), sent.calls, sent.after⟩
    | _ => (perform build status actions held sent.after).following sent.calls

/-- The collaborator is announced before it writes. -/
def stepActions (s : Step) : List (Action words) :=
  (stepLines s).map (fun l => .say fun _ => l) ++ [.step s]

inductive Procedure where
  | exit (status : Int32)
  | fixed
  /-- Runs a mutator on the status cell and ends with the cell's value. -/
  | withState (steps : List Step)
  /-- Probes the reserved region, given the memory that the loader fills with zeros. -/
  | withProbe (zeroFill : Span)

def Procedure.status (held : Statics words) : Procedure → Int32
  | .exit status => status
  | .fixed => fixedStatus
  | .withState _ => held.cell.value
  | .withProbe zeroFill => (held.region.report zeroFill).status

/-- What a procedure does before it leaves. -/
def Procedure.work (build : Build) : Procedure → List (Action words)
  | .exit _ => []
  | .fixed =>
    [.say fun _ => buildLine build, .say fun held => regionLine held.region.toPlaced]
  | .withState steps =>
    steps.flatMap stepActions ++ [.say fun held => statusLine held.cell.value]
  | .withProbe zeroFill => [.say fun held => probeLine (held.region.report zeroFill)]

def Procedure.actions (build : Build) (p : Procedure) : List (Action words) :=
  p.work build ++ [.say fun held => exitLine (p.status held)]

/-- Runs a procedure with a trace descriptor: how the process ends, and what it holds then. -/
def Procedure.run (build : Build) (p : Procedure) (held : Statics words) (trace : Descriptor) :
    Transfer (Ending × Statics words) :=
  perform build p.status (p.actions build) held trace

/-- The path of a procedure: its lines and its status, without the memory. -/
def Procedure.path (build : Build) (held : Statics words) : Procedure → Path
  | .exit status => leave status
  | .fixed => Exit.fixed build held.region.toPlaced
  | .withState steps => Exit.withState build held.cell steps
  | .withProbe zeroFill => withReport (held.region.report zeroFill)

end Freestanding.Exit
