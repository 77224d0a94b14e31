/-!
# The exit-status cell

One 32-bit integer that a mutator writes and an exit path reads. A parent process sees only its low
byte.
-/
namespace Freestanding.Status

/-- The bits of an exit status that reach the parent. -/
def observableMask : Int32 := 255

def observed (status : Int32) : UInt8 := (status &&& observableMask).toUInt32.toUInt8

/-- The cell that holds the pending exit status. -/
structure Cell where
  value : Int32 := 0
  deriving DecidableEq, Repr

inductive Writer where
  | mutator
  /-- Code that was given a pointer to the integer. -/
  | pointer
  /-- A thread that is joined before the mutator goes on. -/
  | thread
  deriving DecidableEq, Repr

inductive Step where
  | read
  | write (writer : Writer) (value : Int32)
  /-- Lets the collaborator write its configured value. -/
  | collaborate
  deriving DecidableEq, Repr

/-- The value that a step writes, if it writes; the collaborator writes `configured`. -/
def Step.written? (configured : Int32) : Step → Option Int32
  | .read => none
  | .write _ value => some value
  | .collaborate => some configured

/-- The cell after a step. Every writer is ordered before the next step, so all write alike. -/
def Cell.step (configured : Int32) (cell : Cell) (s : Step) : Cell :=
  ⟨(s.written? configured).getD cell.value⟩

def Cell.run (configured : Int32) (cell : Cell) (steps : List Step) : Cell :=
  steps.foldl (Cell.step configured) cell

@[simp] theorem Cell.run_nil (configured : Int32) (cell : Cell) :
    cell.run configured [] = cell := rfl

@[simp] theorem Cell.run_cons (configured : Int32) (cell : Cell) (s : Step) (steps : List Step) :
    cell.run configured (s :: steps) = (cell.step configured s).run configured steps := rfl

def Cell.record (cell : Cell) : String := "ExitStatusCell(" ++ toString cell.value.toInt ++ ")"

/-- The cell with its value on a line of its own. -/
def Cell.spreadRecord (cell : Cell) : String :=
  "ExitStatusCell(\n    " ++ toString cell.value.toInt ++ ",\n)"

end Freestanding.Status
