import Freestanding.Layout.Product

/-!
# The steps of a build

A build says lines, writes the layout and compiles the collaborator, and checks on its way. What has
been done stays done when a check fails.
-/
namespace Freestanding.Layout

open Freestanding.Files (Tree inDirectory)

/-- What a build does that is seen from outside. -/
inductive Action where
  | say (line : String)
  | write (path contents : String)
  /-- Compiles the collaborator with a definition. -/
  | compile (define : String)
  deriving DecidableEq, Repr

/-- Steps that collect what has been done, up to the first rejection. -/
abbrev Steps := ExceptT Rejection (StateM (List Action))

def act (action : Action) : Steps Unit := modify (· ++ [action])

def check {α : Type} (result : Except Rejection α) : Steps α := ExceptT.mk (pure result)

/-- Asks for another build whenever a file changes. -/
def watch (path : String) : Steps Unit := act (.say ("cargo:rerun-if-changed=" ++ path))

def loadConfiguration (tree : Tree) : Steps Configuration := do
  let c ← check (readConfiguration tree)
  check c.checkLayout
  return c

def Configuration.writeLayout (c : Configuration) (tree : Tree) (env : Environment) :
    Steps Unit := do
  match env.outputDirectory with
  | none => throw .noOutput
  | some directory =>
    check ((tree.checkWrite directory layoutName).mapError (.unwritable directory))
    act (.write (inDirectory directory layoutName) c.numbers.layoutText)

/-- Keeps the start files of the run-time library out of the programs. -/
def setLinker : Steps Unit := act (.say "cargo:rustc-link-arg-bins=-nostartfiles")

def Configuration.compileCollaborator (c : Configuration) : Steps Unit := do
  act (.compile c.numbers.compilerDefine)
  act (.say "cargo:rustc-link-lib=static=zerostart_collaborator")

def Environment.tellBuild (env : Environment) : Steps Unit := do
  act (.say ("cargo:rustc-env=BUILD_PROFILE=" ++ orUnknown env.profile))
  act (.say ("cargo:rustc-env=BUILD_TARGET=" ++ orUnknown env.target))
  if env.traced then
    act (.say "cargo:warning=exit_trace enabled: programs write diagnostics to stderr")

def steps (tree : Tree) (env : Environment) : Steps Unit := do
  watch "build.rs"
  watch fileName
  watch "collab/change_number.c"
  let c ← loadConfiguration tree
  check (c.checkTarget env)
  c.writeLayout tree env
  setLinker
  c.compileCollaborator
  env.tellBuild

/-- How a build ended, and everything that it did. -/
structure Run where
  outcome : Except Rejection Unit
  actions : List Action

/-- The lines that a run says. -/
def Run.lines (run : Run) : List String :=
  run.actions.filterMap fun
    | .say line => some line
    | _ => none

def build (tree : Tree) (env : Environment) : Run :=
  let (outcome, actions) := (steps tree env).run.run []
  ⟨outcome, actions⟩

end Freestanding.Layout
