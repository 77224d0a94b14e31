import Freestanding.Exit.Path

/-!
# The programs

Each program is one exit path. None looks at its arguments or its environment.
-/
namespace Freestanding.Exit

open Freestanding.Region (Placed Span Reserved)

inductive Program where
  /-- Ends with the fixed status. -/
  | fixedExit
  /-- Ends with the status that the collaborator writes. -/
  | stateExit
  /-- Ends with the status of a probe of the reserved region. -/
  | zeroProbe
  deriving DecidableEq, Repr

def Program.ofName? : String → Option Program
  | "fixed_exit" => some .fixedExit
  | "state_exit" => some .stateExit
  | "zero_probe" => some .zeroProbe
  | _ => none

/-- Where a loaded program has its reserved region, and the memory that the loader filled with
zeros. -/
structure Loaded where
  region : UInt64
  zeroFill : Span

/-- The path of a program as it is loaded: its region is zero. -/
def Program.path? (build : Build) (loaded : Loaded) : Program → Option Path
  | .fixedExit => some (fixed build (⟨loaded.region, .fresh build.layout.words⟩ : Placed _))
  | .stateExit => some (withState build ⟨build.layout.initialStatus⟩ [.collaborate])
  | .zeroProbe => withProbe? (⟨loaded.region, .fresh build.layout.words⟩ : Placed _) loaded.zeroFill

end Freestanding.Exit
