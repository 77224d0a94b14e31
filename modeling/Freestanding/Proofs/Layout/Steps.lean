import Freestanding.Layout.Steps
import Freestanding.Proofs.Layout.Acceptance

/-!
# What the steps of a build leave

The checks among the steps are the checks in a row, and nothing lasting is done before the last of
them. So a build that is rejected has said which files it depends on, and one that is not has
written its layout, compiled the collaborator and said every line.
-/
namespace Freestanding.Layout

open Freestanding.Files (Tree inDirectory)

variable {α β : Type} {tree : Tree} {env : Environment} {c : Configuration} {r : Rejection}

/-! ## The checks in a row -/

def opening : Steps Unit := do
  watch "build.rs"
  watch fileName
  watch "collab/change_number.c"

end Freestanding.Layout
