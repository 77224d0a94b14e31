import Freestanding.Layout.Check

/-!
# What a build produces

The definitions of the layout's numbers, the definition that is handed to the compiler of the
collaborator, and the lines that instruct the build.
-/
namespace Freestanding.Layout

open Freestanding.Files (Tree)

structure Product where
  instructions : List String
  /-- The definition that the collaborator is compiled with. -/
  define : String
  /-- The definitions of the layout's numbers. -/
  layout : String
  deriving DecidableEq, Repr

/-- The definition of one number: what it says, its name, its type and its value. -/
structure Definition where
  comment : String
  name : String
  type : String
  value : Int
  deriving DecidableEq, Repr

def Definition.text (d : Definition) : String :=
  "/// " ++ d.comment ++ "\npub const " ++ d.name ++ ": " ++ d.type ++ " = " ++ toString d.value
    ++ ";\n"

def Numbers.definitions (n : Numbers) : List Definition := [
  ⟨"Number of words in the reserved zero region.", "RESERVED_WORDS", "usize", n.words⟩,
  ⟨"Size of one reserved-region word in bytes.", "WORD_SIZE", "usize", n.wordSize⟩,
  ⟨"Value the exit-status cell of `state_exit` holds before the collaborator runs.",
    "COLLABORATOR_INITIAL_STATUS", "i32", n.initialStatus.toInt⟩,
  ⟨"Value the C collaborator writes into the exit-status cell.", "COLLABORATOR_STATUS", "i32",
    n.status.toInt⟩]

def Numbers.layoutText (n : Numbers) : String :=
  "// Generated by build.rs from " ++ fileName ++ ".\n"
    ++ String.join (n.definitions.map Definition.text)

def Numbers.compilerDefine (n : Numbers) : String :=
  "-DCOLLABORATOR_STATUS=" ++ toString n.status.toInt

def instructions (env : Environment) : List String := [
    "cargo:rerun-if-changed=build.rs",
    "cargo:rerun-if-changed=" ++ fileName,
    "cargo:rerun-if-changed=collab/change_number.c",
    "cargo:rustc-link-arg-bins=-nostartfiles",
    "cargo:rustc-link-lib=static=zerostart_collaborator",
    "cargo:rustc-env=BUILD_PROFILE=" ++ orUnknown env.profile,
    "cargo:rustc-env=BUILD_TARGET=" ++ orUnknown env.target]
  ++ if env.traced then
      ["cargo:warning=exit_trace enabled: programs write diagnostics to stderr"]
    else []

/-- What a build in a working directory produces, or why it is refused. -/
def generate (tree : Tree) (env : Environment) : Except Rejection Product := do
  let c ← accept tree env
  return ⟨instructions env, c.numbers.compilerDefine, c.numbers.layoutText⟩

end Freestanding.Layout
