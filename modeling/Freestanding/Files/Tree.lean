import Freestanding.Text.Utf8

/-!
# Files and paths

A tree of files with the directory that programs run in, what a path leads to in it, the reading of
a file, and whether a file can be written in a directory. A path is followed from left to right, so
the first of its parts that cannot be followed decides the failure.
-/
namespace Freestanding.Files

open Freestanding.Text (utf8)

/-- What stands at a place of a tree. -/
inductive Node where
  | file (bytes : List UInt8)
  | directory
  deriving DecidableEq, Repr

/-- The places of a tree are given by the parts of their paths from the root. The directories on the
way to an entry or to the working directory exist without entries of their own. -/
structure Tree where
  /-- The place at which paths begin that do not begin at the root. -/
  workingDirectory : List String
  entries : List (List String × Node)
  deriving Repr

inductive FileError where
  | notFound
  | notDirectory
  | isDirectory
  | nameTooLong
  /-- The path holds a zero character. -/
  | zeroCharacter
  /-- Any other failure, by its report. -/
  | other (reason : String)
  deriving DecidableEq, Repr

def FileError.message : FileError → String
  | .notFound => "No such file or directory (os error 2)"
  | .notDirectory => "Not a directory (os error 20)"
  | .isDirectory => "Is a directory (os error 21)"
  | .nameTooLong => "File name too long (os error 36)"
  | .zeroCharacter => "file name contained an unexpected NUL byte"
  | .other reason => reason

/-- The failure of a system error number, where it is known; otherwise its report is made of the words
for the number. -/
def FileError.ofNumber (number : Nat) (words : String) : FileError :=
  match number with
  | 2 => .notFound
  | 20 => .notDirectory
  | 21 => .isDirectory
  | 36 => .nameTooLong
  | _ => .other (words ++ " (os error " ++ toString number ++ ")")

/-- The longest name of a file, in bytes. -/
def maxName : Nat := 255

/-- The least length of a path, in bytes, that is too long. -/
def pathLimit : Nat := 4096

/-- What stands at a place. -/
def Tree.node? (tree : Tree) (place : List String) : Option Node :=
  match tree.entries.find? (·.1 == place) with
  | some entry => some entry.2
  | none =>
    if place.isPrefixOf tree.workingDirectory || tree.entries.any (place.isPrefixOf ·.1) then
      some .directory
    else none

/-- Follows the parts of a path. An empty part and a single dot stay where they are, and two dots
lead to the parent; the root is its own. -/
def Tree.follow (tree : Tree) (place : List String) : List String → Except FileError (List String)
  | [] => .ok place
  | part :: parts =>
    match tree.node? place with
    | none => .error .notFound
    | some (.file _) => .error .notDirectory
    | some .directory =>
      if part = "" ∨ part = "." then tree.follow place parts
      else if part = ".." then tree.follow place.dropLast parts
      else if (utf8 part).length > maxName then .error .nameTooLong
      else tree.follow (place ++ [part]) parts

/-- Refuses a path that nothing can have. -/
def checkPath (path : String) : Except FileError Unit :=
  if '\x00' ∈ path.toList then .error .zeroCharacter
  else if path = "" then .error .notFound
  else if (utf8 path).length ≥ pathLimit then .error .nameTooLong
  else .ok ()

/-- Where a path begins: at the root if it opens with a slash. -/
def Tree.start (tree : Tree) (path : String) : List String :=
  if path.toList.head? = some '/' then [] else tree.workingDirectory

def parts (path : String) : List String := (path.toList.splitOn '/').map String.ofList

/-- What a path leads to. -/
def Tree.resolve (tree : Tree) (path : String) : Except FileError Node := do
  checkPath path
  let place ← tree.follow (tree.start path) (parts path)
  (tree.node? place).elim (.error .notFound) .ok

/-- Whether a path leads to anything. -/
def Tree.present (tree : Tree) (path : String) : Bool := (tree.resolve path).isOk

def Tree.read (tree : Tree) (path : String) : Except FileError (List UInt8) := do
  match ← tree.resolve path with
  | .directory => throw .isDirectory
  | .file bytes => return bytes

/-- The path of a name in a directory: a slash parts the two unless the directory's path is empty or
ends in one. -/
def inDirectory (directory name : String) : String :=
  match directory.toList.getLast? with
  | none | some '/' => directory ++ name
  | some _ => directory ++ "/" ++ name

/-- Whether a file of this name can stand in a directory: anew, or over a file that stands there. -/
def Tree.checkEntry (tree : Tree) (place : List String) (name : String) : Except FileError Unit :=
  match tree.node? place with
  | none => .error .notFound
  | some (.file _) => .error .notDirectory
  | some .directory =>
    if (utf8 name).length > maxName then .error .nameTooLong
    else if tree.node? (place ++ [name]) = some .directory then .error .isDirectory
    else .ok ()

/-- Whether a file of this name can be written in the directory at a path. The empty path is the
working directory. -/
def Tree.checkWrite (tree : Tree) (directory name : String) : Except FileError Unit := do
  let path := inDirectory directory name
  checkPath path
  let place ← tree.follow (tree.start path) (parts path).dropLast
  tree.checkEntry place name

end Freestanding.Files
