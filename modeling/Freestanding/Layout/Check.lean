import Freestanding.Files.Tree
import Freestanding.Layout.Configuration

/-!
# Checking a configuration

A configuration is checked in a fixed order against the rules of the layout and against the target it
is used for, and the first rule that it breaks is reported. Nothing is produced before every rule
holds.
-/
namespace Freestanding.Layout

open Freestanding.Files (FileError Tree inDirectory)
open Freestanding.Text (ofUtf8? quoted)

def fileName : String := "zerostart.json"

def layoutName : String := "layout.rs"

/-- The symbol at which the loader begins. -/
def loaderSymbol : String := "_start"

/-- The variables that a build looks at; each may be unset. -/
structure Environment where
  arch : Option String
  os : Option String
  profile : Option String
  target : Option String
  outputDirectory : Option String
  traced : Bool
  deriving DecidableEq, Repr

inductive Rejection where
  | notFound
  | unreadable (error : FileError)
  | notText
  | invalid (fault : Json.Fault)
  | wrongEntry (symbol : String)
  /-- The region is empty or too large. -/
  | wrongExtent (words : Nat)
  | wrongWord (size : Nat)
  | wrongArch (target configured : String)
  | wrongOs (target configured : String)
  /-- Nothing says where the layout is to be written. -/
  | noOutput
  | unwritable (directory : String) (error : FileError)

/-- The text that stands for a variable that is not set. -/
def orUnknown (setting : Option String) : String := setting.getD "unknown"

/-- The report of two values that should be equal. -/
def unequal (reason left right : String) : String :=
  "assertion `left == right` failed: " ++ reason ++ "\n  left: " ++ left ++ "\n right: " ++ right

def Rejection.message : Rejection → String
  | .notFound => "Layout configuration not found: " ++ fileName
  | .unreadable error => "Failed to read " ++ fileName ++ ": " ++ error.message
  | .notText => "Failed to read " ++ fileName ++ ": stream did not contain valid UTF-8"
  | .invalid fault => fileName ++ " is not a valid layout configuration: " ++ fault.message
  | .wrongEntry symbol =>
    unequal ("Layout configuration names entry symbol '" ++ symbol ++ "' (the loader expects '"
      ++ loaderSymbol ++ "')") (quoted symbol) (quoted loaderSymbol)
  | .wrongExtent words =>
    "reserved-region.words must be in 1..=" ++ toString maxWords ++ ", got " ++ toString words
  | .wrongWord size =>
    unequal ("reserved-region.word-size must be " ++ toString wordBytes
      ++ " (the region is an array of u64), got " ++ toString size) (toString size)
      (toString wordBytes)
  | .wrongArch target configured =>
    "Target architecture '" ++ target ++ "' does not match configured arch '" ++ configured ++ "'"
  | .wrongOs target configured =>
    "Target OS '" ++ target ++ "' does not match configured os '" ++ configured ++ "'"
  | .noOutput => "OUT_DIR not set: NotPresent"
  | .unwritable directory error =>
    "Failed to write " ++ inDirectory directory layoutName ++ ": " ++ error.message

/-- The configuration that the bytes of a file hold. -/
def parseConfiguration (bytes : List UInt8) : Except Rejection Configuration :=
  match ofUtf8? bytes with
  | none => .error .notText
  | some text =>
    (configurationShape.parse text.toList).mapError fun failure => .invalid (failure.fault bytes)

def readConfiguration (tree : Tree) : Except Rejection Configuration :=
  if tree.present fileName then
    (tree.read fileName).mapError .unreadable >>= parseConfiguration
  else .error .notFound

/-- Refuses a configuration that breaks a rule of the layout. -/
def Configuration.checkLayout (c : Configuration) : Except Rejection Unit :=
  if c.entrySymbol ≠ loaderSymbol then .error (.wrongEntry c.entrySymbol)
  else if c.region.words = 0 ∨ maxWords < c.region.words then
    .error (.wrongExtent c.region.words)
  else if c.region.wordSize ≠ wordBytes then .error (.wrongWord c.region.wordSize)
  else .ok ()

/-- Refuses a configuration for another target than the one that is built for. -/
def Configuration.checkTarget (c : Configuration) (env : Environment) : Except Rejection Unit :=
  if orUnknown env.arch ≠ c.arch then .error (.wrongArch (orUnknown env.arch) c.arch)
  else if orUnknown env.os ≠ c.os then .error (.wrongOs (orUnknown env.os) c.os)
  else .ok ()

/-- Refuses a build that has nowhere to write its layout, or cannot write it there. -/
def Environment.checkOutput (env : Environment) (tree : Tree) : Except Rejection Unit :=
  match env.outputDirectory with
  | none => .error .noOutput
  | some directory => (tree.checkWrite directory layoutName).mapError (.unwritable directory)

/-- The configuration of a working directory, if it passes every check. -/
def accept (tree : Tree) (env : Environment) : Except Rejection Configuration := do
  let c ← readConfiguration tree
  c.checkLayout
  c.checkTarget env
  env.checkOutput tree
  return c

end Freestanding.Layout
