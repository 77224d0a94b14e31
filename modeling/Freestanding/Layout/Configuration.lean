import Freestanding.Build
import Freestanding.Layout.Status

/-!
# The layout configuration

A configuration names the target that it is for and the symbol at which programs begin, and gives the
numbers of the layout. It is a record of JSON with two records inside.
-/
namespace Freestanding.Layout

open Freestanding.Json (Failure Shape Slots)

structure RegionExtent where
  words : Nat
  wordSize : Nat
  deriving DecidableEq, Repr

structure CollaboratorValues where
  initialStatus : Int32
  status : Int32
  deriving DecidableEq, Repr

structure Configuration where
  arch : String
  os : String
  entrySymbol : String
  region : RegionExtent
  collaborator : CollaboratorValues
  deriving DecidableEq, Repr

def Configuration.numbers (c : Configuration) : Numbers :=
  ⟨c.region.words, c.region.wordSize, c.collaborator.initialStatus, c.collaborator.status⟩

inductive RegionField where
  | words
  | wordSize
  deriving DecidableEq, Repr

/-- How the region's record is read. -/
def regionShape : Shape RegionField (fun _ => Nat) RegionExtent where
  name := "struct RegionConfig"
  fields := [.words, .wordSize]
  key
    | .words => "words"
    | .wordSize => "word-size"
  read _ _ cs := Json.count "usize" cs
  make slots := do return ⟨← slots.require .words, ← slots.require .wordSize⟩

inductive CollaboratorField where
  | initialStatus
  | status
  deriving DecidableEq, Repr

/-- How the collaborator's record is read. -/
def collaboratorShape : Shape CollaboratorField (fun _ => Int32) CollaboratorValues where
  name := "struct CollaboratorConfig"
  fields := [.initialStatus, .status]
  key
    | .initialStatus => "initial-status"
    | .status => "status"
  read _ depth cs := readStatus depth cs
  make slots := do return ⟨← slots.require .initialStatus, ← slots.require .status⟩

inductive Field where
  | arch
  | os
  | entrySymbol
  | region
  | collaborator
  deriving DecidableEq, Repr

def Field.Value : Field → Type
  | .arch => String
  | .os => String
  | .entrySymbol => String
  | .region => RegionExtent
  | .collaborator => CollaboratorValues

def Field.read : (f : Field) → Nat → List Char → Except Failure (f.Value × List Char)
  | .arch, _, cs => Json.text cs
  | .os, _, cs => Json.text cs
  | .entrySymbol, _, cs => Json.text cs
  | .region, depth, cs => regionShape.record depth cs
  | .collaborator, depth, cs => collaboratorShape.record depth cs

def Field.key : Field → String
  | .arch => "arch"
  | .os => "os"
  | .entrySymbol => "entry-symbol"
  | .region => "reserved-region"
  | .collaborator => "collaborator"

def Configuration.make (slots : Slots Field.Value) : Except Field Configuration := do
  let arch ← slots.require .arch
  let os ← slots.require .os
  let entrySymbol ← slots.require .entrySymbol
  let region ← slots.require .region
  let collaborator ← slots.require .collaborator
  return ⟨arch, os, entrySymbol, region, collaborator⟩

/-- How a configuration is read. -/
def configurationShape : Shape Field Field.Value Configuration where
  name := "struct BuildConfig"
  fields := [.arch, .os, .entrySymbol, .region, .collaborator]
  key := Field.key
  read := Field.read
  make := Configuration.make

end Freestanding.Layout
