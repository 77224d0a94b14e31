import Freestanding.Json.Scalar

/-!
# Records

A record is read from an object that holds each of its keys once and no other, in any order, or from
a list of its fields in their own order. What is wrong with the record as a whole is shown where its
object or list ends.
-/
namespace Freestanding.Json

def text (cs : List Char) : Except Failure (String × List Char) :=
  match skipSpace cs with
  | [] => failAfter .endInValue []
  | '"' :: rest => (textBody rest).map fun (body, left) => (String.ofList body, left)
  | rest => refuseKind "a string" rest

/-- Reads an integer that is not negative. `expected` names what is expected. -/
def count (expected : String) (cs : List Char) : Except Failure (Nat × List Char) :=
  match skipSpace cs with
  | [] => failAfter .endInValue []
  | c :: rest =>
    if beginsNumber c then do
      let (n, rest) ← signedNumber (c :: rest)
      match n with
      | .natural value => return (value, rest)
      | .negative value => failAt (.wrongInteger (-value) expected) rest
      | .real value => failAt (.wrongKind (.real value) expected) rest
    else refuseKind expected (c :: rest)

/-- The values of fields that have been read so far. -/
abbrev Slots {κ : Type} (α : κ → Type) := (k : κ) → Option (α k)

def Slots.none {κ : Type} {α : κ → Type} : Slots α := fun _ => Option.none

def Slots.put {κ : Type} [DecidableEq κ] {α : κ → Type} (slots : Slots α) (k : κ) (value : α k) :
    Slots α :=
  fun j => if h : k = j then some (h ▸ value) else slots j

/-- The value of a field, or else the field itself. -/
def Slots.require {κ : Type} {α : κ → Type} (slots : Slots α) (k : κ) : Except κ (α k) :=
  match slots k with
  | some value => .ok value
  | Option.none => .error k

theorem erase_shorter {κ : Type} [DecidableEq κ] {pending : List κ} {k : κ} (h : k ∈ pending) :
    (pending.erase k).length < pending.length := by
  have hpos : 0 < pending.length := List.length_pos_of_mem h
  exact List.length_erase_of_mem h ▸ Nat.sub_lt hpos Nat.one_pos

theorem Slots.put_self {κ : Type} [DecidableEq κ] {α : κ → Type} (slots : Slots α) (k : κ)
    (value : α k) : slots.put k value k = some value := by
  simp [Slots.put]

theorem Slots.put_of_ne {κ : Type} [DecidableEq κ] {α : κ → Type} (slots : Slots α) {k j : κ}
    (h : k ≠ j) (value : α k) : slots.put k value j = slots j := by
  simp [Slots.put, h]

/-- How a record is read: the words that name it, its fields in order, the key and the reader of each,
and the making of the record, which fails for the first field that is missing. -/
structure Shape (κ : Type) (α : κ → Type) (ρ : Type) where
  name : String
  fields : List κ
  key : κ → String
  read : (k : κ) → Nat → List Char → Except Failure (α k × List Char)
  make : Slots α → Except κ ρ

namespace Shape

variable {κ : Type} [DecidableEq κ] {α : κ → Type} {ρ : Type}

/-- Makes the record, once everything that will be read has been read. -/
def finish (shape : Shape κ α ρ) (slots : Slots α) (rest : List Char) :
    Except Failure (ρ × List Char) :=
  match shape.make slots with
  | .ok record => .ok (record, rest)
  | .error k => .error (.unplaced (.missingKey (shape.key k)) rest)

/-- Reads the members of an object up to its closing bracket. `pending` are the fields that have not
been read. -/
def members (shape : Shape κ α ρ) (depth : Nat) (pending : List κ) (slots : Slots α) (first : Bool)
    (cs : List Char) : Except Failure (ρ × List Char) := do
  match ← nextMember first cs with
  | .closing rest => shape.finish slots rest
  | .item rest =>
    let (body, rest) ← textBody rest
    let key := String.ofList body
    match shape.fields.find? (shape.key · == key) with
    | none => .error (.unplaced (.unknownKey key (shape.fields.map shape.key)) rest)
    | some k =>
      if h : k ∈ pending then
        let rest ← colon rest
        let (value, rest) ← shape.read k depth rest
        have : (pending.erase k).length < pending.length := erase_shorter h
        members shape depth (pending.erase k) (slots.put k value) false rest
      else .error (.unplaced (.repeatedKey key) rest)
termination_by pending.length

/-- Reads the elements of a list, one for each field that is pending. -/
def elements (shape : Shape κ α ρ) (depth : Nat) (slots : Slots α) (first : Bool) :
    List κ → List Char → Except Failure (ρ × List Char)
  | [], cs => shape.finish slots cs
  | k :: pending, cs => do
    match ← nextElement first cs with
    | .closing rest =>
      let fields := shape.fields.length
      .error (.unplaced (.shortList (fields - (pending.length + 1)) shape.name fields) rest)
    | .item rest =>
      let (value, rest) ← shape.read k depth rest
      elements shape depth (slots.put k value) false pending rest

end Shape

/-- The text after an object, as far as the object comes to its end. -/
def afterObject (rest : List Char) : List Char :=
  match skipSpace rest with
  | '\x7d' :: rest => rest
  | rest => rest

/-- The text after a list, as far as the list comes to its end. -/
def afterList (rest : List Char) : List Char :=
  match skipSpace rest with
  | ']' :: rest => rest
  | ',' :: rest => skipSpace rest
  | rest => rest

/-- Reads the end of a list in which nothing more is due. -/
def endOfList (cs : List Char) : Except Failure (List Char) :=
  match skipSpace cs with
  | [] => failAfter .endInList []
  | ']' :: rest => .ok rest
  | ',' :: rest =>
    match skipSpace rest with
    | ']' :: rest => failAfter .trailingComma (']' :: rest)
    | rest => failAfter .trailing rest
  | rest => failAfter .trailing rest

/-- Shows a cause that has no place yet at the end of its list or object. -/
def placedAt {α : Type} (ending : List Char → List Char) :
    Except Failure α → Except Failure α
  | .error (.unplaced cause rest) => failAt cause (ending rest)
  | result => result

/-- Reads a record, in a value that may be nested `depth` levels deep. -/
def Shape.record {κ : Type} [DecidableEq κ] {α : κ → Type} {ρ : Type} (shape : Shape κ α ρ)
    (depth : Nat) (cs : List Char) : Except Failure (ρ × List Char) :=
  match skipSpace cs with
  | [] => failAfter .endInValue []
  | '[' :: rest =>
    if depth ≤ 1 then failAfter .tooDeep ('[' :: rest)
    else do
      let (record, rest) ←
        placedAt afterList (shape.elements (depth - 1) Slots.none true shape.fields rest)
      return (record, ← endOfList rest)
  | '\x7b' :: rest =>
    if depth ≤ 1 then failAfter .tooDeep ('\x7b' :: rest)
    else do
      let (record, rest) ←
        placedAt afterObject (shape.members (depth - 1) shape.fields Slots.none true rest)
      return (record, afterObject rest)
  | rest => refuseKind shape.name rest

/-- How many levels of lists and objects a text may have, and one more. -/
def nesting : Nat := 128

/-- Reads a text that holds one record and nothing else but white space. -/
def Shape.parse {κ : Type} [DecidableEq κ] {α : κ → Type} {ρ : Type} (shape : Shape κ α ρ)
    (cs : List Char) : Except Failure ρ := do
  let (record, rest) ← shape.record nesting cs
  match skipSpace rest with
  | [] => return record
  | rest => failAfter .trailing rest

end Freestanding.Json
