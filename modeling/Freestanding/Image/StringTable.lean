import Freestanding.Image.Header
import Freestanding.Text.Utf8

/-!
# String tables

A string table is a run of texts, each ended by a zero byte or by the end of the table. A name is
given by an offset: the text that begins there, which may be the tail of a longer one.
-/
namespace Freestanding.Image

open Freestanding.Text (utf8 ofUtf8?)

/-- The texts of a string table, each with the offset of its first byte, in ascending order. -/
structure StringTable where
  entries : List (Nat × String)
  deriving Repr

namespace StringTable

def empty : StringTable := ⟨[]⟩

/-- Cuts bytes at the zero bytes, counting offsets from `start`. The zero byte at the end of the
bytes begins no further text. -/
def cut (start : Nat) (bytes : List UInt8) : Except Fault (List (Nat × String)) :=
  match bytes with
  | [] => .ok []
  | b :: bs =>
    let piece := (b :: bs).takeWhile (· != 0)
    match ofUtf8? piece with
    | none => .error (.notText (b :: bs).length)
    | some text => do
      let others ← cut (start + piece.length + 1) ((b :: bs).drop (piece.length + 1))
      return (start, text) :: others
termination_by bytes.length
decreasing_by simp only [List.length_drop, List.length_cons]; omega

def read (image : List UInt8) (offset size : Nat) : Except Fault StringTable := do
  let file := image.length
  if offset > file then throw (.stringsStart offset file)
  if offset + size ≥ wordLimit then throw (.stringsEnd size offset file true)
  if offset + size > file then throw (.stringsEnd size offset file false)
  return ⟨← cut 0 ((image.drop offset).take size)⟩

/-- The text of a string from so many bytes on; none past its end or inside a character. -/
def tail? (text : String) (skipped : Nat) : Option String :=
  let bytes := utf8 text
  if skipped ≤ bytes.length then ofUtf8? (bytes.drop skipped) else none

/-- The text that begins at an offset: what is left of the last text that begins there or before. -/
def lookup? (table : StringTable) (offset : Nat) : Option String :=
  (table.entries.takeWhile (·.1 ≤ offset)).getLast?.bind fun e => tail? e.2 (offset - e.1)

/-- The section index that stands for the index kept in the first section header. -/
def indirect : Nat := 0xFFFF

/-- Reads the table of a section, given by its index. An index without a section gives the table
without texts. -/
def ofSection (image : List UInt8) (sections : List SectionHeader) (index : Nat) :
    Except Fault StringTable :=
  let found :=
    if index = indirect then sections.head?.bind fun first => sections[first.link]?
    else sections[index]?
  match found with
  | none => .ok empty
  | some s => do
    s.check image.length
    read image s.offset s.size

end StringTable

end Freestanding.Image
