import Freestanding.Bytes
import Freestanding.Build

/-!
# The reserved region

A fixed number of words that begin as zero. The region is kept as its bytes; a word is eight of them,
the lowest first, so the byte view and the word view are views of one thing.
-/
namespace Freestanding.Region

open Freestanding.Bytes (lowBytes lowFirst)
open Freestanding.Layout (wordBytes)

/-- A region of a number of words, as its bytes. -/
structure Reserved (words : Nat) where
  bytes : Vector UInt8 (words * wordBytes)
  deriving DecidableEq

namespace Reserved

variable {words : Nat}

def fresh (words : Nat) : Reserved words := ⟨Vector.replicate (words * wordBytes) 0⟩

def size (_region : Reserved words) : Nat := words * wordBytes

/-- The byte at an offset; there is none past the end. -/
def byte? (region : Reserved words) (offset : Nat) : Option UInt8 := region.bytes[offset]?

/-- The word at an index; there is none past the end. -/
def word? (region : Reserved words) (index : Nat) : Option UInt64 :=
  if index < words then
    some <| UInt64.ofNat <| lowFirst <|
      (region.bytes.toList.drop (index * wordBytes)).take wordBytes
  else none

/-- Writes a byte; a write past the end changes nothing. -/
def setByte (region : Reserved words) (offset : Nat) (value : UInt8) : Reserved words :=
  ⟨region.bytes.setIfInBounds offset value⟩

theorem byte?_fresh (words offset : Nat) :
    (fresh words).byte? offset = if offset < words * wordBytes then some 0 else none := by
  simp [byte?, fresh, Vector.getElem?_replicate]

theorem byte?_setByte (region : Reserved words) (offset other : Nat) (value : UInt8) :
    (region.setByte offset value).byte? other =
      if offset = other ∧ other < words * wordBytes then some value else region.byte? other := by
  unfold byte? setByte
  rw [Vector.getElem?_setIfInBounds]
  by_cases h : offset = other <;> by_cases hb : other < words * wordBytes <;> simp_all

def setBytes (region : Reserved words) (offset : Nat) : List UInt8 → Reserved words
  | [] => region
  | b :: bs => (region.setByte offset b).setBytes (offset + 1) bs

/-- Writes a word, as its eight bytes. -/
def setWord (region : Reserved words) (index : Nat) (value : UInt64) : Reserved words :=
  region.setBytes (index * wordBytes) (lowBytes wordBytes value.toNat)

def nonzeroBytes (region : Reserved words) : Nat := region.bytes.toList.countP (· != 0)

def isZeroed (region : Reserved words) : Bool := region.nonzeroBytes == 0

def isEmpty (region : Reserved words) : Bool := region.size == 0

end Reserved

inductive Write where
  | byte (offset : Nat) (value : UInt8)
  | word (index : Nat) (value : UInt64)
  deriving DecidableEq, Repr

def Reserved.write {words : Nat} (region : Reserved words) : Write → Reserved words
  | .byte offset value => region.setByte offset value
  | .word index value => region.setWord index value

end Freestanding.Region
