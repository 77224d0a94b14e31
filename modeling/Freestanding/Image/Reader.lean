import Freestanding.Bytes
import Freestanding.Image.Fault

/-!
# Numbers in an image

An image is a run of bytes. Its format fixes how wide an address is and in which order the bytes of a
number stand. A reader takes numbers from the front of what is left, so a record is read field by
field, and a reader that succeeds on some bytes does the same on any longer run.
-/
namespace Freestanding.Image

open Freestanding.Bytes (ByteOrder limit)

/-- The width of addresses and sizes. -/
inductive WordSize where
  | bits32
  | bits64
  deriving DecidableEq, Repr

/-- How the numbers of an image are written. -/
structure Format where
  wordSize : WordSize
  order : ByteOrder
  deriving DecidableEq, Repr

def WordSize.bytes : WordSize → Nat
  | .bits32 => 4
  | .bits64 => 8

/-- The least number that no 64-bit word holds. -/
def wordLimit : Nat := 0x10000000000000000

/-- Takes a value from the front of a run of bytes, or fails. -/
abbrev Reader := StateT (List UInt8) (Except Fault)

def readNumber (order : ByteOrder) (size : Nat) : Reader Nat := fun bytes =>
  let field := bytes.take size
  if field.length < size then .error (.tooBig size field.length)
  else .ok (order.value field, bytes.drop size)

/-- Reading a number takes the bytes that were written for it and nothing more, and gives what they
hold of it. -/
theorem readNumber_bytes (order : ByteOrder) (size n : Nat) (rest : List UInt8) :
    readNumber order size (order.bytes size n ++ rest) = .ok (n % limit size, rest) := by
  simp [readNumber, order.value_bytes]

/-- What follows a number does not matter for reading it. -/
theorem readNumber_append {order : ByteOrder} {size n : Nat} {bytes rest : List UInt8}
    (h : readNumber order size bytes = .ok (n, rest)) (more : List UInt8) :
    readNumber order size (bytes ++ more) = .ok (n, rest ++ more) := by
  unfold readNumber at h ⊢
  simp only at h ⊢
  split at h
  · cases h
  · next hlen =>
    have hsize : size ≤ bytes.length := by
      rw [List.length_take] at hlen
      omega
    obtain ⟨rfl, rfl⟩ := Prod.mk.inj (Except.ok.inj h)
    rw [List.take_append_of_le_length hsize, if_neg hlen, List.drop_append_of_le_length hsize]

def Format.readWord (f : Format) : Reader Nat := readNumber f.order f.wordSize.bytes

/-- Reads so many values one after the other. -/
def readMany {α : Type} (reader : Reader α) : Nat → Reader (List α)
  | 0 => pure []
  | n + 1 => do
    let first ← reader
    let others ← readMany reader n
    return first :: others

/-- Runs a reader on exactly these bytes. -/
def Reader.on {α : Type} (reader : Reader α) (bytes : List UInt8) : Except Fault α :=
  (reader bytes).map Prod.fst

def bytesFrom (image : List UInt8) (offset : Nat) : Except Fault (List UInt8) :=
  if image.length < offset then .error (.badOffset offset) else .ok (image.drop offset)

def slice (image : List UInt8) (offset size : Nat) : Except Fault (List UInt8) := do
  let bytes ← bytesFrom image offset
  if bytes.length < size then .error (.tooBig size bytes.length) else .ok (bytes.take size)

/-- So many bytes from an offset on; no bytes are found anywhere. -/
def sliceUnlessEmpty (image : List UInt8) (offset size : Nat) : Except Fault (List UInt8) :=
  if size = 0 then .ok [] else slice image offset size

def numberAt (order : ByteOrder) (image : List UInt8) (offset size : Nat) : Except Fault Nat := do
  let bytes ← bytesFrom image offset
  (readNumber order size).on bytes

end Freestanding.Image
