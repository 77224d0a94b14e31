import Freestanding.Image.Symbol

/-!
# Records as bytes

The numbers and the records of an image, written field by field in the order in which they are read.
Reading a written record gives it back and leaves what follows. Fields that reading passes over may
hold anything.
-/
namespace Freestanding.Image

open Freestanding.Bytes (ByteOrder)

def Format.word (f : Format) (n : Nat) : List UInt8 := f.order.bytes f.wordSize.bytes n

/-- The least number that an address or a size does not hold. -/
def WordSize.limit (w : WordSize) : Nat := Bytes.limit w.bytes

theorem WordSize.limit_pos (w : WordSize) : 0 < w.limit := by cases w <;> decide

@[simp] theorem Format.length_word (f : Format) (n : Nat) :
    (f.word n).length = f.wordSize.bytes := by
  simp [Format.word]

/-- Reading a field that was written gives what fits the field. -/
theorem readNumber_bind {α : Type} (order : ByteOrder) (size n : Nat) (rest : List UInt8)
    (next : Nat → Reader α) :
    (readNumber order size >>= next) (order.bytes size n ++ rest) =
      next (n % Bytes.limit size) rest := by
  simp only [bind, StateT.bind, readNumber_bytes, Except.bind]

theorem length_flatMap_of_length {α : Type} {write : α → List UInt8} {size : Nat}
    (h : ∀ a, (write a).length = size) (records : List α) :
    (records.flatMap write).length = records.length * size := by
  have hsizes : records.map (fun a => (write a).length) = List.replicate records.length size := by
    simp [h, List.map_const']
  rw [List.length_flatMap, hsizes, List.sum_replicate_nat]

/-- As many records as were written are read one after the other. -/
theorem readMany_flatMap {α β : Type} {reader : Reader β} {write : α → List UInt8} {read : α → β}
    {records : List α}
    (h : ∀ a ∈ records, ∀ rest, reader (write a ++ rest) = .ok (read a, rest))
    (rest : List UInt8) :
    readMany reader records.length (records.flatMap write ++ rest) =
      .ok (records.map read, rest) := by
  induction records with
  | nil => rfl
  | cons a records ih =>
    have hfirst := h a (List.mem_cons_self ..) (records.flatMap write ++ rest)
    have hothers := ih fun b hb => h b (List.mem_cons_of_mem a hb)
    simp only [List.flatMap_cons, List.append_assoc, List.length_cons, readMany, bind, StateT.bind,
      hfirst, Except.bind, hothers]
    rfl

namespace SectionHeader

/-- The fields of a section header that reading passes over. -/
structure Unread where
  flags : Nat
  info : Nat
  alignment : Nat
  deriving DecidableEq, Repr

def write (f : Format) (s : SectionHeader) (u : Unread) : List UInt8 :=
  f.order.bytes 4 s.name ++ f.order.bytes 4 s.kind ++ f.word u.flags ++ f.word s.address
    ++ f.word s.offset ++ f.word s.size ++ f.order.bytes 4 s.link ++ f.order.bytes 4 u.info
    ++ f.word u.alignment ++ f.word s.entrySize

structure Fits (w : WordSize) (s : SectionHeader) : Prop where
  name : s.name < Bytes.limit 4
  kind : s.kind < Bytes.limit 4
  address : s.address < w.limit
  offset : s.offset < w.limit
  size : s.size < w.limit
  link : s.link < Bytes.limit 4
  entrySize : s.entrySize < w.limit

instance (w : WordSize) (s : SectionHeader) : Decidable (s.Fits w) :=
  decidable_of_iff
    (s.name < Bytes.limit 4 ∧ s.kind < Bytes.limit 4 ∧ s.address < w.limit ∧
      s.offset < w.limit ∧ s.size < w.limit ∧ s.link < Bytes.limit 4 ∧ s.entrySize < w.limit)
    ⟨fun ⟨h₁, h₂, h₃, h₄, h₅, h₆, h₇⟩ => ⟨h₁, h₂, h₃, h₄, h₅, h₆, h₇⟩,
      fun ⟨h₁, h₂, h₃, h₄, h₅, h₆, h₇⟩ => ⟨h₁, h₂, h₃, h₄, h₅, h₆, h₇⟩⟩

@[simp] theorem length_write (f : Format) (s : SectionHeader) (u : Unread) :
    (s.write f u).length = entryBytes f.wordSize := by
  cases hw : f.wordSize <;> simp [write, entryBytes, WordSize.bytes, hw]

theorem read_write {f : Format} {s : SectionHeader} (hs : s.Fits f.wordSize) (u : Unread)
    (rest : List UInt8) : read f (s.write f u ++ rest) = .ok (s, rest) := by
  have hlimit : Bytes.limit f.wordSize.bytes = f.wordSize.limit := rfl
  simp only [read, write, Format.readWord, Format.word, List.append_assoc, readNumber_bind, hlimit,
    Nat.mod_eq_of_lt hs.name, Nat.mod_eq_of_lt hs.kind, Nat.mod_eq_of_lt hs.address,
    Nat.mod_eq_of_lt hs.offset, Nat.mod_eq_of_lt hs.size, Nat.mod_eq_of_lt hs.link,
    Nat.mod_eq_of_lt hs.entrySize]
  rfl

end SectionHeader

namespace Symbol

/-- The fields of a symbol that reading passes over. -/
structure Unread where
  info : Nat
  visibility : Nat
  deriving DecidableEq, Repr

def write (f : Format) (s : Symbol) (u : Unread) : List UInt8 :=
  match f.wordSize with
  | .bits32 =>
    f.order.bytes 4 s.name ++ f.word s.value ++ f.word s.size ++ f.order.bytes 1 u.info
      ++ f.order.bytes 1 u.visibility ++ f.order.bytes 2 s.sectionIndex
  | .bits64 =>
    f.order.bytes 4 s.name ++ f.order.bytes 1 u.info ++ f.order.bytes 1 u.visibility
      ++ f.order.bytes 2 s.sectionIndex ++ f.word s.value ++ f.word s.size

structure Fits (w : WordSize) (s : Symbol) : Prop where
  name : s.name < Bytes.limit 4
  sectionIndex : s.sectionIndex < Bytes.limit 2
  value : s.value < w.limit
  size : s.size < w.limit

instance (w : WordSize) (s : Symbol) : Decidable (s.Fits w) :=
  decidable_of_iff
    (s.name < Bytes.limit 4 ∧ s.sectionIndex < Bytes.limit 2 ∧ s.value < w.limit ∧
      s.size < w.limit)
    ⟨fun ⟨h₁, h₂, h₃, h₄⟩ => ⟨h₁, h₂, h₃, h₄⟩, fun ⟨h₁, h₂, h₃, h₄⟩ => ⟨h₁, h₂, h₃, h₄⟩⟩

@[simp] theorem length_write (f : Format) (s : Symbol) (u : Unread) :
    (s.write f u).length = entryBytes f.wordSize := by
  cases hw : f.wordSize <;> simp [write, entryBytes, WordSize.bytes, hw]

theorem read_write {f : Format} {s : Symbol} (hs : s.Fits f.wordSize) (u : Unread)
    (rest : List UInt8) : read f (s.write f u ++ rest) = .ok (s, rest) := by
  have hlimit : Bytes.limit f.wordSize.bytes = f.wordSize.limit := rfl
  have hindex := Nat.mod_eq_of_lt hs.sectionIndex
  have hname := Nat.mod_eq_of_lt hs.name
  have hvalue := Nat.mod_eq_of_lt hs.value
  have hsize := Nat.mod_eq_of_lt hs.size
  cases hw : f.wordSize with
  | bits32 =>
    rw [hw] at hlimit hvalue hsize
    simp only [read, write, Format.readWord, Format.word, hw, List.append_assoc, readNumber_bind,
      hlimit, hname, hindex, hvalue, hsize]
    rfl
  | bits64 =>
    rw [hw] at hlimit hvalue hsize
    simp only [read, write, Format.readWord, Format.word, hw, List.append_assoc, readNumber_bind,
      hlimit, hname, hindex, hvalue, hsize]
    rfl

end Symbol

def WordSize.code : WordSize → UInt8
  | .bits32 => 1
  | .bits64 => 2

def orderCode : ByteOrder → UInt8
  | .littleEndian => 1
  | .bigEndian => 2

def Format.identification (f : Format) : List UInt8 :=
  magic ++ [f.wordSize.code, orderCode f.order, 1] ++ List.replicate 9 0

@[simp] theorem Format.length_identification (f : Format) :
    f.identification.length = identificationBytes := rfl

theorem readFormat_identification (f : Format) (rest : List UInt8) :
    readFormat (f.identification ++ rest) = .ok f := by
  have htake : (f.identification ++ rest).take identificationBytes = f.identification :=
    List.take_left' rfl
  obtain ⟨wordSize, order⟩ := f
  simp only [readFormat, htake]
  cases wordSize <;> cases order <;> rfl

namespace FileHeader

/-- The fields of a file header that reading passes over. -/
structure Unread where
  kind : Nat
  version : Nat
  entry : Nat
  flags : Nat
  deriving DecidableEq, Repr

def bytes : WordSize → Nat
  | .bits32 => 52
  | .bits64 => 64

def writeFields (h : FileHeader) (u : Unread) : List UInt8 :=
  let f := h.format
  f.order.bytes 2 u.kind ++ f.order.bytes 2 h.machine ++ f.order.bytes 4 u.version
    ++ f.word u.entry ++ f.word h.programHeaders ++ f.word h.sectionHeaders
    ++ f.order.bytes 4 u.flags ++ f.order.bytes 2 (bytes f.wordSize)
    ++ f.order.bytes 2 (ProgramHeader.entryBytes f.wordSize) ++ f.order.bytes 2 h.programCount
    ++ f.order.bytes 2 (SectionHeader.entryBytes f.wordSize) ++ f.order.bytes 2 h.sectionCount
    ++ f.order.bytes 2 h.nameSection

def write (h : FileHeader) (u : Unread) : List UInt8 :=
  h.format.identification ++ h.writeFields u

structure Fits (h : FileHeader) : Prop where
  machine : h.machine < Bytes.limit 2
  programHeaders : h.programHeaders < h.format.wordSize.limit
  sectionHeaders : h.sectionHeaders < h.format.wordSize.limit
  programCount : h.programCount < Bytes.limit 2
  sectionCount : h.sectionCount < Bytes.limit 2
  nameSection : h.nameSection < Bytes.limit 2

@[simp] theorem length_write (h : FileHeader) (u : Unread) :
    (h.write u).length = bytes h.format.wordSize := by
  cases hw : h.format.wordSize <;>
    simp [write, writeFields, bytes, identificationBytes, WordSize.bytes, hw]

theorem readFields_write {h : FileHeader} (hf : h.Fits) (u : Unread) (rest : List UInt8) :
    readFields h.format (h.writeFields u ++ rest) = .ok (h, rest) := by
  have hlimit : Bytes.limit h.format.wordSize.bytes = h.format.wordSize.limit := rfl
  simp only [readFields, writeFields, Format.readWord, Format.word, List.append_assoc,
    readNumber_bind, hlimit, Nat.mod_eq_of_lt hf.machine, Nat.mod_eq_of_lt hf.programHeaders,
    Nat.mod_eq_of_lt hf.sectionHeaders, Nat.mod_eq_of_lt hf.programCount,
    Nat.mod_eq_of_lt hf.sectionCount, Nat.mod_eq_of_lt hf.nameSection]
  rfl

theorem read_write {h : FileHeader} (hf : h.Fits) (u : Unread) (rest : List UInt8) :
    read (h.write u ++ rest) = .ok h := by
  have hdrop : (h.write u ++ rest).drop identificationBytes = h.writeFields u ++ rest := by
    rw [write, List.append_assoc]
    exact List.drop_left' rfl
  have hformat : readFormat (h.write u ++ rest) = .ok h.format := by
    rw [write, List.append_assoc]
    exact readFormat_identification h.format _
  simp only [read, hformat, hdrop, Reader.on, readFields_write hf, bind, Except.bind, Except.map]

end FileHeader

end Freestanding.Image
