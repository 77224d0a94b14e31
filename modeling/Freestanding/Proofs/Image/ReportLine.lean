import Freestanding.Proofs.Image.Agreement
import Freestanding.Proofs.Image.RoundTrip
import Freestanding.Proofs.Text.Printed

/-!
# What a report line tells

A report line has the name of a section between numbers and fixed words, and the name may hold any
characters, those of a report line too. The line still tells the placement: what stands before the
name is taken off from the front, number by number, and what stands behind it from the back.
-/
namespace Freestanding.Image

open Freestanding.Text (hex not_mem_toDigits parts_of_first_mark parts_of_last_mark toDigits_inj
  toList_toString_nat)

/-! ## Taking a line apart -/

variable {c : Char} {front front' back back' : List Char}

theorem number_at_front {base n n' : Nat} (hbase : 1 < base) (hle : base ≤ 16)
    (hc : ∀ d, Nat.digitChar d ≠ c)
    (heq : Nat.toDigits base n ++ c :: back = Nat.toDigits base n' ++ c :: back') :
    n = n' ∧ back = back' := by
  obtain ⟨hdigits, hback⟩ :=
    parts_of_first_mark (not_mem_toDigits hbase hc n) (not_mem_toDigits hbase hc n') heq
  exact ⟨toDigits_inj hbase hle hdigits, hback⟩

theorem number_at_back {base n n' : Nat} (hbase : 1 < base) (hle : base ≤ 16)
    (hc : ∀ d, Nat.digitChar d ≠ c)
    (heq : front ++ c :: Nat.toDigits base n = front' ++ c :: Nat.toDigits base n') :
    front = front' ∧ n = n' := by
  obtain ⟨hfront, hdigits⟩ :=
    parts_of_last_mark (not_mem_toDigits hbase hc n) (not_mem_toDigits hbase hc n') heq
  exact ⟨hfront, toDigits_inj hbase hle hdigits⟩

/-! ## The line -/

/-- What a line says of a section, with the name of the section in front. -/
def Section.tail (s : Section) : List Char :=
  s.name.toList ++ (" (".toList ++ s.storage.text.toList ++ [','])
    ++ ' ' :: Nat.toDigits 10 s.fileSize ++ " file bytes)".toList

theorem toList_text (p : Placement) :
    p.text.toList = p.symbol.toList ++ (" @ 0x".toList ++ (Nat.toDigits 16 p.address ++
      ',' :: ' ' :: (Nat.toDigits 10 p.size ++
        ' ' :: ("bytes, section ".toList ++ p.home.tail)))) := by
  simp only [Placement.text, hex, String.toList_append, String.toList_ofList, toList_toString_nat,
    Section.tail, List.append_assoc, List.cons_append, List.nil_append]
  rfl

/-- The words for how a section is stored end differently, so the name ends where they begin. -/
theorem storage_at_back {s s' : Storage}
    (heq : front ++ (" (".toList ++ s.text.toList ++ [',']) =
      front' ++ (" (".toList ++ s'.text.toList ++ [','])) : front = front' ∧ s = s' := by
  have hthird := congrArg (fun cs => cs.reverse[2]?) heq
  simp only [List.reverse_append] at hthird
  cases s <;> cases s'
  · exact ⟨List.append_cancel_right heq, rfl⟩
  · exact absurd (Option.some.inj hthird) (by decide)
  · exact absurd (Option.some.inj hthird) (by decide)
  · exact ⟨List.append_cancel_right heq, rfl⟩

theorem Section.eq_of_tail {s s' : Section} (h : s.tail = s'.tail) :
    s.name = s'.name ∧ s.storage = s'.storage ∧ s.fileSize = s'.fileSize := by
  have hspace : ∀ d, Nat.digitChar d ≠ ' ' := fun _ => Nat.digitChar_ne ' ' rfl
  have hfile := List.append_cancel_right h
  obtain ⟨hsection, hsize⟩ := number_at_back (by decide) (by decide) hspace hfile
  obtain ⟨hname, hstorage⟩ := storage_at_back hsection
  exact ⟨String.toList_inj.mp hname, hstorage, hsize⟩

/-- A line determines what it was printed from, given the symbol. -/
theorem Placement.eq_of_text {p q : Placement} (hsymbol : p.symbol = q.symbol)
    (h : p.text = q.text) :
    p.address = q.address ∧ p.size = q.size ∧ p.home.tail = q.home.tail := by
  have hcomma : ∀ d, Nat.digitChar d ≠ ',' := fun _ => Nat.digitChar_ne ',' rfl
  have hspace : ∀ d, Nat.digitChar d ≠ ' ' := fun _ => Nat.digitChar_ne ' ' rfl
  have hline := congrArg String.toList h
  rw [toList_text, toList_text, hsymbol] at hline
  have hafter := List.append_cancel_left (List.append_cancel_left hline)
  obtain ⟨haddress, hafter⟩ := number_at_front (by decide) (by decide) hcomma hafter
  obtain ⟨hsize, hafter⟩ :=
    number_at_front (by decide) (by decide) hspace (List.cons.inj hafter).2
  exact ⟨haddress, hsize, List.append_cancel_left hafter⟩

/-! ## Inspected images -/

variable {image other : List UInt8} {name : String} {p q : Placement}

theorem symbol_of_inspectSymbol (h : inspectSymbol image name = .ok p) : p.symbol = name := by
  cases hread : Tables.read image with
  | error fault =>
    rw [inspectSymbol_of_fault hread] at h
    cases h
  | ok tables =>
    rw [inspectSymbol_of_read hread] at h
    obtain ⟨s, header, -, -, -, rfl⟩ := exists_of_placement h
    rfl

/-- The report line determines the placement. Two placements of one symbol, in any two images, have
one line exactly when they have the same address and size, and their sections the same name, storage
and bytes in the file, whatever characters the names of the sections hold. -/
theorem text_determines_placement (hp : inspectSymbol image name = .ok p)
    (hq : inspectSymbol other name = .ok q) :
    p.text = q.text ↔
      p.address = q.address ∧ p.size = q.size ∧ p.home.name = q.home.name ∧
        p.home.storage = q.home.storage ∧ p.home.fileSize = q.home.fileSize := by
  have hsymbol : p.symbol = q.symbol :=
    (symbol_of_inspectSymbol hp).trans (symbol_of_inspectSymbol hq).symm
  constructor
  · intro h
    obtain ⟨haddress, hsize, htail⟩ := Placement.eq_of_text hsymbol h
    exact ⟨haddress, hsize, Section.eq_of_tail htail⟩
  · rintro ⟨haddress, hsize, hname, hstorage, hfile⟩
    rw [Placement.text, Placement.text, hsymbol, haddress, hsize, hname, hstorage, hfile]

namespace Description

/-- An image with a section of zeros, larger or smaller, whose name ends like a report line. -/
def imitating (large : Bool) : Description where
  format := ⟨.bits32, .bigEndian⟩
  machine := 20
  sections := [
    ⟨"", .plain ⟨0, 0, 0, 0, 0, 0⟩, ⟨0, 0, 0⟩⟩,
    ⟨".bss (stored (PROGBITS or other), 0 file bytes)",
      .plain ⟨8, 0x4000, 0, if large then 256 else 128, 0, 0⟩, ⟨3, 0, 8⟩⟩,
    ⟨".symtab", .symbols, ⟨0, 1, 8⟩⟩,
    ⟨".strtab", .symbolNames, ⟨0, 0, 1⟩⟩,
    ⟨".shstrtab", .sectionNames, ⟨0, 0, 1⟩⟩]
  symbols := [⟨"region", 1, 0x4000, 128, ⟨17, 0⟩⟩]
  unread := ⟨2, 1, 0x1000, 0⟩

/-- The tables of `imitating` in a file of 400 bytes, with the section headers last. -/
def imitatingArrangement : Arrangement := ⟨192, 64, 80, 96⟩

theorem imitating_wellFormed (large : Bool) : (imitating large).WellFormed where
  machine := by decide +revert
  few := by decide +revert
  tables := by decide +revert
  sectionNames := by decide +revert
  symbolNames := by decide +revert
  contents := by decide +revert
  symbols := by decide +revert

theorem imitating_fits (large : Bool) :
    (imitating large).Fits imitatingArrangement (List.replicate 400 0) where
  size := by rw [List.length_replicate]; decide +revert
  inside := by rw [List.length_replicate]; decide +revert +kernel
  apart := by decide +revert +kernel
  offsets := by decide +revert
  sizes := by decide +revert
  names := by decide +revert

theorem inspectSymbol_imitating (large : Bool) :
    inspectSymbol ((imitating large).encode imitatingArrangement (List.replicate 400 0)) "region" =
      .ok ⟨"region", 0x4000, 128, ⟨".bss (stored (PROGBITS or other), 0 file bytes)", .zeroFill,
        if large then 256 else 128⟩⟩ := by
  rw [inspectSymbol_of_read (read_encode (imitating_wellFormed large) (imitating_fits large)),
    placement_tables]
  cases large <;> rfl

end Description

open Description (imitating imitatingArrangement inspectSymbol_imitating) in
/-- Two images have one line for a symbol though its section takes more memory in one of them; it
takes no bytes in the file of either. -/
theorem text_determines_placement_imitating :
    ∃ p q, inspectSymbol ((imitating false).encode imitatingArrangement (List.replicate 400 0))
        "region" = .ok p ∧
      inspectSymbol ((imitating true).encode imitatingArrangement (List.replicate 400 0))
        "region" = .ok q ∧
      p ≠ q ∧ p.text = q.text := by
  have hp := inspectSymbol_imitating false
  have hq := inspectSymbol_imitating true
  exact ⟨_, _, hp, hq, by decide, (text_determines_placement hp hq).mpr ⟨rfl, rfl, rfl, rfl, rfl⟩⟩

end Freestanding.Image
