import Freestanding.Layout.Configuration
import Freestanding.Proofs.Json.Record
import Freestanding.Proofs.Json.Scalar
import Freestanding.Proofs.Text.Numeral

/-!
# What a configuration says

The values that denote a configuration, whatever way they are written in. A text is read as a
configuration exactly when it holds one value that denotes it, and the numbers of the region fit 64
bits.
-/
namespace Freestanding.Layout

open Freestanding.Json
open Freestanding.Text (Padded integer?_trim)

/-- An exit status is an integer, though not the zero with a minus, or a text of a numeral. -/
inductive DenotesStatus (status : Int32) : Value → Prop
  | integer {m : Numeral} : m.IsInteger → (m.negative = true → decimal m.whole ≠ 0) →
      m.integer = status.toInt → DenotesStatus status (.number m)
  | text {s : String} : Padded status.toInt s.toList → DenotesStatus status (.text s)

def DenotesRegion (r : RegionExtent) (v : Value) : Prop :=
  ∃ words size, Record [("words", words), ("word-size", size)] v ∧
    DenotesCount r.words words ∧ DenotesCount r.wordSize size

def DenotesCollaborator (c : CollaboratorValues) (v : Value) : Prop :=
  ∃ initialStatus status, Record [("initial-status", initialStatus), ("status", status)] v ∧
    DenotesStatus c.initialStatus initialStatus ∧ DenotesStatus c.status status

/-- The value is a record of the configuration's texts, of its region and of its collaborator. -/
def DenotesConfiguration (c : Configuration) (v : Value) : Prop :=
  ∃ region collaborator,
    Record [("arch", .text c.arch), ("os", .text c.os), ("entry-symbol", .text c.entrySymbol),
      ("reserved-region", region), ("collaborator", collaborator)] v ∧
    DenotesRegion c.region region ∧ DenotesCollaborator c.collaborator collaborator

/-- The numbers of a region fit 64 bits. -/
def RegionExtent.FitsWord (r : RegionExtent) : Prop :=
  r.words < 0x10000000000000000 ∧ r.wordSize < 0x10000000000000000

/-! ## Statuses -/

theorem int32?_eq_some {i : Int} {status : Int32} : int32? i = some status ↔ i = status.toInt := by
  unfold int32?
  constructor
  · intro h
    split at h
    · next hrange =>
      obtain rfl := Option.some.inj h
      exact (Int32.toInt_ofInt_of_le hrange.1 hrange.2).symm
    · cases h
  · rintro rfl
    rw [if_pos ⟨status.le_toInt, status.toInt_lt⟩, Int32.ofInt_toInt]

theorem statusOf_integer {i : Int} {status : Int32} :
    statusOf (.integer i) = .ok status ↔ i = status.toInt := by
  rw [← int32?_eq_some, statusOf]
  constructor
  · intro h
    split at h
    · cases hstatus : int32? i with
      | none =>
        rw [hstatus] at h
        cases h
      | some other =>
        rw [hstatus] at h
        rw [Except.ok.inj h]
    · cases h
  · intro h
    have hlow := status.le_toInt
    have hhigh := status.toInt_lt
    have hvalue := int32?_eq_some.mp h
    rw [if_pos (by omega), h]
    rfl

theorem statusOf_text {t : String} {status : Int32} :
    statusOf (.text t) = .ok status ↔ Padded status.toInt t.toList := by
  rw [← integer?_trim, statusOf]
  constructor
  · intro h
    cases hstatus : (Text.integer? (Text.trim t.toList)).bind int32? with
    | none =>
      rw [hstatus] at h
      cases h
    | some other =>
      rw [hstatus] at h
      obtain rfl := Except.ok.inj h
      obtain ⟨i, hi, hrange⟩ := Option.bind_eq_some_iff.mp hstatus
      rw [hi, int32?_eq_some.mp hrange]
  · intro h
    rw [h, Option.bind_some, int32?_eq_some.mpr rfl]
    rfl

theorem denotes_of_keeps {s : Scalar} {status : Int32} {v : Value} (hkeep : Keeps s v)
    (h : statusOf s = .ok status) : DenotesStatus status v := by
  cases hkeep with
  | @integer m hword =>
    refine .integer hword.1 ?_ (statusOf_integer.mp h)
    intro hneg
    have hfit := hword.2
    rw [if_pos hneg] at hfit
    omega
  | text => exact .text (statusOf_text.mp h)

theorem keeps_of_denotes {status : Int32} {v : Value} (h : DenotesStatus status v) :
    ∃ s, Keeps s v ∧ statusOf s = .ok status := by
  cases h with
  | @integer m hint hzero hvalue =>
    have hlow := status.le_toInt
    have hhigh := status.toInt_lt
    refine ⟨.integer m.integer, .integer ⟨hint, ?_⟩, statusOf_integer.mpr hvalue⟩
    unfold Numeral.integer at hvalue
    split
    · next hneg =>
      have hpos := hzero hneg
      rw [if_pos hneg] at hvalue
      omega
    · next hneg =>
      rw [if_neg hneg] at hvalue
      omega
  | @text t hpadded => exact ⟨.text t, .text, statusOf_text.mpr hpadded⟩

theorem reads_status (depth : Nat) : Reads (readStatus depth) DenotesStatus where
  sound {cs rest status} h := by
    obtain ⟨⟨s, after⟩, hvalue, hstatus⟩ := ok_of_bind h
    dsimp only at hstatus
    split at hstatus
    · next found hfound =>
      obtain ⟨rfl, rfl⟩ := Prod.mk.inj (Except.ok.inj hstatus)
      have hkept : s ≠ .other := by
        rintro rfl
        cases hfound
      obtain ⟨v, before, written, hb, hw, hkeep, hcut⟩ := value_sound hvalue hkept
      exact ⟨v, before, written, hb, hw, denotes_of_keeps hkeep hfound, hcut⟩
    · cases hstatus
  complete {status v before written rest} hv hw hb hrest := by
    obtain ⟨s, hkeep, hstatus⟩ := keeps_of_denotes hv
    have hvalue := value_complete hkeep hw hb hrest depth
    simp only [readStatus, hvalue, bind, Except.bind, hstatus, pure, Except.pure]

/-! ## Records -/

theorem require_eq_ok {κ : Type} {α : κ → Type} {slots : Slots α} {k : κ} {a : α k} :
    slots.require k = .ok a ↔ slots k = some a := by
  unfold Slots.require
  split
  · next value h => simp [h]
  · next h => simp [h]

def RegionExtent.part (r : RegionExtent) : RegionField → Nat
  | .words => r.words
  | .wordSize => r.wordSize

theorem region_lawful : regionShape.Lawful RegionExtent.part where
  every k := by cases k <;> decide
  nodup := by decide
  injective {j k} := by cases j <;> cases k <;> decide
  made {slots r} := by
    constructor
    · intro h
      obtain ⟨words, hwords, h⟩ := ok_of_bind h
      obtain ⟨size, hsize, h⟩ := ok_of_bind h
      obtain rfl := Except.ok.inj h
      rintro (_ | _)
      · exact require_eq_ok.mp hwords
      · exact require_eq_ok.mp hsize
    · intro h
      have hwords := require_eq_ok.mpr (h .words)
      have hsize := require_eq_ok.mpr (h .wordSize)
      simp only [regionShape, hwords, hsize, bind, Except.bind]
      rfl

theorem reads_region {depth : Nat} (hdepth : 1 < depth) :
    Reads (regionShape.record depth) fun r v => DenotesRegion r v ∧ r.FitsWord := by
  refine (Shape.reads_record region_lawful hdepth fun _ => reads_count "usize").of_iff fun r v => ?_
  constructor
  · rintro ⟨values, hmeans, hrecord⟩
    obtain ⟨hwords, hfit⟩ := hmeans .words
    obtain ⟨hsize, hfit'⟩ := hmeans .wordSize
    exact ⟨⟨values .words, values .wordSize, hrecord, hwords, hsize⟩, hfit, hfit'⟩
  · rintro ⟨⟨words, size, hrecord, hwords, hsize⟩, hfit, hfit'⟩
    refine ⟨fun | .words => words | .wordSize => size, ?_, hrecord⟩
    rintro (_ | _)
    · exact ⟨hwords, hfit⟩
    · exact ⟨hsize, hfit'⟩

def CollaboratorValues.part (c : CollaboratorValues) : CollaboratorField → Int32
  | .initialStatus => c.initialStatus
  | .status => c.status

theorem collaborator_lawful : collaboratorShape.Lawful CollaboratorValues.part where
  every k := by cases k <;> decide
  nodup := by decide
  injective {j k} := by cases j <;> cases k <;> decide
  made {slots r} := by
    constructor
    · intro h
      obtain ⟨initialStatus, hinitial, h⟩ := ok_of_bind h
      obtain ⟨status, hstatus, h⟩ := ok_of_bind h
      obtain rfl := Except.ok.inj h
      rintro (_ | _)
      · exact require_eq_ok.mp hinitial
      · exact require_eq_ok.mp hstatus
    · intro h
      have hinitial := require_eq_ok.mpr (h .initialStatus)
      have hstatus := require_eq_ok.mpr (h .status)
      simp only [collaboratorShape, hinitial, hstatus, bind, Except.bind]
      rfl

theorem reads_collaborator {depth : Nat} (hdepth : 1 < depth) :
    Reads (collaboratorShape.record depth) DenotesCollaborator := by
  refine (Shape.reads_record collaborator_lawful hdepth fun _ => reads_status _).of_iff
    fun c v => ?_
  constructor
  · rintro ⟨values, hmeans, hrecord⟩
    exact ⟨values .initialStatus, values .status, hrecord, hmeans .initialStatus, hmeans .status⟩
  · rintro ⟨initialStatus, status, hrecord, hinitial, hstatus⟩
    refine ⟨fun | .initialStatus => initialStatus | .status => status, ?_, hrecord⟩
    rintro (_ | _)
    · exact hinitial
    · exact hstatus

/-! ## The configuration -/

/-- What the value of a field means. -/
def Field.Means : (f : Field) → f.Value → Json.Value → Prop
  | .arch, s, v => v = .text s
  | .os, s, v => v = .text s
  | .entrySymbol, s, v => v = .text s
  | .region, r, v => DenotesRegion r v ∧ r.FitsWord
  | .collaborator, c, v => DenotesCollaborator c v

theorem reads_field {depth : Nat} (hdepth : 1 < depth) (f : Field) :
    Reads (f.read depth) f.Means := by
  cases f with
  | arch => exact reads_text
  | os => exact reads_text
  | entrySymbol => exact reads_text
  | region => exact reads_region hdepth
  | collaborator => exact reads_collaborator hdepth

def Configuration.part (c : Configuration) : (f : Field) → f.Value
  | .arch => c.arch
  | .os => c.os
  | .entrySymbol => c.entrySymbol
  | .region => c.region
  | .collaborator => c.collaborator

theorem configuration_lawful : configurationShape.Lawful Configuration.part where
  every k := by cases k <;> decide
  nodup := by decide
  injective {j k} := by cases j <;> cases k <;> decide
  made {slots c} := by
    constructor
    · intro h
      obtain ⟨arch, harch, h⟩ := ok_of_bind h
      obtain ⟨os, hos, h⟩ := ok_of_bind h
      obtain ⟨entrySymbol, hentry, h⟩ := ok_of_bind h
      obtain ⟨region, hregion, h⟩ := ok_of_bind h
      obtain ⟨collaborator, hcollaborator, h⟩ := ok_of_bind h
      obtain rfl := Except.ok.inj h
      rintro (_ | _ | _ | _ | _)
      · exact require_eq_ok.mp harch
      · exact require_eq_ok.mp hos
      · exact require_eq_ok.mp hentry
      · exact require_eq_ok.mp hregion
      · exact require_eq_ok.mp hcollaborator
    · intro h
      have harch := require_eq_ok.mpr (h .arch)
      have hos := require_eq_ok.mpr (h .os)
      have hentry := require_eq_ok.mpr (h .entrySymbol)
      have hregion := require_eq_ok.mpr (h .region)
      have hcollaborator := require_eq_ok.mpr (h .collaborator)
      simp only [configurationShape, Configuration.make, harch, hos, hentry, hregion,
        hcollaborator, bind, Except.bind]
      rfl

def Configuration.values (c : Configuration) (region collaborator : Json.Value) :
    Field → Json.Value
  | .arch => .text c.arch
  | .os => .text c.os
  | .entrySymbol => .text c.entrySymbol
  | .region => region
  | .collaborator => collaborator

theorem configurationShape_denotes {c : Configuration} {v : Json.Value} :
    configurationShape.Denotes Configuration.part Field.Means c v ↔
      DenotesConfiguration c v ∧ c.region.FitsWord := by
  constructor
  · rintro ⟨values, hmeans, hrecord⟩
    have harch : values .arch = .text c.arch := hmeans .arch
    have hos : values .os = .text c.os := hmeans .os
    have hentry : values .entrySymbol = .text c.entrySymbol := hmeans .entrySymbol
    obtain ⟨hregion, hfit⟩ := hmeans .region
    refine ⟨⟨values .region, values .collaborator, ?_, hregion, hmeans .collaborator⟩, hfit⟩
    rw [← harch, ← hos, ← hentry]
    exact hrecord
  · rintro ⟨⟨region, collaborator, hrecord, hregion, hcollaborator⟩, hfit⟩
    refine ⟨c.values region collaborator, ?_, hrecord⟩
    rintro (_ | _ | _ | _ | _)
    · rfl
    · rfl
    · rfl
    · exact ⟨hregion, hfit⟩
    · exact hcollaborator

/-- A text is read as the configuration that its value denotes, in whatever way it is written. -/
theorem parse_eq_ok {cs : List Char} {c : Configuration} :
    configurationShape.parse cs = .ok c ↔
      ∃ v, Document v cs ∧ DenotesConfiguration c v ∧ c.region.FitsWord := by
  rw [Shape.parse_eq_ok configuration_lawful (reads_field (by decide))]
  simp only [configurationShape_denotes]

end Freestanding.Layout
