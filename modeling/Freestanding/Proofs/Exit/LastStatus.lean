import Mathlib.Data.List.Induction
import Freestanding.Proofs.Exit.Tracing

/-!
# The status that the cell leaves

Whoever writes the status cell, the process ends with the value of the last write, and each read
before returns the value of the last write before it. The integer in the cell, the argument of the
call that ends the process and the byte that the parent sees are one status.
-/
namespace Freestanding.Status

/-! ## The last write -/

/-- The value that steps leave, by the last of them that is no read: what was written, or what the
collaborator is configured to write, or the value at first where all of them read. -/
inductive LastWrite (configured initial : Int32) : List Step → Int32 → Prop
  | unwritten {steps : List Step} : (∀ s ∈ steps, s = .read) →
      LastWrite configured initial steps initial
  | write {before after : List Step} {writer : Writer} {value : Int32} :
      (∀ s ∈ after, s = .read) →
      LastWrite configured initial (before ++ .write writer value :: after) value
  | collaborate {before after : List Step} : (∀ s ∈ after, s = .read) →
      LastWrite configured initial (before ++ .collaborate :: after) configured

variable {configured initial value : Int32} {steps : List Step}

theorem Cell.run_append (configured : Int32) (cell : Cell) (steps more : List Step) :
    cell.run configured (steps ++ more) = (cell.run configured steps).run configured more :=
  List.foldl_append

theorem Cell.run_of_reads (h : ∀ s ∈ steps, s = .read) (cell : Cell) :
    cell.run configured steps = cell := by
  induction steps with
  | nil => rfl
  | cons s steps ih =>
    rw [List.forall_mem_cons] at h
    rw [Cell.run_cons, h.1]
    exact ih h.2

theorem LastWrite.value_run {cell : Cell} (h : LastWrite configured cell.value steps value) :
    (cell.run configured steps).value = value := by
  cases h with
  | unwritten hreads => rw [Cell.run_of_reads hreads]
  | write hreads =>
    rw [Cell.run_append, Cell.run_cons, Cell.run_of_reads hreads]
    rfl
  | collaborate hreads =>
    rw [Cell.run_append, Cell.run_cons, Cell.run_of_reads hreads]
    rfl

theorem LastWrite.read (h : LastWrite configured initial steps value) :
    LastWrite configured initial (steps ++ [.read]) value := by
  have hmore {others : List Step} (hreads : ∀ s ∈ others, s = .read) :
      ∀ s ∈ others ++ [Step.read], s = .read := by
    intro s hs
    exact (List.mem_append.mp hs).elim (hreads s) List.mem_singleton.mp
  cases h with
  | unwritten hreads => exact .unwritten (hmore hreads)
  | write hreads =>
    rw [List.append_assoc, List.cons_append]
    exact .write (hmore hreads)
  | collaborate hreads =>
    rw [List.append_assoc, List.cons_append]
    exact .collaborate (hmore hreads)

/-- The cell holds the last write. -/
theorem lastWrite_run (configured : Int32) (cell : Cell) (steps : List Step) :
    LastWrite configured cell.value steps (cell.run configured steps).value := by
  induction steps using List.reverseRecOn with
  | nil => exact .unwritten nofun
  | append_singleton steps s ih =>
    rw [Cell.run_append]
    cases s with
    | read => exact ih.read
    | write writer value => exact .write nofun
    | collaborate => exact .collaborate nofun

theorem lastWrite_iff {cell : Cell} :
    LastWrite configured cell.value steps value ↔ value = (cell.run configured steps).value := by
  constructor
  · exact fun h => h.value_run.symm
  · rintro rfl
    exact lastWrite_run ..

/-! ## Reads -/

/-- What a step returns, if it is a read. -/
def Cell.reading (cell : Cell) : Step → List Int32
  | .read => [cell.value]
  | _ => []

/-- What the reads among steps return, in order. -/
def Cell.readings (configured : Int32) (cell : Cell) : List Step → List Int32
  | [] => []
  | s :: steps => cell.reading s ++ (cell.step configured s).readings configured steps

theorem Cell.readings_append (configured : Int32) (cell : Cell) (steps more : List Step) :
    cell.readings configured (steps ++ more) =
      cell.readings configured steps
        ++ (cell.run configured steps).readings configured more := by
  induction steps generalizing cell with
  | nil => rfl
  | cons s steps ih =>
    rw [List.cons_append, Cell.readings, ih, Cell.readings, Cell.run_cons, List.append_assoc]

theorem Cell.length_readings (configured : Int32) (cell : Cell) (steps : List Step) :
    (cell.readings configured steps).length = steps.count .read := by
  induction steps generalizing cell with
  | nil => rfl
  | cons s steps ih =>
    rw [Cell.readings, List.length_append, ih, List.count_cons, Nat.add_comm]
    cases s <;> rfl

/-- A read returns what the cell holds after the steps before it. -/
theorem Cell.readings_read (configured : Int32) (cell : Cell) (before later : List Step) :
    (cell.readings configured (before ++ .read :: later))[before.count .read]? =
      some (cell.run configured before).value := by
  rw [Cell.readings_append, ← Cell.length_readings configured cell before,
    List.getElem?_append_right (Nat.le_refl _), Nat.sub_self]
  rfl

/-! ## The byte that is observed -/

/-- The lowest byte of a word does not tell whether the word has a sign. -/
theorem toInt_emod_byte {width : Nat} (h : 8 ≤ width) (word : BitVec width) :
    word.toInt % 256 = (word.toNat % 256 : Nat) := by
  obtain ⟨more, rfl⟩ := Nat.exists_eq_add_of_le h
  have hlimit : 2 ^ (8 + more) = 256 * 2 ^ more := Nat.pow_add ..
  have hcond := BitVec.toInt_eq_toNat_cond word
  rw [hlimit] at hcond
  split at hcond <;> omega

theorem toNat_observed (status : Int32) : ((observed status).toNat : Int) = status.toInt % 256 := by
  have hmask : status.toUInt32.toNat &&& 255 = status.toUInt32.toNat % 256 :=
    Nat.and_two_pow_sub_one_eq_mod _ 8
  have hbyte : (observed status).toNat = (status.toUInt32.toNat &&& 255) % 256 := by
    rw [observed, observableMask, Int32.toUInt32_and, UInt32.toNat_toUInt8, UInt32.toNat_and]
    rfl
  have hword : status.toInt % 256 = (status.toUInt32.toNat % 256 : Nat) :=
    toInt_emod_byte (by decide) status.toBitVec
  rw [hbyte, hmask, hword]
  omega

end Freestanding.Status

namespace Freestanding.Exit

open Freestanding.Kernel
open Freestanding.Status

variable {words : Nat}

theorem toInt_exitArgument (status : Int32) :
    (exitArgument status).toInt64.toInt = status.toInt := by
  rw [exitArgument, Int64.toInt64_toUInt64, Int32.toInt_toInt64]

theorem toNat_parentStatus (status : Int32) :
    ((parentStatus (exitArgument status)).toNat : Int) = status.toInt % 256 := by
  have hword : status.toInt64.toInt % 256 = (status.toInt64.toUInt64.toNat % 256 : Nat) :=
    toInt_emod_byte (by decide) status.toInt64.toBitVec
  rw [Int32.toInt_toInt64] at hword
  rw [parentStatus, exitArgument, UInt64.toNat_toUInt8, hword]

theorem parentStatus_eq_observed (status : Int32) :
    parentStatus (exitArgument status) = observed status := by
  apply UInt8.toNat_inj.mp
  have hparent := toNat_parentStatus status
  have hobserved := toNat_observed status
  omega

/-! ## The path of the cell -/

/-- What the process holds when the path of the cell ends it. -/
theorem through_withState (build : Build) (held : Statics words) (steps : List Step) :
    held.through build.layout.status ((Procedure.withState steps).actions build) =
      { held with cell := held.cell.run build.layout.status steps } := by
  simp only [Procedure.actions, Procedure.work, through_append, through_steps]
  rfl

/-- The last write decides the exit status. The process ends with the value that the last writing
step left, or else the initial one: always in a build without tracing, and in a traced build as long
as its calls are answered as they are to be. Each read returns the value of the last write before it.
The parent sees that status modulo 256, which is also what is observed of the cell after the steps. -/
theorem withState_exits_last (build : Build) (held : Statics words) (steps : List Step) :
    ∃ final, (∀ value, LastWrite build.layout.status held.cell.value steps value ↔ value = final) ∧
      (build.traced = false → ∀ trace, (Procedure.withState steps).run build held trace =
        ⟨(.exits final, { held with cell := ⟨final⟩ }), [], trace⟩) ∧
      (∀ trace, ((Procedure.withState steps).run build held trace).Honoured →
        ((Procedure.withState steps).run build held trace).result =
          (.exits final, { held with cell := ⟨final⟩ })) ∧
      (∀ before later, steps = before ++ .read :: later →
        ∃ value, LastWrite build.layout.status held.cell.value before value ∧
          (held.cell.readings build.layout.status steps)[before.count .read]? = some value) ∧
      (exitArgument final).toInt64.toInt = final.toInt ∧
      ((parentStatus (exitArgument final)).toNat : Int) = final.toInt % 256 ∧
      parentStatus (exitArgument final) =
        observed (held.cell.run build.layout.status steps).value := by
  have hheld := through_withState build held steps
  refine ⟨(held.cell.run build.layout.status steps).value, fun value => lastWrite_iff,
    fun hbuild trace => ?_, fun trace hkept => ?_, ?_, toInt_exitArgument _, toNat_parentStatus _,
    parentStatus_eq_observed _⟩
  · rw [Procedure.run, perform_untraced hbuild, hheld]
    rfl
  · rw [Procedure.run, perform_honoured hkept, hheld]
    rfl
  · rintro before later rfl
    exact ⟨_, lastWrite_run .., Cell.readings_read ..⟩

end Freestanding.Exit
