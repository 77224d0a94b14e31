import Freestanding.Proofs.Kernel.Conservation
import Freestanding.Proofs.Kernel.Contract
import Freestanding.Text.Utf8

/-!
# A descriptor that takes every byte

As long as each call is answered with a count of at least one byte or was interrupted, a delivery
goes on until nothing is left of the buffer. So a message is accepted as it is, piece after piece.
-/
namespace Freestanding.Kernel

open Freestanding.Text (utf8 utf8_append)

/-- A call that takes at least one byte of what it offers, or is interrupted before it does. What it
offers is a buffer in memory. -/
structure Call.Takes (call : Call) : Prop where
  inMemory : call.offered.length < 0x8000000000000000
  answer : call.returned.toInt = -4 ∨
    0 < call.returned.toInt ∧ call.returned.toInt ≤ call.offered.length

/-- Every call of an action takes something or is interrupted. -/
def Transfer.Takes {α : Type} (t : Transfer α) : Prop := ∀ call ∈ t.calls, call.Takes

instance (call : Call) : Decidable call.Takes :=
  decidable_of_iff (call.offered.length < 0x8000000000000000 ∧ (call.returned.toInt = -4 ∨
    0 < call.returned.toInt ∧ call.returned.toInt ≤ call.offered.length))
    ⟨fun h => ⟨h.1, h.2⟩, fun h => ⟨h.inMemory, h.answer⟩⟩

theorem takes_andThen {α β : Type} {act : Descriptor → Transfer α}
    {next : α → Descriptor → Transfer β} {d : Descriptor} (h : (andThen act next d).Takes) :
    (act d).Takes ∧ (next (act d).result (act d).after).Takes :=
  List.forall_mem_append.mp h

/-! ## One buffer -/

variable {bytes : List UInt8}

theorem advance_of_takes {offered : List UInt8} {returned : Int64}
    (h : (Call.mk offered returned).Takes) : ∃ rest, advance offered returned = .left rest := by
  have hanswer : Answer offered returned (advance offered returned) :=
    advance_answer h.inMemory returned
  have htakes : returned.toInt = -4 ∨
      0 < returned.toInt ∧ returned.toInt ≤ offered.length := h.answer
  cases hstep : advance offered returned with
  | left rest => exact ⟨rest, rfl⟩
  | ends outcome =>
    rw [hstep] at hanswer
    cases hanswer with
    | nothing hint => omega
    | failed hlow hneg hne => omega
    | overrun hint => omega

theorem deliver_takes {device : Device} (h : (device.deliver bytes).Takes) :
    (device.deliver bytes).result = .delivered := by
  cases bytes with
  | nil => rfl
  | cons byte more =>
    obtain ⟨rest, hrest⟩ := advance_of_takes (h _ (List.mem_singleton.mpr rfl))
    simp only [Device.deliver, Descriptor.call, Transfer.map, hrest]

theorem deliverThrough_takes {device : Device} {script : List Reply}
    (h : (deliverThrough device script bytes).Takes) :
    (deliverThrough device script bytes).result = .delivered := by
  induction script generalizing bytes with
  | nil =>
    cases bytes with
    | nil => rfl
    | cons byte more => exact deliver_takes h
  | cons reply script ih =>
    cases bytes with
    | nil => rfl
    | cons byte more =>
      cases hstep : advance (byte :: more) (reply.value (byte :: more).length) with
      | left rest =>
        simp only [deliverThrough, hstep] at h ⊢
        exact ih fun call hcall => h call (List.mem_append_right _ hcall)
      | ends outcome =>
        simp only [deliverThrough, hstep] at h
        obtain ⟨rest, hrest⟩ := advance_of_takes (h _ (List.mem_singleton.mpr rfl))
        rw [hstep] at hrest
        cases hrest

/-- The first call of a delivery offers the whole buffer. -/
theorem writeAll_offers (d : Descriptor) (hne : bytes ≠ []) :
    ∃ call ∈ (d.writeAll bytes).calls, call.offered = bytes := by
  obtain ⟨byte, more, rfl⟩ := List.exists_cons_of_ne_nil hne
  obtain ⟨script, device⟩ := d
  cases script with
  | nil => exact ⟨_, List.mem_singleton.mpr rfl, rfl⟩
  | cons reply script =>
    refine ⟨⟨byte :: more, reply.value (byte :: more).length⟩, ?_, rfl⟩
    simp only [Descriptor.writeAll, deliverThrough]
    split <;> exact List.mem_cons_self

theorem writeAll_takes {d : Descriptor} (h : (d.writeAll bytes).Takes) :
    (d.writeAll bytes).result = .delivered ∧ accepted (d.writeAll bytes).calls = bytes := by
  have hdelivered : (d.writeAll bytes).result = .delivered := deliverThrough_takes h
  refine ⟨hdelivered, ?_⟩
  by_cases hne : bytes = []
  · subst hne
    rw [Descriptor.writeAll, deliverThrough]
    rfl
  · obtain ⟨call, hcall, hoffered⟩ := writeAll_offers d hne
    have hbound : bytes.length < 0x8000000000000000 := hoffered ▸ (h call hcall).inMemory
    exact accepted_of_delivered d ⟨bytes, hbound⟩ hdelivered

/-! ## One message -/

theorem writePieces_takes {pieces : List String} {d : Descriptor}
    (h : (d.writePieces pieces).Takes) :
    (d.writePieces pieces).result = .delivered ∧
      accepted (d.writePieces pieces).calls = utf8 (String.join pieces) := by
  induction pieces generalizing d with
  | nil => exact ⟨rfl, rfl⟩
  | cons piece pieces ih =>
    rw [writePieces_cons] at h ⊢
    obtain ⟨hpiece, hothers⟩ := takes_andThen h
    obtain ⟨hsent, haccepted⟩ := writeAll_takes hpiece
    rw [hsent] at hothers
    obtain ⟨hresult, hrest⟩ := ih hothers
    simp only [andThen, Transfer.following, hsent, accepted_append, haccepted, String.join_cons,
      utf8_append]
    exact ⟨hresult, congrArg (utf8 piece ++ ·) hrest⟩

/-- A message is accepted as it is. -/
theorem note_takes {pieces : List String} {d : Descriptor} (h : (d.note pieces).Takes) :
    (d.note pieces).result = .delivered ∧
      accepted (d.note pieces).calls = utf8 (String.join pieces) := by
  obtain ⟨hresult, haccepted⟩ := writePieces_takes (d := d) h
  refine ⟨?_, haccepted⟩
  rw [Descriptor.note, Transfer.map, hresult]

end Freestanding.Kernel
