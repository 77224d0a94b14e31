import Freestanding.Kernel.Delivery
import Freestanding.Proofs.Kernel.Answer

/-!
# The contract of the write call

A write call is to be answered by an error or by a count of the bytes that it offered. While every
call of an action is answered so, nothing is overrun, and a message whose failure is nobody's concern
always counts as delivered.
-/
namespace Freestanding.Kernel

open Freestanding.Text (utf8)

def Call.Honoured (call : Call) : Prop :=
  -4095 ≤ call.returned.toInt ∧ call.returned.toInt ≤ -1 ∨
    0 ≤ call.returned.toInt ∧ call.returned.toInt ≤ call.offered.length

/-- Every call of an action was answered as it is to be. -/
def Transfer.Honoured {α : Type} (t : Transfer α) : Prop := ∀ call ∈ t.calls, call.Honoured

/-! ## One action after another -/

/-- An action that makes no call. -/
def done {α : Type} (a : α) (d : Descriptor) : Transfer α := ⟨a, [], d⟩

/-- Acts on a descriptor, and then on the descriptor that is left. -/
def andThen {α β : Type} (act : Descriptor → Transfer α) (next : α → Descriptor → Transfer β)
    (d : Descriptor) : Transfer β :=
  (next (act d).result (act d).after).following (act d).calls

theorem honoured_andThen {α β : Type} {act : Descriptor → Transfer α}
    {next : α → Descriptor → Transfer β} {d : Descriptor} (h : (andThen act next d).Honoured) :
    (act d).Honoured ∧ (next (act d).result (act d).after).Honoured :=
  ⟨fun call hcall => h call (List.mem_append_left _ hcall),
    fun call hcall => h call (List.mem_append_right _ hcall)⟩

/-- What follows a piece: the other pieces if it was delivered, and nothing otherwise. -/
def afterPiece (pieces : List String) : Delivery → Descriptor → Transfer Delivery
  | .delivered => (·.writePieces pieces)
  | outcome => done outcome

theorem writePieces_nil : (Descriptor.writePieces · []) = done .delivered := rfl

theorem writePieces_cons (piece : String) (pieces : List String) (d : Descriptor) :
    d.writePieces (piece :: pieces) =
      andThen (·.writeAll (utf8 piece)) (afterPiece pieces) d := by
  simp only [Descriptor.writePieces, andThen]
  cases hresult : (d.writeAll (utf8 piece)).result with
  | delivered => rfl
  | failed e => simp [afterPiece, done, Transfer.following, ← hresult]
  | overrun returned left => simp [afterPiece, done, Transfer.following, ← hresult]

/-! ## Nothing is overrun -/

/-- An outcome that is no overrun. -/
def Delivery.Kept : Delivery → Prop
  | .overrun _ _ => False
  | _ => True

variable {offered bytes : List UInt8} {answer : Int64} {outcome : Delivery}

/-- An answer within the contract has its meaning whatever the length of the buffer. -/
theorem answer_of_honoured (h : (Call.mk offered answer).Honoured) :
    Answer offered answer (advance offered answer) := by
  simp only [Call.Honoured] at h
  exact answer_of_advance (.inr (by omega))

theorem kept_of_advance (h : (Call.mk offered answer).Honoured)
    (hstep : advance offered answer = .ends outcome) : outcome.Kept := by
  have hanswer := answer_of_honoured h
  rw [hstep] at hanswer
  simp only [Call.Honoured] at h
  cases hanswer with
  | nothing hint => trivial
  | failed hlow hneg hne => trivial
  | overrun hover => omega

theorem deliver_kept {device : Device} (h : (device.deliver bytes).Honoured) :
    (device.deliver bytes).result.Kept := by
  cases bytes with
  | nil => trivial
  | cons byte more =>
    have hcall := h _ (List.mem_singleton.mpr rfl)
    cases hstep : advance (byte :: more)
        ((device.reply (byte :: more).length).value (byte :: more).length) with
    | left rest =>
      simp only [Device.deliver, Descriptor.call, Transfer.map, hstep]
      trivial
    | ends outcome =>
      simp only [Device.deliver, Descriptor.call, Transfer.map, hstep]
      exact kept_of_advance hcall hstep

theorem deliverThrough_kept {device : Device} {script : List Reply}
    (h : (deliverThrough device script bytes).Honoured) :
    (deliverThrough device script bytes).result.Kept := by
  induction script generalizing bytes with
  | nil =>
    cases bytes with
    | nil => trivial
    | cons byte more => exact deliver_kept h
  | cons reply script ih =>
    cases bytes with
    | nil => trivial
    | cons byte more =>
      cases hstep : advance (byte :: more) (reply.value (byte :: more).length) with
      | left rest =>
        simp only [deliverThrough, hstep] at h ⊢
        exact ih fun call hcall => h call (List.mem_append_right _ hcall)
      | ends outcome =>
        simp only [deliverThrough, hstep] at h ⊢
        exact kept_of_advance (h _ (List.mem_singleton.mpr rfl)) hstep

theorem writePieces_kept {pieces : List String} {d : Descriptor}
    (h : (d.writePieces pieces).Honoured) : (d.writePieces pieces).result.Kept := by
  induction pieces generalizing d with
  | nil => trivial
  | cons piece pieces ih =>
    rw [writePieces_cons] at h ⊢
    obtain ⟨hpiece, hothers⟩ := honoured_andThen h
    have hkept : (d.writeAll (utf8 piece)).result.Kept := deliverThrough_kept hpiece
    simp only [andThen, Transfer.following]
    cases hresult : (d.writeAll (utf8 piece)).result with
    | delivered =>
      rw [hresult] at hothers
      exact ih hothers
    | failed e => trivial
    | overrun returned left => rwa [hresult] at hkept

/-- No failure of a message is reported. -/
theorem note_delivered {pieces : List String} {d : Descriptor} (h : (d.note pieces).Honoured) :
    (d.note pieces).result = .delivered := by
  have hkept : (d.writePieces pieces).result.Kept := writePieces_kept h
  simp only [Descriptor.note, Transfer.map]
  cases hresult : (d.writePieces pieces).result with
  | delivered => rfl
  | failed e => rfl
  | overrun returned left =>
    rw [hresult] at hkept
    cases hkept

end Freestanding.Kernel
