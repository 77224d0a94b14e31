import Freestanding.Kernel.Descriptor
import Freestanding.Text.Utf8

/-!
# Delivering a whole buffer

A buffer is offered again and again, each time without the bytes that were accepted, until nothing is
left of it. An interrupted call is repeated; any other failure ends the delivery. An answer of zero
is taken for a failure, because nothing would ever be left of it. An answer beyond the bytes offered
breaks the contract of the call and ends the delivery as an overrun.

A formatted message reaches a descriptor piece by piece. Each piece is delivered whole before the
next one is begun, and the first piece that is not delivered ends the message.
-/
namespace Freestanding.Kernel

open Freestanding.Text (utf8)

inductive Delivery where
  | delivered
  | failed (error : KernelError)
  /-- A call answered with a count beyond the bytes that were left. -/
  | overrun (returned : UInt64) (left : Nat)
  deriving DecidableEq, Repr

/-- The report with which an overrun ends the program. -/
def Delivery.report? : Delivery → Option String
  | .overrun returned left =>
    some ("range start index " ++ toString returned.toNat ++ " out of range for slice of length " ++
      toString left)
  | _ => none

/-- What the answer to one call means for the delivery. -/
inductive Progress where
  | left (bytes : List UInt8)
  | ends (outcome : Delivery)

/-- The progress that an answer makes on the bytes offered. -/
def advance (offered : List UInt8) (returned : Int64) : Progress :=
  match decode returned with
  | .ok count =>
    if count = 0 then .ends (.failed .inputOutput)
    else if count.toNat ≤ offered.length then .left (offered.drop count.toNat)
    else .ends (.overrun count offered.length)
  | .error e => if e = .interrupted then .left offered else .ends (.failed e)

theorem advance_interrupted (offered : List UInt8) :
    advance offered KernelError.interrupted.code = .left offered := rfl

/-- A call that takes everything leaves nothing. -/
theorem advance_takesAll {offered : List UInt8} (hpos : offered ≠ [])
    (hlen : offered.length < 0x8000000000000000) :
    advance offered (Reply.takesAll.value offered.length) = .left [] := by
  have hpos : 0 < offered.length := List.length_pos_iff.mpr hpos
  have hint : (Int64.ofNat offered.length).toInt = offered.length := by
    rw [Int64.toInt_ofNat_of_lt (by omega)]
  have hzero : (0 : Int64).toInt = 0 := rfl
  have hdecode : decode (Int64.ofNat offered.length) = .ok (UInt64.ofNat offered.length) := by
    rw [decode_eq_ok_iff]
    refine ⟨?_, rfl⟩
    rintro ⟨_, hneg⟩
    rw [Int64.lt_iff_toInt_lt, hint, hzero] at hneg
    omega
  have hnat : (UInt64.ofNat offered.length).toNat = offered.length :=
    UInt64.toNat_ofNat_of_lt' (by rw [UInt64.size]; omega)
  have hne : UInt64.ofNat offered.length ≠ 0 := by
    intro h
    have hlength : offered.length = 0 := by rw [← hnat, h]; rfl
    omega
  simp [advance, Reply.value, hdecode, hne, hnat]

/-- Delivers bytes to a device without a script. One call settles it, because a device either accepts
all it is offered or fails. -/
def Device.deliver (device : Device) : List UInt8 → Transfer Delivery
  | [] => ⟨.delivered, [], ⟨[], device⟩⟩
  | byte :: more =>
    let sent := (Descriptor.mk [] device).call (byte :: more)
    sent.map fun returned =>
      match advance (byte :: more) returned with
      | .left _ => .delivered
      | .ends outcome => outcome

/-- Delivers bytes through a script of answers and then to its device. -/
def deliverThrough (device : Device) : List Reply → List UInt8 → Transfer Delivery
  | script, [] => ⟨.delivered, [], ⟨script, device⟩⟩
  | [], byte :: more => device.deliver (byte :: more)
  | reply :: rest, byte :: more =>
    let offered := byte :: more
    let returned := reply.value offered.length
    let call : Call := ⟨offered, returned⟩
    match advance offered returned with
    | .left bytes => (deliverThrough device rest bytes).following [call]
    | .ends outcome => ⟨outcome, [call], ⟨rest, device⟩⟩

def Descriptor.writeAll (d : Descriptor) (bytes : List UInt8) : Transfer Delivery :=
  deliverThrough d.device d.script bytes

/-- Delivers the pieces of a message in order, up to the first that is not delivered. -/
def Descriptor.writePieces (d : Descriptor) : List String → Transfer Delivery
  | [] => ⟨.delivered, [], d⟩
  | piece :: pieces =>
    let sent := d.writeAll (utf8 piece)
    match sent.result with
    | .delivered => (sent.after.writePieces pieces).following sent.calls
    | _ => sent

/-- Delivers a message whose failure is nobody's concern: only an overrun is reported. -/
def Descriptor.note (d : Descriptor) (pieces : List String) : Transfer Delivery :=
  (d.writePieces pieces).map fun
    | .failed _ => .delivered
    | outcome => outcome

/-- Spaces that bring a text to a width. -/
def padding (width : Nat) (text : String) : List String :=
  List.replicate (width - text.length) " "

end Freestanding.Kernel
