import Freestanding.Kernel.Error

/-!
# Descriptors and write calls

A descriptor is known by the answers its write calls get: a script of answers first, and those of a
device for ever after. A call that answers with a positive count within what it was offered accepts
that many bytes, from the front; any other call accepts none.
-/
namespace Freestanding.Kernel

inductive Reply where
  /-- This value, whatever was asked for. -/
  | returns (value : Int64)
  /-- Everything that was asked for. -/
  | takesAll
  deriving DecidableEq, Repr

/-- The value with which a call of a given length is answered. -/
def Reply.value (reply : Reply) (length : Nat) : Int64 :=
  match reply with
  | .returns value => value
  | .takesAll => Int64.ofNat length

inductive Device where
  | accepting
  | full
  | unwritable
  /-- Is a pipe without a reader; writing nothing to it succeeds. -/
  | brokenPipe
  deriving DecidableEq, Repr

/-- The answer of a device to a call of a given length. -/
def Device.reply (device : Device) (length : Nat) : Reply :=
  match device with
  | .accepting => .takesAll
  | .full => .returns KernelError.noSpace.code
  | .unwritable => .returns KernelError.badDescriptor.code
  | .brokenPipe => if length = 0 then .takesAll else .returns KernelError.brokenPipe.code

/-- A descriptor: the answers still to come, and the device that answers after them. -/
structure Descriptor where
  script : List Reply
  device : Device

/-- A write call that was made: what it offered, and the answer. -/
structure Call where
  offered : List UInt8
  returned : Int64

def Call.accepted (call : Call) : List UInt8 :=
  if 0 < call.returned.toInt ∧ call.returned.toInt ≤ call.offered.length then
    call.offered.take call.returned.toInt.toNat
  else []

/-- The bytes that a sequence of calls accepted, in order. -/
def accepted (calls : List Call) : List UInt8 := calls.flatMap Call.accepted

/-- What an action on a descriptor comes to: its result, the calls it made in order, and the
descriptor it leaves. -/
structure Transfer (α : Type) where
  result : α
  calls : List Call
  after : Descriptor

def Transfer.map {α β : Type} (f : α → β) (t : Transfer α) : Transfer β :=
  ⟨f t.result, t.calls, t.after⟩

/-- Puts the calls of an earlier action in front. -/
def Transfer.following {α : Type} (calls : List Call) (t : Transfer α) : Transfer α :=
  { t with calls := calls ++ t.calls }

/-- One write call, with its answer as it comes. -/
def Descriptor.call (d : Descriptor) (bytes : List UInt8) : Transfer Int64 :=
  match d.script with
  | [] =>
    let returned := (d.device.reply bytes.length).value bytes.length
    ⟨returned, [⟨bytes, returned⟩], d⟩
  | reply :: rest =>
    let returned := reply.value bytes.length
    ⟨returned, [⟨bytes, returned⟩], { d with script := rest }⟩

/-- One write call, with its answer decoded. -/
def Descriptor.write (d : Descriptor) (bytes : List UInt8) : Transfer (Except KernelError UInt64) :=
  (d.call bytes).map decode

end Freestanding.Kernel
