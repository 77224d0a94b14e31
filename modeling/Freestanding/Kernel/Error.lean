/-!
# Answers of the kernel

A system call answers with one 64-bit integer. The values from -4095 to -1 are failures and carry
the number of an error; every other value is a result.
-/
namespace Freestanding.Kernel

/-- A failed system call, by the value it answered with. -/
structure KernelError where
  code : Int64
  deriving DecidableEq, Repr

namespace KernelError

/-- An error is the value that the call answered with. -/
theorem ext {e e' : KernelError} (h : e.code = e'.code) : e = e' := by
  cases e
  exact congrArg mk h

def notPermitted : KernelError := ⟨-1⟩
/-- The call was interrupted before it did anything. -/
def interrupted : KernelError := ⟨-4⟩
def inputOutput : KernelError := ⟨-5⟩
def badDescriptor : KernelError := ⟨-9⟩
/-- The call would have to wait. -/
def wouldBlock : KernelError := ⟨-11⟩
def badAddress : KernelError := ⟨-14⟩
def badArgument : KernelError := ⟨-22⟩
def noSpace : KernelError := ⟨-28⟩
def brokenPipe : KernelError := ⟨-32⟩
def notImplemented : KernelError := ⟨-38⟩

def description (e : KernelError) : String :=
  if e = notPermitted then "Operation not permitted"
  else if e = interrupted then "Interrupted system call"
  else if e = inputOutput then "I/O error"
  else if e = badDescriptor then "Bad file descriptor"
  else if e = wouldBlock then "Resource temporarily unavailable"
  else if e = badAddress then "Bad address"
  else if e = badArgument then "Invalid argument"
  else if e = noSpace then "No space left on device"
  else if e = brokenPipe then "Broken pipe"
  else if e = notImplemented then "Function not implemented"
  else "Unknown error"

/-- The error's number, without its sign; there is none for the least 64-bit integer, whose
negation is no 64-bit integer. -/
def number? (e : KernelError) : Option Int :=
  if e.code = Int64.minValue then none else some (-e.code.toInt)

def message? (e : KernelError) : Option String :=
  e.number?.map fun n => e.description ++ " (errno " ++ toString n ++ ")"

def record (e : KernelError) : String :=
  "SyscallError \x7b code: " ++ toString e.code.toInt ++ " \x7d"

end KernelError

/-- The meaning of an answer: a failure from -4095 to -1, otherwise a result, unsigned. -/
def decode (returned : Int64) : Except KernelError UInt64 :=
  if -4095 ≤ returned ∧ returned < 0 then .error ⟨returned⟩ else .ok returned.toUInt64

theorem decode_eq_error_iff {returned : Int64} {e : KernelError} :
    decode returned = .error e ↔ (-4095 ≤ returned ∧ returned < 0) ∧ e.code = returned := by
  unfold decode
  split
  · next h =>
    cases e
    simp [h, eq_comm]
  · next h => simp [h]

theorem decode_eq_ok_iff {returned : Int64} {n : UInt64} :
    decode returned = .ok n ↔ ¬(-4095 ≤ returned ∧ returned < 0) ∧ n = returned.toUInt64 := by
  unfold decode
  split
  · next h => simp [h]
  · next h => simp [h, eq_comm]

end Freestanding.Kernel
