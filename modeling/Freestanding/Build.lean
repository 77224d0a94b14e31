/-!
# Builds

What is fixed when the programs are built: the numbers of their layout, which are the extent of the
reserved region and the two values of the exit-status cell; the names of the profile and of the
target; and whether exit paths write trace lines.
-/
namespace Freestanding.Layout

/-- The size of one word of the reserved region, in bytes. -/
def wordBytes : Nat := 8

/-- The largest reserved region, in words. -/
def maxWords : Nat := 4096

structure Numbers where
  words : Nat
  wordSize : Nat
  /-- The exit status before the collaborator runs. -/
  initialStatus : Int32
  /-- The exit status that the collaborator writes. -/
  status : Int32
  deriving DecidableEq, Repr

def Numbers.bytes (n : Numbers) : Nat := n.words * n.wordSize

def Numbers.standard : Numbers := ⟨16, wordBytes, 42, 7⟩

end Freestanding.Layout

namespace Freestanding.Exit

structure Build where
  layout : Layout.Numbers
  profile : String
  target : String
  traced : Bool

def Build.standard (traced : Bool) : Build :=
  ⟨.standard, "debug", "x86_64-unknown-linux-gnu", traced⟩

def fixedStatus : Int32 := 0

/-- The status with which a program ends whose contract is broken. -/
def abortStatus : Int32 := 101

def traceDescriptor : Nat := 2

/-- The number of the system call that writes. -/
def writeNumber : Nat := 1

/-- The number of the system call that ends all threads of a process. -/
def exitNumber : Nat := 231

end Freestanding.Exit
