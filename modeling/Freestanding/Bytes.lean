/-!
# Numbers as bytes

A natural number is spelled by a fixed number of bytes, with the lowest or the highest first. Below
the limit that the bytes allow, spelling and reading are inverse, in both orders.
-/
namespace Freestanding.Bytes

/-- The number that bytes spell, the lowest first. -/
def lowFirst : List UInt8 → Nat
  | [] => 0
  | b :: bs => b.toNat + 256 * lowFirst bs

/-- So many bytes of a number, the lowest first. -/
def lowBytes : Nat → Nat → List UInt8
  | 0, _ => []
  | size + 1, n => UInt8.ofNat n :: lowBytes size (n / 256)

/-- The least number that so many bytes do not spell. -/
def limit : Nat → Nat
  | 0 => 1
  | size + 1 => 256 * limit size

@[simp] theorem length_lowBytes (size n : Nat) : (lowBytes size n).length = size := by
  induction size generalizing n with
  | zero => rfl
  | succ size ih => simp [lowBytes, ih]

theorem lowFirst_lowBytes (size n : Nat) : lowFirst (lowBytes size n) = n % limit size := by
  induction size generalizing n with
  | zero => simp [lowBytes, lowFirst, limit, Nat.mod_one]
  | succ size ih =>
    rw [lowBytes, lowFirst, ih, UInt8.toNat_ofNat', limit, Nat.mod_mul]

theorem lowFirst_lt (bytes : List UInt8) : lowFirst bytes < limit bytes.length := by
  induction bytes with
  | nil => simp [lowFirst, limit]
  | cons b bs ih =>
    have hb := b.toNat_lt
    rw [lowFirst, List.length_cons, limit]
    omega

theorem lowBytes_lowFirst (bytes : List UInt8) :
    lowBytes bytes.length (lowFirst bytes) = bytes := by
  induction bytes with
  | nil => rfl
  | cons b bs ih =>
    have hb := b.toNat_lt
    have hlow : (b.toNat + 256 * lowFirst bs) % 256 = b.toNat := by omega
    have hhigh : (b.toNat + 256 * lowFirst bs) / 256 = lowFirst bs := by omega
    rw [lowFirst, List.length_cons, lowBytes, hhigh, ih]
    congr 1
    apply UInt8.toNat.inj
    rw [UInt8.toNat_ofNat']
    exact hlow

/-- The order in which the bytes of a number stand. -/
inductive ByteOrder where
  | littleEndian
  | bigEndian
  deriving DecidableEq, Repr

def ByteOrder.value (order : ByteOrder) (bytes : List UInt8) : Nat :=
  match order with
  | .littleEndian => lowFirst bytes
  | .bigEndian => lowFirst bytes.reverse

def ByteOrder.bytes (order : ByteOrder) (size n : Nat) : List UInt8 :=
  match order with
  | .littleEndian => lowBytes size n
  | .bigEndian => (lowBytes size n).reverse

@[simp] theorem ByteOrder.length_bytes (order : ByteOrder) (size n : Nat) :
    (order.bytes size n).length = size := by
  cases order <;> simp [ByteOrder.bytes]

theorem ByteOrder.value_bytes (order : ByteOrder) (size n : Nat) :
    order.value (order.bytes size n) = n % limit size := by
  cases order <;> simp [ByteOrder.value, ByteOrder.bytes, lowFirst_lowBytes]

end Freestanding.Bytes
