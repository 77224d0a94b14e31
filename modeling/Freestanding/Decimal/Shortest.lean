/-!
# The fewest digits that read back

A finite binary number is `m * 2 ^ q`, and the reals that round to it form an interval around it.
Its shortest decimal is the one with the fewest digits inside that interval, and of those with equally
many the nearest. All comparisons are made on natural numbers, by cross-multiplication.

A decimal of moderate size is written positionally, always with a point, and any other as a mantissa
and a signed exponent. The bounds are a value of the style.
-/
namespace Freestanding.Decimal

/-- The magnitude `significand * 2 ^ exponent` of a finite binary number. `narrowBelow` says that the
neighbour below is only half as far away as the one above. -/
structure Binary where
  significand : Nat
  exponent : Int
  narrowBelow : Bool

/-- The parts of a finite 64-bit floating-point number, from its bits. -/
def Binary.ofBits (bits : Nat) : Binary :=
  let fraction := bits % 0x10000000000000
  let scale := bits / 0x10000000000000 % 0x800
  if scale = 0 then ⟨fraction, -1074, false⟩
  else ⟨0x10000000000000 + fraction, Int.ofNat scale - 1075, fraction == 0 && scale != 1⟩

/-- A ratio of naturals equal to `base ^ e`. -/
def powerRatio (base : Nat) (e : Int) : Nat × Nat :=
  match e with
  | .ofNat n => (base.pow n, 1)
  | .negSucc n => (1, base.pow (n + 1))

/-- A decimal `digits * 10 ^ exponent`. -/
structure Scaled where
  digits : Nat
  exponent : Int

namespace Binary

/-- Compares a decimal with `quarters` quarter units of a binary number: both sides are brought to
one denominator. -/
def compareQuarters (b : Binary) (d : Scaled) (quarters : Nat) : Ordering :=
  let unit := powerRatio 2 (b.exponent - 2)
  let grid := powerRatio 10 d.exponent
  compare (d.digits * grid.1 * unit.2) (quarters * unit.1 * grid.2)

/-- Whether a decimal rounds to the number: it lies between the two halfway points, or on one of
them where the significand is even. -/
def readsBack (b : Binary) (d : Scaled) : Bool :=
  let even := b.significand % 2 == 0
  let low := b.compareQuarters d (4 * b.significand - if b.narrowBelow then 1 else 2)
  let high := b.compareQuarters d (4 * b.significand + 2)
  (low == .gt || (even && low == .eq)) && (high == .lt || (even && high == .eq))

/-- The least exponent of ten above the number, searched downwards from `high`. -/
def ceilingFrom (b : Binary) (high : Int) : Nat → Int
  | 0 => high
  | n + 1 =>
    if b.compareQuarters ⟨1, high - 1⟩ (4 * b.significand) == .gt then ceilingFrom b (high - 1) n
    else high

/-- The least exponent of ten above the number; the largest finite number is below `10 ^ 309`. -/
def ceiling (b : Binary) : Int := b.ceilingFrom 309 640

/-- The decimals of a given number of digits next to the number, from below and from above. -/
def neighbours (b : Binary) (top : Int) (count : Nat) : Scaled × Scaled :=
  let unit := powerRatio 2 b.exponent
  let grid := powerRatio 10 (top - count)
  let below := b.significand * unit.1 * grid.2 / (unit.2 * grid.1)
  (⟨below, top - count⟩, ⟨below + 1, top - count⟩)

/-- The nearer of two neighbours that read back; of two equally near ones the even one. -/
def nearer (b : Binary) (low high : Scaled) : Scaled :=
  match b.compareQuarters ⟨low.digits + high.digits, low.exponent⟩ (8 * b.significand) with
  | .gt => low
  | .lt => high
  | .eq => if low.digits % 2 = 0 then low else high

/-- The first grid, of `count` digits or more, on which a neighbour reads back. -/
def searchFrom (b : Binary) (top : Int) (count : Nat) : Nat → Scaled
  | 0 => (b.neighbours top count).1
  | n + 1 =>
    let (low, high) := b.neighbours top count
    match b.readsBack low, b.readsBack high with
    | true, true => b.nearer low high
    | true, false => low
    | false, true => high
    | false, false => searchFrom b top (count + 1) n

end Binary

/-- A decimal without zeros at its end. -/
def Scaled.stripped (d : Scaled) : Nat → Scaled
  | 0 => d
  | n + 1 => if d.digits % 10 = 0 then Scaled.stripped ⟨d.digits / 10, d.exponent + 1⟩ n else d

/-- The shortest decimal that reads back to a number other than zero. Seventeen digits suffice. -/
def shortest (b : Binary) : Scaled := (b.searchFrom b.ceiling 1 17).stripped 18

/-- The decimal exponents, of the first digit, that are written positionally. -/
structure Style where
  lowest : Int
  highest : Int

def Style.render (style : Style) (d : Scaled) : String :=
  let text := Nat.toDigits 10 d.digits
  let lead := d.exponent + text.length - 1
  String.ofList <|
    if style.lowest ≤ lead ∧ lead ≤ style.highest then
      if 0 ≤ d.exponent then text ++ List.replicate d.exponent.toNat '0' ++ ['.', '0']
      else if 0 ≤ lead then
        text.take (lead.toNat + 1) ++ '.' :: text.drop (lead.toNat + 1)
      else ['0', '.'] ++ List.replicate (-lead - 1).toNat '0' ++ text
    else
      let mantissa := if text.length ≤ 1 then text else text.take 1 ++ '.' :: text.drop 1
      let sign := if lead < 0 then '-' else '+'
      mantissa ++ 'e' :: sign :: Nat.toDigits 10 lead.natAbs

def Style.float (style : Style) (f : Float) : String :=
  let bits := f.toBits.toNat
  let b := Binary.ofBits bits
  let sign := if bits / 0x8000000000000000 = 1 then "-" else ""
  sign ++ if b.significand = 0 then "0.0" else style.render (shortest b)

end Freestanding.Decimal
