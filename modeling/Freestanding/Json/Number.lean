import Freestanding.Json.Fault
import Freestanding.Text.Numeral

/-!
# Numbers of JSON

A number without fraction and exponent is an integer where it fits 64 bits. Every other number is
floating-point: as many digits as fit 64 bits count, and each further digit of the integer part
counts as a power of ten. The zero with a minus is floating-point as well.
-/
namespace Freestanding.Json

open Freestanding.Text (byteCount digit?)

inductive Number where
  /-- An integer that is not negative, below `2 ^ 64`. -/
  | natural (value : Nat)
  /-- The negative of an integer from one to `2 ^ 63`. -/
  | negative (value : Nat)
  | real (value : Float)

/-- The least number that the significand of a number does not hold. -/
def significandLimit : Nat := 0x10000000000000000

/-- Reads digits that continue a significand, as many as fit. -/
def fittingDigits (high : Nat) : List Char → Nat × List Char
  | [] => (high, [])
  | c :: cs =>
    match digit? c with
    | none => (high, c :: cs)
    | some d =>
      if high * 10 + d < significandLimit then fittingDigits (high * 10 + d) cs else (high, c :: cs)

def isDigit (c : Char) : Bool := (digit? c).isSome

/-- A power of ten of at most 308, as a floating-point number. -/
def tenTo (n : Nat) : Float := Float.ofScientific 1 false n

/-- Scales a floating-point number by a power of ten, in steps of at most 308; nothing where the
result is too large. Four steps bring any significand to zero. -/
def scaleFloat (f : Float) (exponent : Int) : Nat → Option Float
  | 0 => some f
  | steps + 1 =>
    if exponent.natAbs ≤ 308 then
      if 0 ≤ exponent then
        let scaled := f * tenTo exponent.natAbs
        if scaled.isInf then none else some scaled
      else some (f / tenTo exponent.natAbs)
    else if f == 0 then some f
    else if 0 ≤ exponent then none
    else scaleFloat (f / tenTo 308) (exponent + 308) steps

def signed (positive : Bool) (f : Float) : Float := if positive then f else -f

/-- The floating-point number of a significand and a power of ten. -/
def real (positive : Bool) (significand : Nat) (exponent : Int) (rest : List Char) : Scan Number :=
  match scaleFloat (UInt64.ofNat significand).toFloat exponent 4 with
  | none => failAt .numberRange rest
  | some f => .ok (.real (signed positive f), rest)

/-- The largest exponent that is told from a larger one. -/
def maxExponent : Nat := 0x80000000 - 1

/-- Reads the digits of an exponent; nothing, and the text after the digit, where they go beyond the
largest exponent. -/
def exponentDigits (high : Nat) : List Char → Option Nat × List Char
  | [] => (some high, [])
  | c :: cs =>
    match digit? c with
    | none => (some high, c :: cs)
    | some d =>
      if high * 10 + d ≤ maxExponent then exponentDigits (high * 10 + d) cs else (none, cs)

def exponentPart (positive : Bool) (significand : Nat) (scale : Int) (cs : List Char) :
    Scan Number :=
  let (grows, cs) :=
    match cs with
    | '+' :: rest => (true, rest)
    | '-' :: rest => (false, rest)
    | _ => (true, cs)
  match cs with
  | [] => failAt .endInValue []
  | c :: rest =>
    match digit? c with
    | none => failAfter .badNumber (c :: rest)
    | some d =>
      match exponentDigits d rest with
      | (some e, rest) =>
        real positive significand (if grows then scale + e else scale - e) rest
      | (none, rest) =>
        if significand ≠ 0 ∧ grows then failAt .numberRange rest
        else .ok (.real (signed positive 0), rest.dropWhile isDigit)

def exponentOrEnd (positive : Bool) (significand : Nat) (scale : Int) (cs : List Char) :
    Scan Number :=
  match cs with
  | 'e' :: rest => exponentPart positive significand scale rest
  | 'E' :: rest => exponentPart positive significand scale rest
  | _ => real positive significand scale cs

def fraction (positive : Bool) (significand : Nat) (scale : Int) (cs : List Char) : Scan Number :=
  match cs with
  | [] => failAt .endInValue []
  | c :: _ =>
    if isDigit c then
      let (significand, rest) := fittingDigits significand cs
      exponentOrEnd positive significand (scale - (cs.length - rest.length : Nat))
        (rest.dropWhile isDigit)
    else failAfter .badNumber cs

/-- The integer of a significand; the zero with a minus and what fits no 64 bits are
floating-point. -/
def Number.ofInteger (positive : Bool) (significand : Nat) : Number :=
  if positive then .natural significand
  else if 0 < significand ∧ significand ≤ 0x8000000000000000 then .negative significand
  else .real (-(UInt64.ofNat significand).toFloat)

/-- Reads what follows the integer part of a number, of which `extra` digits did not fit the
significand. -/
def afterInteger (positive : Bool) (significand extra : Nat) (cs : List Char) : Scan Number :=
  match cs with
  | '.' :: rest => fraction positive significand extra rest
  | 'e' :: rest => exponentPart positive significand extra rest
  | 'E' :: rest => exponentPart positive significand extra rest
  | _ =>
    if extra = 0 then .ok (.ofInteger positive significand, cs)
    else real positive significand extra cs

def number (positive : Bool) (cs : List Char) : Scan Number :=
  match cs with
  | [] => failAt .endInValue []
  | c :: rest =>
    match digit? c with
    | none => failAfter .badNumber (c :: rest)
    | some 0 =>
      if (rest.head?.map isDigit).getD false then failAfter .badNumber rest
      else afterInteger positive 0 0 rest
    | some d =>
      let (significand, rest) := fittingDigits d rest
      let extra := rest.takeWhile isDigit
      afterInteger positive significand extra.length (rest.dropWhile isDigit)

end Freestanding.Json
