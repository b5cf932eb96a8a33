/-!
# Binary floating-point numbers, exactly

A finite binary number is an integer significand times a power of two (`Magnitude`), and a
`BinaryFormat` says which of them it holds.  `BinaryFormat.round` is the nearest one to a
non-negative ratio of integers, ties going to the even significand; every decimal that is read,
every integer that becomes a measured value and every entry that is stored in fewer bits goes
through it, so each is rounded exactly once.

`Binary.decode` and `Binary.encode` carry machine floats to magnitudes and back.
-/

namespace Descent

/-- The non-negative number `significand * 2 ^ exponent`. -/
structure Magnitude where
  significand : Nat
  exponent : Int
  deriving DecidableEq, Repr, Inhabited

/-- The finite numbers with at most `precision` significant bits and an exponent between the two
bounds. -/
structure BinaryFormat where
  precision : Nat
  minExponent : Int
  maxExponent : Int
  deriving DecidableEq, Repr

namespace BinaryFormat

/-- Sixteen bits: eleven of them significant. -/
def half : BinaryFormat := ⟨11, -24, 5⟩

/-- Thirty-two bits: twenty-four of them significant. -/
def single : BinaryFormat := ⟨24, -149, 104⟩

/-- Sixty-four bits: fifty-three of them significant. -/
def double : BinaryFormat := ⟨53, -1074, 971⟩

/-- The exponent at which the quotient has exactly `precision` bits, or the least exponent of the
format if that is greater. -/
def exponentFor (F : BinaryFormat) (num den : Nat) : Int :=
  let guess : Int := (num.log2 : Int) - den.log2 - F.precision
  let whole :=
    if 0 ≤ guess then num / (den * Nat.pow 2 guess.toNat) else num * Nat.pow 2 (-guess).toNat / den
  let exact := if Nat.pow 2 F.precision ≤ whole then guess + 1 else guess
  max exact F.minExponent

/-- The nearest integer to a ratio, the even one of two equally near. -/
def nearestEven (num den : Nat) : Nat :=
  let q := num / den
  let r := num % den
  if 2 * r < den then q
  else if den < 2 * r then q + 1
  else q + q % 2

/-- The nearest number of the format to `num / den`, or nothing if that lies beyond the
greatest one. -/
def round (F : BinaryFormat) (num den : Nat) : Option Magnitude :=
  if num = 0 then some ⟨0, F.minExponent⟩
  else
    let e := F.exponentFor num den
    let q :=
      if 0 ≤ e then nearestEven num (den * Nat.pow 2 e.toNat)
      else nearestEven (num * Nat.pow 2 (-e).toNat) den
    let m : Magnitude :=
      if q = Nat.pow 2 F.precision then ⟨Nat.pow 2 (F.precision - 1), e + 1⟩ else ⟨q, e⟩
    if m.exponent ≤ F.maxExponent then some m else none

end BinaryFormat

namespace Magnitude

/-- The numerator of the magnitude as a ratio of integers. -/
def numerator (m : Magnitude) : Nat := m.significand * Nat.pow 2 m.exponent.toNat

/-- The denominator of the magnitude as a ratio of integers. -/
def denominator (m : Magnitude) : Nat := Nat.pow 2 (-m.exponent).toNat

end Magnitude

namespace Binary

/-- The sign (set for negative) and the magnitude of a finite machine float. -/
def decode (x : Float) : Option (Bool × Magnitude) :=
  let bits := x.toBits.toNat
  let fraction := bits % Nat.pow 2 52
  let biased : Nat := bits / Nat.pow 2 52 % Nat.pow 2 11
  let negative := bits / Nat.pow 2 63 == 1
  if biased = 2047 then none
  else if biased = 0 then some (negative, ⟨fraction, -1074⟩)
  else some (negative, ⟨Nat.pow 2 52 + fraction, Int.ofNat biased - 1075⟩)

/-- The sign bit alone. -/
def isNegative (x : Float) : Bool := x.toBits.toNat / Nat.pow 2 63 == 1

/-- The machine float with a sign and a magnitude of the 64-bit format. -/
def encode (negative : Bool) (m : Magnitude) : Float :=
  let sign := if negative then Nat.pow 2 63 else 0
  let body :=
    if m.significand < Nat.pow 2 52 then m.significand
    else (m.exponent + 1075).toNat * Nat.pow 2 52 + (m.significand - Nat.pow 2 52)
  Float.ofBits (UInt64.ofNat (sign + body))

/-- The machine float above all others, or below them. -/
def infinite (negative : Bool) : Float := if negative then -(1.0 / 0.0) else 1.0 / 0.0

/-- The machine float nearest to a ratio, if it is in range. -/
def ofRatio? (negative : Bool) (num den : Nat) : Option Float :=
  (BinaryFormat.double.round num den).map (encode negative)

/-- The machine float nearest to a ratio, infinite if it is out of range. -/
def ofRatio (negative : Bool) (num den : Nat) : Float :=
  (ofRatio? negative num den).getD (infinite negative)

/-- The machine float nearest to an integer, if it is in range. -/
def ofInt? (n : Int) : Option Float := ofRatio? (n < 0) n.natAbs 1

/-- The greatest integer not above a finite machine float. -/
def floor (x : Float) : Int :=
  match decode x with
  | none => 0
  | some (negative, m) =>
    let whole := m.numerator / m.denominator
    if negative then
      if m.numerator % m.denominator = 0 then -(whole : Int) else -(whole : Int) - 1
    else whole

/-- Whether a finite machine float is a whole multiple of another one. -/
def isMultiple (x y : Float) : Bool :=
  match decode x, decode y with
  | some (_, m), some (_, n) =>
    m.numerator * n.denominator % (m.denominator * n.numerator) == 0
  | _, _ => false

/-- A machine float kept in fewer bits: the nearest number of the format, infinite if out of
range. -/
def reduce (F : BinaryFormat) (x : Float) : Float :=
  match decode x with
  | none => x
  | some (negative, m) =>
    match F.round m.numerator m.denominator with
    | none => infinite negative
    | some y => ofRatio negative y.numerator y.denominator

end Binary

end Descent
