import Descent.Binary

/-!
# Decimal digits of a binary number

`Decimal.significant k` rounds a positive ratio to `k` significant decimal digits, exactly, ties
going to the even digit.  `Decimal.shortest` is the decimal of fewest digits that is rounded to the
given binary number, and among those the nearest one: it is the text from which the number is read
back.
-/

namespace Descent

/-- The positive decimal `digits * 10 ^ exponent`, or zero when `digits` is zero. -/
structure Decimal where
  digits : Nat
  exponent : Int
  deriving DecidableEq, Repr, Inhabited

namespace Decimal

/-- The numerator of a decimal as a ratio of integers. -/
def numerator (d : Decimal) : Nat := d.digits * Nat.pow 10 d.exponent.toNat

/-- The denominator of a decimal as a ratio of integers. -/
def denominator (d : Decimal) : Nat := Nat.pow 10 (-d.exponent).toNat

/-- The number of decimal digits of a positive integer. -/
def length (n : Nat) : Nat := (Nat.toDigits 10 n).length

/-- The exponent `e` with `10 ^ e ≤ num / den < 10 ^ (e + 1)`, for a positive ratio. -/
def leading (num den : Nat) : Int :=
  let guess : Int := (length num : Int) - length den
  let reached :=
    if 0 ≤ guess then decide (den * Nat.pow 10 guess.toNat ≤ num)
    else decide (den ≤ num * Nat.pow 10 (-guess).toNat)
  if reached then guess else guess - 1

/-- The whole part of `num / den * 10 ^ (-e)`, as the ratio it is taken from. -/
def scaled (num den : Nat) (e : Int) : Nat × Nat :=
  if 0 ≤ e then (num, den * Nat.pow 10 e.toNat) else (num * Nat.pow 10 (-e).toNat, den)

/-- A positive ratio rounded to `count` significant digits, ties to even. -/
def significant (count num den : Nat) : Decimal :=
  let e := leading num den - ((count : Int) - 1)
  let (n, d) := scaled num den e
  let q := BinaryFormat.nearestEven n d
  if q = Nat.pow 10 count then ⟨Nat.pow 10 (count - 1), e + 1⟩ else ⟨q, e⟩

/-- Whether a decimal is read back as the magnitude: it is nearest to it of all numbers of the
64-bit format. -/
def readsBack (m : Magnitude) (d : Decimal) : Bool :=
  decide (BinaryFormat.double.round d.numerator d.denominator = some m)

/-- The nearest decimal with `count` digits that is read back as the magnitude. -/
def attempt (m : Magnitude) (count : Nat) : Option Decimal :=
  let e := leading m.numerator m.denominator - ((count : Int) - 1)
  let (n, d) := scaled m.numerator m.denominator e
  let low : Decimal := ⟨n / d, e⟩
  let high : Decimal := ⟨n / d + 1, e⟩
  let preferHigh := decide (d < 2 * (n % d)) || (decide (d = 2 * (n % d)) && n / d % 2 == 1)
  match readsBack m low, readsBack m high with
  | true, true => some (if preferHigh then high else low)
  | true, false => some low
  | false, true => some high
  | false, false => none

/-- The magnitude itself, with all its digits. -/
def exact (m : Magnitude) : Decimal :=
  if 0 ≤ m.exponent then ⟨m.numerator, 0⟩
  else ⟨m.significand * Nat.pow 5 (-m.exponent).toNat, m.exponent⟩

/-- The first successful attempt with `count`, `count + 1`, ... digits, or else all the digits;
seventeen are always enough. -/
def search (m : Magnitude) : Nat → Nat → Decimal
  | 0, _ => exact m
  | fuel + 1, count =>
    match attempt m count with
    | some d => d
    | none => search m fuel (count + 1)

/-- The shortest decimal that is read back as a positive magnitude of the 64-bit format. -/
def shortest (m : Magnitude) : Decimal :=
  if m.significand = 0 then ⟨0, 0⟩ else search m 17 1

end Decimal

end Descent
