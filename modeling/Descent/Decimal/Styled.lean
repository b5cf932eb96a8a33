import Descent.Decimal.Layout

/-!
# Machine floats with a precision

`Styled.positional` writes a number to some decimal places, `Styled.scientific` to some digits
after the first with an exponent, and `Styled.general` to some significant digits in whichever of
the two styles suits its size.  All three are exact: the number is rounded once, ties going to the
even digit.
-/

namespace Descent.Styled

open Decimal

/-- The number as it is shown without its sign: with the digits before and after the mark, the
mark being left out where nothing follows unless `marked`. -/
def withMark (marked : Bool) (before after : List Char) : String :=
  String.ofList (if after.isEmpty && !marked then before else before ++ '.' :: after)

/-- Digits with zeros put before them up to a length. -/
def padded (length : Nat) (ds : List Char) : List Char :=
  List.replicate (length - ds.length) '0' ++ ds

/-- A ratio to `places` decimal places. -/
def positional (marked : Bool) (places num den : Nat) : String :=
  let ds := padded (places + 1)
    (digitText (BinaryFormat.nearestEven (num * Nat.pow 10 places) den))
  let whole := ds.length - places
  withMark marked (ds.take whole) (ds.drop whole)

/-- The digits of a ratio rounded to `count` significant ones, and the exponent of the first. -/
def rounded (count num den : Nat) : List Char × Int :=
  if num = 0 then (List.replicate count '0', 0) else (significant count num den).parts

/-- A ratio to `places` digits after the first, with an exponent. -/
def scientific (marked : Bool) (places num den : Nat) : String :=
  let (ds, lead) := rounded (places + 1) num den
  withMark marked (ds.take 1) (ds.drop 1) ++ exponentText lead

/-- The digits after a mark, without the zeros at their end unless they are kept. -/
def trimmed (kept : Bool) (ds : List Char) : List Char := if kept then ds else dropZeros ds

/-- A ratio to `count` significant digits, of which there is at least one; zeros at the end are
dropped unless `marked`. -/
def general (marked : Bool) (count num den : Nat) : String :=
  let count := max count 1
  let (ds, lead) := rounded count num den
  if -4 ≤ lead ∧ lead < count then
    let ds := if lead < 0 then List.replicate (-lead).toNat '0' ++ ds else ds
    let whole := if lead < 0 then 1 else lead.toNat + 1
    withMark marked (ds.take whole) (trimmed marked (ds.drop whole))
  else withMark marked (ds.take 1) (trimmed marked (ds.drop 1)) ++ exponentText lead

/-- A machine float in the style that a letter stands for; `marked` keeps the mark where nothing
follows it. -/
def text (letter : Char) (marked : Bool) (precision : Nat) (x : Float) : String :=
  let body := match Binary.decode x with
    | none => Binary.specialText x
    | some (negative, m) =>
      let style := match letter.toLower with
        | 'e' => scientific
        | 'f' => positional
        | _ => general
      (if negative then "-" else "") ++ style marked precision m.numerator m.denominator
  if letter.isUpper then String.ofList (body.toList.map Char.toUpper) else body

end Descent.Styled
