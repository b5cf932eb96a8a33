import Descent.Decimal.Significant

/-!
# How a number is written

`Decimal.layout` writes digits and a decimal point, in positional form for exponents in a range
and in exponent form otherwise.  `Binary.text` is the shortest text of a machine float
(`1.0`, `1e-05`, `5e-324`, `nan`, `-inf`), `Binary.briefText` its first six significant digits
(`1`, `0.333333`, `1e+06`).
-/

namespace Descent

namespace Decimal

/-- The digits of a natural number. -/
def digitText (n : Nat) : List Char := Nat.toDigits 10 n

/-- An exponent with its sign and at least two digits. -/
def exponentText (e : Int) : String :=
  let ds := digitText e.natAbs
  let padded := if ds.length < 2 then '0' :: ds else ds
  (if e < 0 then "e-" else "e+") ++ String.ofList padded

/-- Digits with the zeros at their end dropped. -/
def dropZeros (ds : List Char) : List Char := (ds.reverse.dropWhile (· == '0')).reverse

/-- The first digit, and the others after the decimal point if there are any. -/
def mantissa : List Char → String
  | [] => "0"
  | [d] => String.singleton d
  | d :: rest => String.singleton d ++ "." ++ String.ofList rest

/-- The positive decimal with the significant digits `ds`, the first of which stands for
`10 ^ lead`.  Positional if `-4 ≤ lead < limit`; a whole number then ends in `whole`. -/
def layout (ds : List Char) (lead limit : Int) (whole : String) : String :=
  let ds := if dropZeros ds = [] then ['0'] else dropZeros ds
  if -4 ≤ lead ∧ lead < limit then
    if lead < 0 then
      "0." ++ String.ofList (List.replicate (-lead - 1).toNat '0' ++ ds)
    else
      let before := lead.toNat + 1
      if ds.length ≤ before then
        String.ofList (ds ++ List.replicate (before - ds.length) '0') ++ whole
      else String.ofList (ds.take before) ++ "." ++ String.ofList (ds.drop before)
  else mantissa ds ++ exponentText lead

/-- The digits of a decimal and the exponent of the first of them. -/
def parts (d : Decimal) : List Char × Int :=
  let ds := digitText d.digits
  (ds, d.exponent + ds.length - 1)

end Decimal

namespace Binary

/-- The text of a machine float that is not finite. -/
def specialText (x : Float) : String :=
  if x.isNaN then "nan" else if x < 0.0 then "-inf" else "inf"

/-- The shortest text from which a machine float is read back. -/
def text (x : Float) : String :=
  match decode x with
  | none => specialText x
  | some (negative, m) =>
    let body :=
      if m.significand = 0 then "0.0"
      else
        let (ds, lead) := (Decimal.shortest m).parts
        Decimal.layout ds lead 16 ".0"
    if negative then "-" ++ body else body

/-- A machine float to six significant digits. -/
def briefText (x : Float) : String :=
  match decode x with
  | none => specialText x
  | some (negative, m) =>
    let body :=
      if m.significand = 0 then "0"
      else
        let (ds, lead) := (Decimal.significant 6 m.numerator m.denominator).parts
        Decimal.layout ds lead 6 ""
    if negative then "-" ++ body else body

/-- A machine float rounded to `count` significant decimal digits; unchanged if that leaves the
range.  Zero loses its sign. -/
def roundSignificant (count : Nat) (x : Float) : Float :=
  match decode x with
  | none => x
  | some (negative, m) =>
    if m.significand = 0 then 0.0
    else
      let d := Decimal.significant count m.numerator m.denominator
      (ofRatio? negative d.numerator d.denominator).getD x

end Binary

end Descent
