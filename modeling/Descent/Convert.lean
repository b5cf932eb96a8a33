import Descent.Machine
import Descent.Quantity
import Descent.Text.Numeral

/-!
# Values as numbers

Settings and documents hold values; constructors want numbers.  What is not a number at all is of
the wrong type; a text that should stand for a number and does not is a wrong value.
-/

namespace Descent.Value

/-- A value converted to an integer; fractions are dropped and texts are read. -/
def toInt (v : Value Float) : Except (Fault Float) Int :=
  match v with
  | .text s =>
    match Text.whole? s with
    | some n => .ok n
    | none => .error .wrongValue
  | .real x =>
    if x.isNaN then .error .wrongValue
    else if x.isFinite then .ok (Scalar.truncate x)
    else .error .outOfRange
  | v => do return (← v.toNumber).truncate

/-- The words that stand for values that are not finite. -/
def specialWord? (s : String) : Option Float :=
  if s == "nan" then some (0.0 / 0.0)
  else if s == "inf" then some (1.0 / 0.0)
  else if s == "-inf" then some (-(1.0 / 0.0))
  else none

/-- A value in which the words for values that are not finite stand for them. -/
def ofSpecial (v : Value Float) : Value Float :=
  match v with
  | .text s => ((specialWord? s).map Value.real).getD v
  | v => v

end Descent.Value
