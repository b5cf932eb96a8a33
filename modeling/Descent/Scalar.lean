/-!
# The arithmetic the solvers compute with

`Scalar R` is the interface through which every solver, line search and trust-region step
computes: the four operations, a square root, decidable order, and the two values that stand for
"not known yet" (`nan`) and "unbounded" (`inf`).  Machine floats are one instance
(`Descent.Machine`); an instance whose finite part is an ordered field gives the same
algorithms in exact arithmetic.

Nothing here is assumed to obey a law: comparisons with `nan` are decided by the instance, and
`least`, `greatest` and `magnitude` are spelled out as the comparison they make.
-/

namespace Descent

/-- Numbers with order, a square root and the special values of a running optimisation. -/
class Scalar (R : Type) extends Add R, Sub R, Mul R, Div R, Neg R, LT R, LE R, OfScientific R where
  decLt : ∀ x y : R, Decidable (x < y)
  decLe : ∀ x y : R, Decidable (x ≤ y)
  sqrt : R → R
  /-- The value of a quantity that is not known. -/
  nan : R
  /-- The value above all others. -/
  inf : R
  isNaN : R → Bool
  isFinite : R → Bool
  /-- The greatest integer not above a finite value. -/
  floor : R → Int
  /-- The value nearest to an integer, unless the integer is out of range. -/
  ofInt? : Int → Option R
  /-- The value that a text stands for, if it stands for one. -/
  ofText? : String → Option R
  /-- Whether the first of two finite values is a whole multiple of the second. -/
  isMultiple : R → R → Bool

namespace Scalar

variable {R : Type} [Scalar R]

instance instDecidableLt (x y : R) : Decidable (x < y) := decLt x y

instance instDecidableLe (x y : R) : Decidable (x ≤ y) := decLe x y

/-- `y` where it is strictly below `x`, and `x` otherwise; so `least x nan` is `x`. -/
def least (x y : R) : R := if y < x then y else x

/-- `y` where it is strictly above `x`, and `x` otherwise; so `greatest x nan` is `x`. -/
def greatest (x y : R) : R := if x < y then y else x

/-- The value without its sign. -/
def magnitude (x : R) : R := if x < 0.0 then -x else x

/-- Whether the value is zero of either sign. -/
def isZero (x : R) : Bool := decide (x ≤ 0.0) && decide (0.0 ≤ x)

/-- The sum of a list, taken from left to right. -/
def sum (xs : List R) : R := xs.foldl (· + ·) 0.0

/-- The integer part of a finite value, the fraction being dropped. -/
def truncate (x : R) : Int := if x < 0.0 then -(floor (-x)) else floor x

/-- The value below all others. -/
def negInf : R := -(inf : R)

end Scalar

/-- An arithmetic with exponentials, logarithms and waves, in which objectives can be given by
formulas. -/
class Elementary (R : Type) extends Scalar R where
  exp : R → R
  log : R → R
  cos : R → R
  sin : R → R

end Descent
