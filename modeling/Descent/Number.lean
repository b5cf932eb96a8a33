import Descent.Scalar

/-!
# Counts and measurements

A setting or a recorded quantity is either an exact integer of any size or a measured value.
Comparisons between the two kinds are exact (`Number.lt`, `Number.le`): an integer is never
rounded to be compared.
-/

namespace Descent

/-- An integer of any size, or a value of the solvers' arithmetic. -/
inductive Number (R : Type) where
  | int (n : Int)
  | real (x : R)
  deriving DecidableEq, Repr

namespace Number

variable {R : Type} [Scalar R]

instance : Inhabited (Number R) := ⟨.int 0⟩

/-- Whether the number is the unknown value. -/
def isNaN : Number R → Bool
  | .int _ => false
  | .real x => Scalar.isNaN x

/-- Whether the number is an integer or a finite value. -/
def isFinite : Number R → Bool
  | .int _ => true
  | .real x => Scalar.isFinite x

/-- Whether a measured value lies strictly below an integer. -/
def realLtInt (x : R) (n : Int) : Bool :=
  if Scalar.isFinite x then decide (Scalar.floor x < n) else decide (x < 0.0)

/-- Whether a measured value lies at or below an integer. -/
def realLeInt (x : R) (n : Int) : Bool :=
  if Scalar.isFinite x then
    decide (Scalar.floor x < n) ||
      (decide (Scalar.floor x = n) &&
        match Scalar.ofInt? (R := R) n with
        | some y => decide (x ≤ y)
        | none => false)
  else decide (x < 0.0)

/-- The strict order; nothing is below or above the unknown value. -/
def lt : Number R → Number R → Bool
  | .int m, .int n => decide (m < n)
  | .real x, .real y => decide (x < y)
  | .real x, .int n => realLtInt x n
  | .int n, .real x => !Scalar.isNaN x && !realLeInt x n

/-- The order; the unknown value is not even at or below itself. -/
def le : Number R → Number R → Bool
  | .int m, .int n => decide (m ≤ n)
  | .real x, .real y => decide (x ≤ y)
  | .real x, .int n => realLeInt x n
  | .int n, .real x => !Scalar.isNaN x && !realLtInt x n

/-- Whether two numbers are the same value. -/
def same (a b : Number R) : Bool := a.le b && b.le a

/-- The next integer, or the value one higher. -/
def succ : Number R → Number R
  | .int n => .int (n + 1)
  | .real x => .real (x + 1.0)

/-- The integer part. -/
def truncate : Number R → Int
  | .int n => n
  | .real x => Scalar.truncate x

end Number

end Descent
