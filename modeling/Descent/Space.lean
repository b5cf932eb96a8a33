import Descent.Fault

/-!
# Vectors and curvature

The algorithms ask for a handful of operations on the vectors they move (`Space`) and on the
curvature a Hessian stands for (`LinearAction`), and for nothing else; so the same algorithm runs
on every representation of them, a matrix or a function computing Hessian-vector products.

Operations on two vectors are refused when the vectors do not fit together.
-/

namespace Descent

/-- The vectors of a representation, with measured values `R`. -/
class Space (R : outParam Type) (V : Type) [Scalar R] where
  /-- The length of a vector. -/
  norm : V → R
  dot : V → V → Except (Fault R) R
  /-- The refusal of the inner product of nothing and a vector, in the manner of a vector like the
  first one. -/
  innerAbsent : Option V → V → Fault R
  /-- The refusal of the image of a vector under nothing. -/
  imageAbsent : V → Fault R
  add : V → V → Except (Fault R) V
  sub : V → V → Except (Fault R) V
  scale : V → R → V
  /-- The zero vector of the same shape. -/
  zeros : V → V
  /-- The vector that stands for an absent one where numbers are wanted. -/
  blank : V
  /-- The number of entries. -/
  size : V → Nat
  /-- Whether every entry is finite. -/
  isFinite : V → Bool

/-- A representation of linear maps on the vectors `V`. -/
class LinearAction (R : outParam Type) (V M : Type) [Scalar R] where
  /-- The image of a vector. -/
  apply : M → V → Except (Fault R) V
  /-- The step whose image is the negative of a gradient, or the shortest of the steps that come
  nearest to it. -/
  newtonStep : M → V → Except (Fault R) V

namespace Space

variable {R V M : Type} [Scalar R] [Space R V] [LinearAction R V M]

/-- The bilinear form of two vectors under a linear map. -/
def weightedDot (x : V) (m : M) (y : V) : Except (Fault R) R := do
  dot x (← LinearAction.apply m y)

/-- The negative of a vector. -/
def neg (x : V) : V := scale x (-1.0)

/-- The vector itself, refused if it is absent. -/
def require : Option V → Except (Fault R) V
  | some x => .ok x
  | none => .error .wrongType

/-- A vector to take the length of, refused if it is absent. -/
def measurable : Option V → Except (Fault R) V
  | some x => .ok x
  | none => .error (.wrongType (.uncombined "*" "NoneType" "NoneType"))

/-- The inner product of what may be nothing and a vector, in the manner of a vector like the first
one. -/
def innerWith (like x : Option V) (y : V) : Except (Fault R) R :=
  match x with
  | some x => dot x y
  | none => .error (innerAbsent like y)

/-- The image of a vector under what may be nothing. -/
def imageUnder (m : Option M) (x : V) : Except (Fault R) V :=
  match m with
  | some m => LinearAction.apply m x
  | none => .error (imageAbsent x)

end Space

/-- The default bound on a gradient's length at which a run has converged. -/
def relativeTolerance {R : Type} [Scalar R] : R := 1e-8

/-- No tolerance is taken to be smaller than this. -/
def absoluteTolerance {R : Type} [Scalar R] : R := 1e-10

/-- Whether a gradient of this length counts as zero under a tolerance. -/
def isConverged {R : Type} [Scalar R] (gradNorm tol : R) : Bool :=
  decide (gradNorm ≤ Scalar.greatest tol absoluteTolerance)

/-- Whether a length, given as a number, counts as zero under a tolerance given as one. -/
def meetsTolerance {R : Type} [Scalar R] (gradNorm tol : Number R) : Bool :=
  gradNorm.le (if tol.lt (.real absoluteTolerance) then .real absoluteTolerance else tol)

/-- Whether a gradient counts as zero under a tolerance. -/
def isStationary {R V : Type} [Scalar R] [Space R V] (tol : R) (grad : Option V) :
    Except (Fault R) Bool := do
  return isConverged (Space.norm (← Space.measurable grad)) tol

end Descent
