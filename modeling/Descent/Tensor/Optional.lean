import Descent.Tensor.Solve

/-!
# Vectors that may be absent

Where a vector is wanted and none is given, an array without axes stands for it, whose one entry
is no number (`Space.blank`).  It has a size, zeros of its shape, copies and multiples; whatever
computes with the entry itself is refused.
-/

namespace Descent.Tensor

variable {R : Type} [Scalar R]

/-- The vector, or the array that stands for an absent one. -/
def orBlank (x : Option (Tensor R)) : Tensor R := x.getD Space.blank

/-- The length of a vector that must be there. -/
def normOf (x : Option (Tensor R)) : Except (Fault R) R := do
  return norm (← Space.require x)

/-- Whether every entry of a vector that must be there is finite. -/
def areFinite (x : Option (Tensor R)) : Except (Fault R) Bool := do
  return Space.isFinite (← Space.require x)

/-- The inner product of two vectors.  With an absent one there is none, but a vector of another
size is refused first. -/
def dotOf (x y : Option (Tensor R)) : Except (Fault R) R :=
  match x, y with
  | some x, some y => dot x y
  | some x, none => .error (innerAbsent (some x) x)
  | none, y => .error (innerAbsent none (orBlank y))

/-- The image of a vector under a linear map; of an absent vector there is none, nor is there under
an absent map. -/
def applyOf (m : Option (Curvature R)) (x : Option (Tensor R)) : Except (Fault R) (Tensor R) :=
  match m, x with
  | some m, some x => LinearAction.apply m x
  | some (.function _), none => .error .missingAttribute
  | some (.matrix a), none => .error a.backend.uneven
  | none, some x => .error (imageAbsent x)
  | none, none => .error .wrongType

/-- The bilinear form of two vectors under a linear map. -/
def weightedDotOf (x : Option (Tensor R)) (m : Option (Curvature R)) (y : Option (Tensor R)) :
    Except (Fault R) R := do
  dotOf x (some (← applyOf m y))

end Descent.Tensor
