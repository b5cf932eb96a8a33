import Descent.Subproblem.Region

/-!
# The dogleg step

`Dogleg.step` follows the path from the minimiser of the model along the negative gradient to the
Newton step, up to the boundary of the region.  Where the curvature along the gradient is not
positive it goes to the boundary along the negative gradient.  It needs a dense Hessian.
-/

namespace Descent.Dogleg

variable {R V M σ : Type} [Scalar R] [Space R V] [LinearAction R V M]

/-- How far from `u` to `b` the path meets the boundary. -/
def crossing (u diff : V) (radius : R) : Except (Fault R) R := do
  let a ← Space.dot diff diff
  let b := 2.0 * (← Space.dot u diff)
  let c := (← Space.dot u u) - (← Scalar.square radius)
  let root := Scalar.sqrt (Scalar.greatest (b * b - 4.0 * a * c) 0.0)
  Scalar.quotient (-b + root) (2.0 * a)

/-- The point of the path that the boundary or the path's end leaves. -/
def path (g : V) (h : M) (radius gradNorm curvature : R) : Except (Fault R) V := do
  let newton ← LinearAction.newtonStep h g
  if Space.norm newton ≤ radius then return newton
  let factor ← Scalar.quotient (-(← Scalar.square gradNorm)) curvature
  let u := Space.scale g factor
  let length := Space.norm u
  if radius ≤ length then return Space.scale u (← Scalar.quotient radius length)
  let diff ← Space.sub newton u
  let t ← crossing u diff radius
  Space.add u (Space.scale diff t)

/-- The dogleg step. -/
def step (g : V) (h : M) (radius : R) : Except (Fault R) (Delta R V M) := do
  let gradNorm := Space.norm g
  if Scalar.isZero gradNorm then return { param := some (Space.zeros g) }
  let curvature ← Space.weightedDot g h g
  if curvature ≤ 0.0 then
    return { param := some (Space.scale g (← Scalar.quotient (-radius) gradNorm)) }
  return { param := some (← path g h radius gradNorm curvature) }

/-- The dogleg step as a subproblem solver. -/
def subproblem : Subproblem R V M σ (Region R V M) :=
  .ofRegion (Region.algorithm "Dogleg" "Dogleg" step)

end Descent.Dogleg
