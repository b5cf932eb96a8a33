import Descent.Subproblem.Region

/-!
# The Cauchy point

`Cauchy.step` minimises the model along the negative gradient within the region (Nocedal &
Wright, Algorithm 4.2).  A zero gradient gives the zero step.
-/

namespace Descent.Cauchy

variable {R V M σ : Type} [Scalar R] [Space R V] [LinearAction R V M]

/-- The fraction of the radius to go, where the curvature along the gradient is `curvature`. -/
def fraction (gradNorm curvature radius : R) : Except (Fault R) R :=
  if curvature ≤ 0.0 then .ok 1.0
  else do
    let cubed ← Scalar.cube gradNorm
    return Scalar.least 1.0 (← Scalar.quotient cubed (radius * curvature))

/-- The minimiser of the model along the negative gradient. -/
def step (g : V) (h : M) (radius : R) : Except (Fault R) (Delta R V M) := do
  let gradNorm := Space.norm g
  if Scalar.isZero gradNorm then return { param := some (Space.zeros g) }
  let curvature ← Space.weightedDot g h g
  let tau ← fraction gradNorm curvature radius
  let factor ← Scalar.quotient (-tau * radius) gradNorm
  return { param := some (Space.scale g factor), kv := [("tau", .real tau)] }

/-- The Cauchy point as a subproblem solver. -/
def subproblem : Subproblem R V M σ (Region R V M) :=
  .ofRegion (Region.algorithm "Cauchy point" "CauchyPoint" step)

end Descent.Cauchy
