import Descent.Solver.Basic

/-!
# The trust-region model

Inside a trust region of some radius around the current point the objective is replaced by the
quadratic model `m(p) = gᵀp + ½ pᵀHp`.  A solver of this subproblem keeps the radius, the gradient
and the Hessian it was last given (`Region`), all unset at first, and answers with the step `p` as
the delta's parameter.
-/

namespace Descent

/-- The radius, gradient and Hessian of a model. -/
structure Region (R V M : Type) where
  radius : R
  grad : Option V := none
  hessian : Option M := none

namespace Region

variable {R V M σ : Type} [Scalar R] [Space R V] [LinearAction R V M]

/-- The model before anything was set. -/
def unset : Region R V M := { radius := Scalar.nan }

/-- Set the radius; refused unless it is positive and finite. -/
def setRadius (radius : R) : Act R (Region R V M) Unit := do
  if !Scalar.isFinite radius || decide (radius ≤ 0.0) then throw (.radiusRefused radius)
  modify fun r => { r with radius := radius }

/-- Set the gradient. -/
def setGrad (grad : Option V) : Act R (Region R V M) Unit :=
  modify fun r => { r with grad := grad }

/-- Set the Hessian. -/
def setHessian (hessian : Option M) : Act R (Region R V M) Unit :=
  modify fun r => { r with hessian := hessian }

/-- The parts of a model all of which are set. -/
def parts (label : String) (r : Region R V M) : Except (Fault R) (V × M × R) :=
  match r.grad, r.hessian with
  | some g, some h =>
    if Scalar.isNaN r.radius then .error (.subproblemUnset label) else .ok (g, h, r.radius)
  | _, _ => .error (.subproblemUnset label)

/-- A subproblem is solved in one iteration. -/
def terminate (s : State R V M) : Except (Fault R) Reason := do
  return if ← s.curIter.ge (.int 1) then .maxItersReached else .notTerminated

/-- The algorithm that answers with a step for the model it was given.  `label` is how it calls
itself when something is unset. -/
def algorithm (name label : String) (step : V → M → R → Except (Fault R) (Delta R V M)) :
    Algorithm R V M σ (Region R V M) where
  name := name
  requires := [.cost]
  init := fun _ => return none
  next := fun _ => do
    let (g, h, radius) ← Act.lift ((← get).memory.parts label)
    Act.lift (step g h radius)
  terminate := fun s => Act.lift (terminate s)

end Region

/-- A solver of the trust-region model, with the ways to give it a model. -/
structure Subproblem (R V M σ μ : Type) [Scalar R] where
  solver : Solver R V M σ μ
  setRadius : R → Act R μ Unit
  setGrad : Option V → Act R μ Unit
  setHessian : Option M → Act R μ Unit

namespace Subproblem

variable {R V M σ : Type} [Scalar R] [Space R V] [LinearAction R V M]

/-- The subproblem solver of an algorithm that keeps a model. -/
def ofRegion (a : Algorithm R V M σ (Region R V M)) : Subproblem R V M σ (Region R V M) :=
  ⟨a.toSolver, Region.setRadius, Region.setGrad, Region.setHessian⟩

end Subproblem

end Descent
