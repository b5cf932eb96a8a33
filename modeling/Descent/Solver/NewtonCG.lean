import Descent.Solver.ConjugateGradient
import Descent.Solver.SteepestDescent

/-!
# Newton's method with an inner conjugate-gradient solve

The direction of each iteration is a truncated conjugate-gradient solution of the Newton system,
the step length a line search's choice.  Besides a short gradient, a step that leaves the cost
where it was ends the run.
-/

namespace Descent.NewtonCG

variable {R V M σ μ : Type} [Scalar R] [Space R V] [LinearAction R V M]

/-- The limit on the passes of the inner solve as it is given. -/
inductive Limit (R : Type) where
  | value (v : Value R)
  /-- Something that is no value. -/
  | other (typeName : String)
  deriving Repr

/-- When to stop, and how far to take the inner solve. -/
structure Settings (R : Type) where
  tolGrad : R
  tolCost : R
  cgMaxIter : Limit R
  deriving Repr

/-- The number of passes that is asked for: none where nothing is given, and a refusal where what
is given is no number of passes. -/
def Limit.passes : Limit R → Except (Fault R) (Option Int)
  | .value (.bool b) => .ok (if b then some 1 else none)
  | .value (.int k) => .ok (some k)
  | .value v => if v.isTruthy then .error (.wrongType (.notWhole v.typeName)) else .ok none
  | .other typeName => .error (.wrongType (.notWhole typeName))

/-- The default bound on a change of cost that counts as none. -/
def defaultTolCost : R := 2.220446049250313e-16

/-- Prepare a run: the cost and the gradient at the start. -/
def init (op : Operator R V M σ) (tol : R) (s : State R V M) :
    Act R (Session R σ) (Option (Delta R V M)) := do
  let cost ← Session.costValue op s.param
  let grad ← Session.gradient op s.param
  Act.lift (checkFinite cost "Initial cost")
  Act.lift (checkFiniteOption grad "Initial gradient")
  return some (← Act.lift (Descending.opening tol cost grad))

/-- The direction of an iteration from a state. -/
def direction (settings : Settings R) (grad : Option V) (hess : Option M) :
    Except (Fault R) V := do
  let g ← Space.measurable grad
  ConjugateGradient.direction g hess (← settings.cgMaxIter.passes)

/-- One iteration. -/
def next (op : Operator R V M σ) (line : LineSearch R V M σ) (settings : Settings R)
    (s : State R V M) : Act R (Session R σ) (Delta R V M) := do
  let hess ← Session.hessian op s.param
  let d ← Act.lift (direction settings s.grad hess)
  Descending.advance op line d s

/-- Whether the gradient is short enough, or the last step changed the cost too little. -/
def terminate (settings : Settings R) (s : State R V M) : Except (Fault R) Reason := do
  if ← isStationary settings.tolGrad s.grad then return .converged
  let change ← (← s.cost.sub s.prevCost).toNumber
  return if change.magnitude.le (.real settings.tolCost) then .converged else .notTerminated

/-- Newton's method with a line search, as an algorithm; it keeps no memory of its own. -/
def algorithm (op : Operator R V M σ) (line : LineSearch R V M σ) (settings : Settings R) :
    Algorithm R V M σ μ where
  name := "Newton-CG"
  requires := [.cost, .gradient, .hessian]
  init := fun s => Bench.inSession (init op settings.tolGrad s)
  next := fun s => Bench.inSession (next op line settings s)
  terminate := fun s => Act.lift (terminate settings s)

end Descent.NewtonCG
