import Descent.LineSearch.Ray

/-!
# Steepest descent

Each iteration moves along the negative gradient by a step length that a line search chooses.
-/

namespace Descent

variable {R V M σ μ : Type} [Scalar R] [Space R V]

namespace Descending

/-- The cost and the gradient where a step length leads, evaluated unless the search met them. -/
def complete (op : Operator R V M σ) (y : V) (step : StepLength R V) :
    Act R (Session R σ) (R × Option V) := do
  let cost ← match step.cost with
    | some c => pure c
    | none => Session.costValue op (some y)
  let grad ← match step.grad with
    | some g => pure (some g)
    | none => Session.gradient op (some y)
  return (cost, grad)

/-- The delta of a step along a direction that a line search chooses. -/
def advance (op : Operator R V M σ) (line : LineSearch R V M σ) (direction : V)
    (s : State R V M) : Act R (Session R σ) (Delta R V M) := do
  let step ← line.search direction s
  let y ← Act.lift (do Space.add (← Space.require s.param) (Space.scale direction step.alpha))
  let (cost, grad) ← complete op y step
  Act.lift (checkFinite cost "Cost")
  Act.lift (checkFiniteOption grad "Gradient")
  return {
    param := some y
    cost := some (.real cost)
    grad := grad
    kv := [("alpha", .real step.alpha)] }

/-- The delta of a start with this cost and gradient. -/
def opening (tol : R) (cost : R) (grad : Option V) : Except (Fault R) (Delta R V M) := do
  return {
    cost := some (.real cost)
    grad := grad
    termination := if ← isStationary tol grad then some .converged else none }

end Descending

namespace SteepestDescent

/-- Prepare a run: the cost and the gradient at the start. -/
def init (op : Operator R V M σ) (tol : R) (s : State R V M) :
    Act R (Session R σ) (Option (Delta R V M)) := do
  let cost ← Session.costValue op s.param
  let grad ← Session.gradient op s.param
  Act.lift (checkFinite cost "Initial cost")
  return some (← Act.lift (Descending.opening tol cost grad))

/-- One iteration. -/
def next (op : Operator R V M σ) (line : LineSearch R V M σ) (s : State R V M) :
    Act R (Session R σ) (Delta R V M) :=
  let direction := match s.grad with
    | some g => Space.neg g
    | none => Space.blank
  Descending.advance op line direction s

/-- Whether the gradient is short enough to stop. -/
def terminate (tol : R) (s : State R V M) : Except (Fault R) Reason := do
  return if ← isStationary tol s.grad then .converged else .notTerminated

/-- Steepest descent with a line search, as an algorithm; it keeps no memory of its own. -/
def algorithm (op : Operator R V M σ) (line : LineSearch R V M σ) (tol : R) :
    Algorithm R V M σ μ where
  name := "Steepest descent"
  requires := [.cost, .gradient]
  init := fun s => Bench.inSession (init op tol s)
  next := fun s => Bench.inSession (next op line s)
  terminate := fun s => Act.lift (terminate tol s)

end SteepestDescent

end Descent
