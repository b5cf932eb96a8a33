import Descent.Solver.Basic

/-!
# Evaluations along a ray

A line search looks at the points `x + alpha * direction` for step lengths `alpha` of its
choosing.  A `Ray` keeps the costs and gradients met there by step length, so that none is paid
for twice, neither within the search nor by the solver that called it.
-/

namespace Descent

/-- A step length with the cost and the gradient at the point it leads to, where they were
evaluated. -/
structure StepLength (R V : Type) where
  alpha : R
  cost : Option R := none
  grad : Option V := none

/-- The costs and gradients met along a ray, by step length, the latest first. -/
structure Ray (R V : Type) where
  costs : List (R × R) := []
  grads : List (R × Option V) := []

namespace Ray

variable {R V M σ α : Type} [Scalar R]

/-- What was met at a step length.  The unknown step length is never met again. -/
def known (alpha : R) : List (R × α) → Option α
  | [] => none
  | (a, v) :: rest => if a ≤ alpha ∧ alpha ≤ a then some v else known alpha rest

/-- A step length with what was met there. -/
def stepLength (ray : Ray R V) (alpha : R) : StepLength R V :=
  ⟨alpha, known alpha ray.costs, (known alpha ray.grads).join⟩

end Ray

/-- What a line search acts on: its ray and the session. -/
structure Probe (R V σ : Type) where
  ray : Ray R V := {}
  session : Session R σ

namespace Probe

variable {R V M σ α : Type} [Scalar R] [Space R V]

/-- A step of the session. -/
def inSession (a : Act R (Session R σ) α) : Act R (Probe R V σ) α :=
  Act.zoom Probe.session (fun s p => { p with session := s }) a

/-- The point of a step length. -/
def point (x : Option V) (direction : V) (alpha : R) : Except (Fault R) V := do
  Space.add (← Space.require x) (Space.scale direction alpha)

/-- The cost at a step length, evaluated unless it was met before. -/
def cost (op : Operator R V M σ) (x : Option V) (direction : V) (alpha : R) :
    Act R (Probe R V σ) R := do
  match Ray.known alpha (← get).ray.costs with
  | some c => return c
  | none =>
    let y ← Act.lift (point x direction alpha)
    let c ← inSession (Session.costValue op (some y))
    modify fun p => { p with ray := { p.ray with costs := (alpha, c) :: p.ray.costs } }
    return c

/-- The gradient at a step length, evaluated unless it was met before. -/
def gradient (op : Operator R V M σ) (x : Option V) (direction : V) (alpha : R) :
    Act R (Probe R V σ) (Option V) := do
  match Ray.known alpha (← get).ray.grads with
  | some g => return g
  | none =>
    let y ← Act.lift (point x direction alpha)
    let g ← inSession (Session.gradient op (some y))
    modify fun p => { p with ray := { p.ray with grads := (alpha, g) :: p.ray.grads } }
    return g

/-- The ray's record of a step length. -/
def stepLength (alpha : R) : Act R (Probe R V σ) (StepLength R V) := do
  return (← get).ray.stepLength alpha

end Probe

/-- A way of choosing a step length along a direction from the point of a state. -/
structure LineSearch (R V M σ : Type) [Scalar R] where
  search : V → State R V M → Act R (Session R σ) (StepLength R V)

namespace LineSearch

variable {R V M σ : Type} [Scalar R] [Space R V]

/-- The cost and the gradient at the point of a state, evaluated where the state lacks them. -/
def current (op : Operator R V M σ) (s : State R V M) : Act R (Session R σ) (R × Option V) := do
  let known ← Act.lift s.cost.measured
  let cost ← if Scalar.isNaN known then Session.costValue op s.param else pure known
  let grad ← match s.grad with
    | some g => pure (some g)
    | none => Session.gradient op s.param
  return (cost, grad)

/-- A search along a ray, on the session. -/
def along {α : Type} (a : Act R (Probe R V σ) α) : Act R (Session R σ) α :=
  Act.of fun s =>
    let (r, p) := a.run ⟨{}, s⟩
    (r, p.session)

end LineSearch

end Descent
