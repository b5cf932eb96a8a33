import Descent.Run.Executor
import Descent.Subproblem.Region

/-!
# The trust-region method

Each iteration gives the current gradient, Hessian and radius to a subproblem solver, runs it for
one iteration in an executor of its own that shares the session, and takes the step if the ratio
of actual to predicted reduction exceeds `eta` (Nocedal & Wright, Algorithm 4.1).  The working
radius shrinks to a quarter where the model predicts badly and doubles, up to a bound, where it
predicts well and the step reached the boundary.
-/

namespace Descent.TrustRegion

variable {R V M σ μ : Type} [Scalar R] [Space R V] [LinearAction R V M]

/-- The constants of the method. -/
structure Settings (R : Type) where
  radius : R
  maxRadius : R
  eta : R
  gradTol : R
  deriving DecidableEq, Repr

/-- The working radius and what the subproblem solver keeps. -/
structure Memory (R μ : Type) where
  working : R
  sub : μ

/-- The gradient's length under the tolerance of the settings. -/
def stationary (settings : Settings R) (grad : Option V) : Except (Fault R) Bool :=
  isStationary settings.gradTol grad

/-- Set the working radius. -/
def setWorking (radius : R) : Act R (Bench R σ (Memory R μ)) Unit :=
  modify fun b => { b with memory := { b.memory with working := radius } }

/-- Prepare a run: the cost, the gradient and, away from a stationary point, the Hessian at the
start. -/
def init (op : Operator R V M σ) (settings : Settings R) (s : State R V M) :
    Act R (Bench R σ (Memory R μ)) (Option (Delta R V M)) := do
  setWorking settings.radius
  let cost ← Bench.inSession (Session.costValue op s.param)
  Act.lift (checkFinite cost "Initial cost")
  let grad ← Bench.inSession (Session.gradient op s.param)
  if ← Act.lift (stationary settings grad) then
    return some { cost := some (.real cost), grad := grad, termination := some .converged }
  let hessian ← Bench.inSession (Session.hessian op s.param)
  return some {
    cost := some (.real cost)
    grad := grad
    hessian := hessian
    kv := [("radius", .real settings.radius)] }

/-- Give the model of the current point to the subproblem solver. -/
def prepare (sub : Subproblem R V M σ μ) (radius : R) (grad : V) (hessian : Option M) :
    Act R (Bench R σ (Memory R μ)) Unit :=
  Bench.inMemory (Act.zoom Memory.sub (fun m t => { t with sub := m }) (do
    sub.setRadius radius
    sub.setGrad (some grad)
    sub.setHessian hessian))

/-- The settings of the run of a subproblem: one iteration from the zero step. -/
def innerConfig (grad : V) : Config R V := { param := some (Space.zeros grad), maxIters := .int 1 }

/-- The step that the subproblem solver answers with, run in an executor that shares the
session. -/
def solveModel (op : Operator R V M σ) (sub : Subproblem R V M σ μ) (grad : V) :
    Act R (Bench R σ (Memory R μ)) V := do
  Act.lift (Executor.check op sub.solver.name sub.solver.requires)
  Act.of fun b =>
    let inner : Executor R V M σ μ := Executor.new b.memory.sub b.session (innerConfig grad)
    let (r, inner) := (Executor.run sub.solver).run inner
    (do Space.require (← r).state.param,
      ⟨{ b.memory with sub := inner.stage.memory }, inner.stage.session⟩)

/-- The reduction of the model that a step promises. -/
def predicted (grad step : V) (hessian : Option M) : Except (Fault R) R := do
  let linear ← Space.dot grad step
  match hessian with
  | none => .error .wrongType
  | some h => return -(linear + 0.5 * (← Space.weightedDot step h step))

/-- The ratio of actual to predicted reduction, zero where it says nothing. -/
def reductionRatio (before : Value R) (after promised : R) : Except (Fault R) R := do
  if 0.0 < promised ∧ Scalar.isFinite after = true then
    Scalar.quotient (← (← before.sub (.real after)).toReal) promised
  else return 0.0

/-- The radius after a step of a length with a reduction ratio. -/
def adjust (settings : Settings R) (radius ratio length : R) : R :=
  if ratio < 0.25 then 0.25 * radius
  else if 0.75 < ratio ∧ 0.9 * radius ≤ length then
    Scalar.least (2.0 * radius) settings.maxRadius
  else radius

/-- One iteration away from a stationary point. -/
def iterate (op : Operator R V M σ) (sub : Subproblem R V M σ μ) (settings : Settings R)
    (s : State R V M) (grad : V) : Act R (Bench R σ (Memory R μ)) (Delta R V M) := do
  let radius := (← get).memory.working
  prepare sub radius grad s.hessian
  let step ← solveModel op sub grad
  let y ← Act.lift (do Space.add (← Space.require s.param) step)
  let cost ← Bench.inSession (Session.costValue op (some y))
  let promised ← Act.lift (predicted grad step s.hessian)
  let ratio ← Act.lift (reductionRatio s.cost cost promised)
  let radius := adjust settings radius ratio (Space.norm step)
  setWorking radius
  let kv : List (String × Value R) := [("radius", .real radius), ("rho", .real ratio)]
  if settings.eta < ratio then
    let grad ← Bench.inSession (Session.gradient op (some y))
    let hessian ← Bench.inSession (Session.hessian op (some y))
    return {
      param := some y
      cost := some (.real cost)
      grad := grad
      hessian := hessian
      kv := kv }
  return { kv := kv }

/-- One iteration. -/
def next (op : Operator R V M σ) (sub : Subproblem R V M σ μ) (settings : Settings R)
    (s : State R V M) : Act R (Bench R σ (Memory R μ)) (Delta R V M) := do
  if ← Act.lift (stationary settings s.grad) then return { termination := some .converged }
  let grad ← Act.lift (Space.require s.grad)
  iterate op sub settings s grad

/-- Whether the gradient is short enough to stop. -/
def terminate (settings : Settings R) (s : State R V M) : Except (Fault R) Reason := do
  if s.grad.isNone then return .notTerminated
  return if ← stationary settings s.grad then .converged else .notTerminated

/-- The trust-region method with a subproblem solver, as an algorithm. -/
def algorithm (op : Operator R V M σ) (sub : Subproblem R V M σ μ) (settings : Settings R) :
    Algorithm R V M σ (Memory R μ) where
  name := "Trust region"
  requires := [.cost, .gradient, .hessian]
  init := init op settings
  next := next op sub settings
  terminate := fun s => Act.lift (terminate settings s)

end Descent.TrustRegion
