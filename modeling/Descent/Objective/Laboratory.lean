import Descent.Objective.Basic
import Descent.Operator.Problem

/-!
# Objectives under observation

A `Laboratory` makes an operator of an objective: with some of its evaluations left out, with
answers and failures planted at chosen calls, given as a matrix or as Hessian-vector products, or
as a `Problem` with some derivatives approximated.  Its state keeps count of the calls of each
evaluation and a record of all of them.
-/

namespace Descent

/-- A call that was made of an evaluation. -/
inductive Call (R : Type) where
  | cost (x : Tensor R) (value : Value R)
  | gradient (x : Tensor R)
  | hessian (x : Tensor R)
  | failed (c : Capability) (x : Tensor R)

/-- The calls made so far: how many of each evaluation, and the record, the latest first. -/
structure Record (R : Type) where
  counts : Counts := {}
  calls : List (Call R) := []

/-- Answers and failures planted at calls of one evaluation, by their number; number zero stands
for every call that has none of its own. -/
abbrev Plan (R α : Type) := List (Int × Except (Fault R) α)

namespace Plan

/-- What is planted at a call. -/
def at? {R α : Type} (plan : Plan R α) (call : Nat) : Option (Except (Fault R) α) :=
  match plan.find? (·.1 == (call : Int)) with
  | some (_, answer) => some answer
  | none => (plan.find? (·.1 == 0)).map (·.2)

end Plan

/-- How an operator is made of an objective. -/
structure Laboratory (R : Type) where
  /-- The objective, or why there is none; that shows when it is evaluated. -/
  objective : Except (Fault R) (Objective R) := .ok {}
  backend : Backend := .numpy
  label : String := "Operator"
  /-- The evaluations that exist. -/
  offered : List Capability := Capability.all
  declared : Option (List Capability) := none
  /-- Whether the Hessian is a function computing its products with vectors. -/
  products : Bool := false
  costs : Plan R (Value R) := []
  gradients : Plan R (Option (Tensor R)) := []
  hessians : Plan R (Option (Curvature R)) := []

/-- Which functions a problem is made of. -/
structure ProblemForm where
  gradient : Bool := false
  hessian : Bool := false
  finiteDifferences : Bool := false

namespace Laboratory

variable {R : Type} [Elementary R]

/-- A recorded call: counted, then answered by what is planted there or else computed. -/
def call {α : Type} (c : Capability) (number : Counts → Nat) (plan : Plan R α)
    (compute : Except (Fault R) α) (entry : α → Call R) (x : Tensor R) :
    Act R (Record R) α := do
  modify fun r => { r with counts := r.counts.charge c }
  let answer := (plan.at? (number (← get).counts)).getD compute
  modify fun r => { r with calls := (match answer with
    | .ok a => entry a
    | .error _ => .failed c x) :: r.calls }
  Act.lift answer

/-- The entries along the first axis of a point: numbers if that is the only one.  A point without
axes has none. -/
def coordinates (x : Tensor R) : Option (Coordinates R) :=
  match x.shape with
  | [] => none
  | [_] => some (x.entries.map some)
  | n :: _ => some (List.replicate n none)

/-- The coordinates of a point that has an axis. -/
def demandCoordinates (x : Tensor R) : Except (Fault R) (Coordinates R) :=
  match coordinates x with
  | some cs => .ok cs
  | none => .error .wrongType

/-- The cost as the objective gives it; the empty sum does not look at the point. -/
def computeCost (l : Laboratory R) (x : Tensor R) : Except (Fault R) (Value R) := do
  let o ← l.objective
  if o.isEmpty then return .real 0.0
  return .real (← o.cost (← demandCoordinates x))

/-- The gradient as the objective gives it. -/
def computeGradient (l : Laboratory R) (x : Tensor R) : Except (Fault R) (Option (Tensor R)) := do
  let o ← l.objective
  return some (Tensor.vector l.backend (← o.gradient (← demandCoordinates x)))

/-- The Hessian as the objective gives it. -/
def computeHessian (l : Laboratory R) (x : Tensor R) : Except (Fault R) (Option (Curvature R)) := do
  let o ← l.objective
  let cs ← demandCoordinates x
  let rows ← o.hessian cs
  return some (if l.products then Curvature.ofRows rows
    else .matrix (Tensor.matrix l.backend rows cs.length))

/-- The cost. -/
def cost (l : Laboratory R) (x : Tensor R) : Act R (Record R) (Value R) :=
  call .cost Counts.cost l.costs (l.computeCost x) (.cost x) x

/-- The gradient. -/
def gradient (l : Laboratory R) (x : Tensor R) : Act R (Record R) (Option (Tensor R)) :=
  call .gradient Counts.gradient l.gradients (l.computeGradient x) (fun _ => .gradient x) x

/-- The Hessian. -/
def hessian (l : Laboratory R) (x : Tensor R) : Act R (Record R) (Option (Curvature R)) :=
  call .hessian Counts.hessian l.hessians (l.computeHessian x) (fun _ => .hessian x) x

/-- An evaluation, if it exists. -/
def offer {α : Type} (l : Laboratory R) (c : Capability) (f : α) : Option α :=
  if l.offered.contains c then some f else none

/-- The operator of an objective. -/
def operator (l : Laboratory R) : Operator R (Tensor R) (Curvature R) (Record R) where
  label := l.label
  cost := l.offer .cost l.cost
  gradient := l.offer .gradient l.gradient
  hessian := l.offer .hessian l.hessian
  declared := l.declared

/-- The operator of a problem made of the objective's functions. -/
def problem (l : Laboratory R) (form : ProblemForm) :
    Operator R (Tensor R) (Curvature R) (Record R) :=
  Problem.operator {
    cost := l.cost
    gradient := if form.gradient then some l.gradient else none
    hessian := if form.hessian then some l.hessian else none
    finiteDifferences := form.finiteDifferences }

end Laboratory

end Descent
