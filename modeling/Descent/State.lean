import Descent.Quantity
import Descent.Reason

/-!
# The state of a run

`State` is the one record of a run.  A solver answers each step with a `Delta` naming what
changed, and `State.merge` is the only place where a delta enters the state and where the best
cost so far is kept: `bestCost` is replaced only by a cost strictly below it, together with the
parameter and the iteration at which it was met.

Costs, counts and ceilings are kept as the values they were given; whether they are numbers shows
when they are compared.
-/

namespace Descent

/-- What one step of a solver changed; what is absent stays as it is. -/
structure Delta (R V M : Type) where
  param : Option V := none
  cost : Option (Value R) := none
  grad : Option V := none
  hessian : Option M := none
  termination : Option Reason := none
  /-- Diagnostics for observers. -/
  kv : List (String × Value R) := []
  deriving Inhabited

/-- The largest ceiling a run has unless told otherwise. -/
def unlimited : Int := 9223372036854775807

/-- The record of a run. -/
structure State (R V M : Type) [Scalar R] where
  param : Option V := none
  /-- The parameter before the last update. -/
  prevParam : Option V := none
  /-- The parameter of the lowest cost so far. -/
  bestParam : Option V := none
  /-- The current cost, unknown at first. -/
  cost : Value R := .real Scalar.nan
  prevCost : Value R := .real Scalar.nan
  /-- The lowest cost so far. -/
  bestCost : Value R := .real Scalar.inf
  /-- The best cost before the last improvement. -/
  prevBestCost : Value R := .real Scalar.inf
  /-- The iteration at which the best cost was merged. -/
  lastBestIter : Value R := .int 0
  grad : Option V := none
  hessian : Option M := none
  /-- The number of completed iterations. -/
  curIter : Value R := .int 0
  maxIters : Value R := .int unlimited
  /-- The run stops at a cost at or below this. -/
  targetCost : Value R := .real Scalar.negInf
  reason : Reason := .notTerminated
  /-- The duration of the run, once it has ended. -/
  time : Option (Value R) := none
  /-- Diagnostics of the latest delta that had any. -/
  kv : List (String × Value R) := []

namespace State

variable {R V M : Type} [Scalar R]

instance : Inhabited (State R V M) := ⟨{}⟩

/-- Whether the run has stopped. -/
def terminated (s : State R V M) : Bool := s.reason.isTerminal

/-- The state with a reason recorded, unless one was recorded before. -/
def terminateWith (s : State R V M) (reason : Reason) : State R V M :=
  if s.terminated then s else { s with reason := reason }

/-- The state after one more iteration. -/
def incrementIter (s : State R V M) : Except (Fault R) (State R V M) := do
  return { s with curIter := ← s.curIter.succ "+=" }

/-- The state with all of a delta but its cost. -/
def mergeParts (s : State R V M) (d : Delta R V M) : State R V M :=
  { s with
    param := d.param.or s.param
    prevParam := if d.param.isSome then s.param else s.prevParam
    grad := d.grad.or s.grad
    hessian := d.hessian.or s.hessian
    kv := if d.kv.isEmpty then s.kv else d.kv }

/-- The state with the current cost recorded as the best one, met at the current parameter. -/
def improve (s : State R V M) : State R V M :=
  { s with
    prevBestCost := s.bestCost
    bestCost := s.cost
    bestParam := s.param
    lastBestIter := s.curIter }

/-- The state after a cost was met at the current parameter, and whether it is a new best. -/
def mergeCost (s : State R V M) (cost : R) : Except (Fault R) Bool × State R V M :=
  let s := { s with cost := .real cost }
  match s.cost.lt s.bestCost with
  | .ok true => (.ok true, s.improve)
  | r => (r, s)

/-- The state with a delta merged, and whether its cost is a new best.  A cost that is no
measured value is refused after the other parts were merged. -/
def merge (s : State R V M) (d : Delta R V M) : Except (Fault R) Bool × State R V M :=
  let s := s.mergeParts d
  match d.cost with
  | none => (.ok false, s)
  | some cost =>
    let s := { s with prevCost := s.cost }
    match cost.toReal with
    | .error f => (.error f, s)
    | .ok x => s.mergeCost x

/-- Whether the state's cost reached its target. -/
def targetReached (s : State R V M) : Except (Fault R) Bool := s.bestCost.le s.targetCost

/-- Whether a value follows another one as the next; nothing follows the empty value, and anything
may. -/
def follows (after before : Value R) : Except (Fault R) Bool := do
  match before.given? with
  | none => return true
  | some v =>
    match after.number?, (← v.succ "+").number? with
    | some m, some n => return m.same n
    | _, _ => return false

/-- Whether a cost is known and lies below the best one. -/
def undercutsBest (s : State R V M) : Except (Fault R) Bool := do
  if ← s.cost.isNaN then return false
  s.cost.lt s.bestCost

/-- The refusal of a state that violates an invariant, the first of them.  `prevIter` and
`prevBestCost` are the iteration counter and the best cost before the iteration, empty where they
are not known. -/
def check (s : State R V M) (prevIter prevBestCost : Value R) : Except (Fault R) Unit := do
  if ← s.curIter.lt (.int 0) then throw (.iterationNegative s.curIter)
  if ← s.curIter.gt s.maxIters then throw (.iterationBeyond s.curIter s.maxIters)
  if !(← follows s.curIter prevIter) then throw (.iterationSkipped prevIter s.curIter)
  if ← s.undercutsBest then throw (.costBelowBest s.cost s.bestCost)
  match prevBestCost.given? with
  | none => pure ()
  | some before => if ← s.bestCost.gt before then throw (.bestIncreased before s.bestCost)
  if (← s.bestCost.isFinite) && s.bestParam.isNone then throw .bestWithoutParam

end State

end Descent
