import Descent.Solver.Basic

/-!
# Two plain solvers

`Halving` halves the parameter in each iteration.  `Script` plays back deltas that were written
beforehand, and may assign to the state while it does: it is the solver that need not keep to the
contract.
-/

namespace Descent

variable {R V M σ μ : Type} [Scalar R]

namespace Halving

/-- One iteration: half the parameter, with its cost as the operator gives it. -/
def next [Space R V] (op : Operator R V M σ) (s : State R V M) :
    Act R (Session R σ) (Delta R V M) := do
  let y := Space.scale (← Act.lift (Space.require s.param)) 0.5
  let cost ← Session.cost op (some y)
  return { param := some y, cost := cost.given? }

/-- Whether the iteration at which to stop was reached. -/
def terminate (stop : Option (Value R)) (s : State R V M) : Except (Fault R) Reason :=
  match stop with
  | some n => do return if ← s.curIter.ge n then .converged else .notTerminated
  | none => .ok .notTerminated

/-- The halving solver, which stops after a number of iterations if it is given one. -/
def algorithm [Space R V] (op : Operator R V M σ) (stop : Option (Value R)) :
    Algorithm R V M σ μ where
  name := "halving"
  requires := [.cost]
  init := fun _ => return none
  next := fun s => Bench.inSession (next op s)
  terminate := fun s => Act.lift (terminate stop s)

end Halving

/-- One entry of a script: what it assigns to the state, and then the fault it ends in or the
delta it answers with, if it has one. -/
structure Line (R V M : Type) [Scalar R] where
  assign : Act R (State R V M) Unit := return ()
  outcome : Except (Fault R) (Option (Delta R V M))

/-- Deltas and verdicts written beforehand. -/
structure Script (R V M : Type) [Scalar R] where
  name : String
  requires : List Capability
  init : Option (Line R V M)
  /-- The answers of the iterations, the last of which repeats. -/
  lines : List (Line R V M)
  /-- The verdicts, after the last of which nothing terminates any more. -/
  verdicts : List (Except (Fault R) Reason)

namespace Script

/-- How many lines and how many verdicts were played to their end. -/
structure Position where
  line : Nat := 0
  verdict : Nat := 0
  deriving DecidableEq, Repr, Inhabited

/-- Play a line. -/
def play (line : Line R V M) : Act R (Stage R V M σ Position) (Option (Delta R V M)) := do
  Stage.inState line.assign
  Act.lift line.outcome

/-- Play the next line; one that ends in a fault stays the next. -/
def next (script : Script R V M) : Act R (Stage R V M σ Position) (Option (Delta R V M)) := do
  let k := (← get).memory.line
  match script.lines[min k (script.lines.length - 1)]? with
  | some line =>
    let d ← play line
    modify fun t => { t with memory := { t.memory with line := k + 1 } }
    return d
  | none => throw .missingItem

/-- Give the next verdict; one that ends in a fault stays the next. -/
def terminate (script : Script R V M) : Act R (Stage R V M σ Position) Reason := do
  let k := (← get).memory.verdict
  match script.verdicts[k]? with
  | some verdict =>
    let reason ← Act.lift verdict
    modify fun t => { t with memory := { t.memory with verdict := k + 1 } }
    return reason
  | none => return .notTerminated

/-- The solver that plays a script. -/
def solver (script : Script R V M) : Solver R V M σ Position where
  name := script.name
  requires := script.requires
  init := match script.init with
    | none => return none
    | some line => play line
  next := script.next
  terminate := script.terminate

end Script

end Descent
