import Descent.Operator.Basic
import Descent.Run.Observer

/-!
# What a run shares with its nested runs

A `Session` holds the evaluations charged to an operator, the operator's own state, what was
reported so far and whether the invariants are checked.  A run and the runs nested in it, and runs
made one after the other on the same charged operator, pass it on.
-/

namespace Descent

/-- The evaluations charged so far, the operator's state and the reports. -/
structure Session (R σ : Type) where
  counts : Counts := {}
  /-- The state of the operator. -/
  world : σ
  /-- What was reported, the latest first. -/
  journal : List (Event R) := []
  /-- Whether the invariants of the state are checked after each iteration. -/
  debug : Bool := false
  /-- The duration a run is recorded to have taken. -/
  elapsed : R

namespace Session

variable {R V M σ α : Type} [Scalar R]

/-- A step of the operator within the session. -/
def inWorld (a : Act R σ α) : Act R (Session R σ) α :=
  Act.zoom Session.world (fun w s => { s with world := w }) a

/-- Report an event. -/
def report (e : Event R) : Act R (Session R σ) Unit :=
  modify fun s => { s with journal := e :: s.journal }

/-- An evaluation that the operator must have the capability for, charged before it is made.  One
that the operator does not offer is charged and then refused, and so is an absent point. -/
def evaluate (op : Operator R V M σ) (c : Capability) (method : Option (V → Act R σ α))
    (x : Option V) : Act R (Session R σ) α := do
  if !op.provides c then throw (.missingCapabilities (.text op.label) [c.label])
  modify fun s => { s with counts := s.counts.charge c }
  match method, x with
  | none, _ => throw (op.lacking c)
  | some f, some x => inWorld (f x)
  | some _, none => throw .missingAttribute

/-- The cost at a point, as the operator gives it. -/
def cost (op : Operator R V M σ) (x : Option V) : Act R (Session R σ) (Value R) :=
  evaluate op .cost op.cost x

/-- The cost at a point, as a measured value. -/
def costValue (op : Operator R V M σ) (x : Option V) : Act R (Session R σ) R := do
  Act.lift (← cost op x).toReal

/-- The gradient at a point. -/
def gradient (op : Operator R V M σ) (x : Option V) : Act R (Session R σ) (Option V) :=
  evaluate op .gradient op.gradient x

/-- The Hessian at a point. -/
def hessian (op : Operator R V M σ) (x : Option V) : Act R (Session R σ) (Option M) :=
  evaluate op .hessian op.hessian x

end Session

end Descent
