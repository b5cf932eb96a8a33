import Descent.Act

/-!
# Operators and the evaluations they are charged for

An operator offers some of three evaluations: the cost, the gradient and the Hessian at a point
(`Operator`).  A run reaches them only through `Session`, which checks that the operator has the
capability, counts the evaluation, and only then makes it, so the counts are of evaluations
attempted, failed ones included.  An operator may keep a state `σ` of its own.
-/

namespace Descent

/-- What an operator can be asked for. -/
inductive Capability where
  | cost
  | gradient
  | hessian
  deriving DecidableEq, Repr, Inhabited

namespace Capability

/-- Every capability. -/
def all : List Capability := [cost, gradient, hessian]

/-- The name of a capability. -/
def label : Capability → String
  | cost => "cost"
  | gradient => "gradient"
  | hessian => "hessian"

/-- The capability of a name. -/
def ofLabel? (text : String) : Option Capability := all.find? (·.label == text)

end Capability

/-- An objective: the evaluations it offers and, if it declares them, its capabilities.  A gradient
and a Hessian may turn out to be nothing. -/
structure Operator (R V M σ : Type) where
  /-- The name by which a refusal calls the operator. -/
  label : String
  cost : Option (V → Act R σ (Value R))
  gradient : Option (V → Act R σ (Option V))
  hessian : Option (V → Act R σ (Option M))
  declared : Option (List Capability) := none

namespace Operator

variable {R V M σ : Type}

/-- Whether an evaluation is offered. -/
def offers (op : Operator R V M σ) : Capability → Bool
  | .cost => op.cost.isSome
  | .gradient => op.gradient.isSome
  | .hessian => op.hessian.isSome

/-- Whether the operator has a capability: by its declaration, or else because it offers the
evaluation. -/
def provides (op : Operator R V M σ) (c : Capability) : Bool :=
  match op.declared with
  | some declared => declared.contains c
  | none => op.offers c

/-- The capabilities, in the order of their names. -/
def capabilities (op : Operator R V M σ) : List Capability := Capability.all.filter op.provides

/-- The required capabilities that the operator lacks, in the order of their names. -/
def missing (op : Operator R V M σ) (required : List Capability) : List Capability :=
  Capability.all.filter fun c => required.contains c && !op.provides c

/-- The refusal of an evaluation that is not offered. -/
def lacking (op : Operator R V M σ) (c : Capability) : Fault R :=
  .missingAttribute (.lacks op.label c.label)

/-- An evaluation, refused if it is not offered. -/
def evaluate {α : Type} (op : Operator R V M σ) (c : Capability)
    (method : Option (V → Act R σ α)) (x : V) : Act R σ α :=
  match method with
  | some f => f x
  | none => throw (op.lacking c)

end Operator

/-- The number of evaluations of each kind. -/
structure Counts where
  cost : Nat := 0
  gradient : Nat := 0
  hessian : Nat := 0
  deriving DecidableEq, Repr, Inhabited

namespace Counts

/-- The counts after one more evaluation. -/
def charge (c : Counts) : Capability → Counts
  | .cost => { c with cost := c.cost + 1 }
  | .gradient => { c with gradient := c.gradient + 1 }
  | .hessian => { c with hessian := c.hessian + 1 }

/-- The counts in a line, with what stands between them. -/
def text (separator : String) (c : Counts) : String :=
  separator.intercalate ["cost=" ++ toString c.cost, "gradient=" ++ toString c.gradient,
    "hessian=" ++ toString c.hessian]

end Counts

/-- An operator with the evaluations charged to it, as it is shown. -/
def Operator.shown {R V M σ : Type} (op : Operator R V M σ) (charged : Counts) : String :=
  "OperatorWrapper(" ++ op.label ++ ", " ++ charged.text ", " ++ ")"

end Descent
