import Descent.Fault

/-!
# Steps that may be refused

`Act R τ α` reads and changes a `τ` and ends with an `α` or with a fault.  What was changed before
a fault stays changed: an evaluation that fails has been counted.
-/

namespace Descent

/-- A step on a `τ` that ends with a value or a fault. -/
abbrev Act (R τ α : Type) := ExceptT (Fault R) (StateM τ) α

namespace Act

variable {R τ υ α : Type}

/-- The step as a function of what it acts on. -/
def run (a : Act R τ α) (t : τ) : Except (Fault R) α × τ := StateT.run (ExceptT.run a) t

/-- The step that a function describes. -/
def of (f : τ → Except (Fault R) α × τ) : Act R τ α := ExceptT.mk (fun t => f t)

/-- A result that needs nothing from what the step acts on. -/
def lift (r : Except (Fault R) α) : Act R τ α := of fun t => (r, t)

/-- A step on a part of something, the part being put back whatever the outcome. -/
def zoom (part : υ → τ) (put : τ → υ → υ) (a : Act R τ α) : Act R υ α :=
  of fun u =>
    let (r, t) := a.run (part u)
    (r, put t u)

/-- The outcome of a step, a fault being one. -/
def attempt (a : Act R τ α) : Act R τ (Except (Fault R) α) :=
  of fun t =>
    let (r, t') := a.run t
    (.ok r, t')

end Act

end Descent
