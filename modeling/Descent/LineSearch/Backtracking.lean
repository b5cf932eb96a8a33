import Descent.LineSearch.Ray

/-!
# Backtracking

The step length starts at `alpha0` and shrinks by the factor `rho` until the cost has decreased
sufficiently: to at most `f(x) + c * alpha * slope`.  If no trial does, the next length in line is
returned untested.
-/

namespace Descent

/-- The constants of a backtracking search. -/
structure Backtracking (R : Type) where
  alpha0 : R
  rho : R
  c : R
  maxIter : Int
  deriving DecidableEq, Repr

namespace Backtracking

variable {R V M σ : Type} [Scalar R] [Space R V]

/-- The constants unless told otherwise. -/
def default : Backtracking R := ⟨1.0, 0.5, 1e-4, 50⟩

/-- Whether a cost has decreased sufficiently at a step length. -/
def isSufficient (b : Backtracking R) (cost slope alpha trial : R) : Bool :=
  decide (trial ≤ cost + b.c * alpha * slope)

/-- The trials that are left, from a step length on. -/
def trials (b : Backtracking R) (op : Operator R V M σ) (x : Option V) (direction : V)
    (cost slope : R) : Nat → R → Act R (Probe R V σ) (StepLength R V)
  | 0, alpha => do return ⟨alpha, Ray.known alpha (← get).ray.costs, none⟩
  | left + 1, alpha => do
    let trial ← Probe.cost op x direction alpha
    if b.isSufficient cost slope alpha trial then return ⟨alpha, some trial, none⟩
    else trials b op x direction cost slope left (alpha * b.rho)

/-- The search for a step length. -/
def search (b : Backtracking R) (op : Operator R V M σ) (direction : V) (s : State R V M) :
    Act R (Session R σ) (StepLength R V) := do
  let (cost, grad) ← LineSearch.current op s
  let slope ← Act.lift (Space.innerWith grad grad direction)
  LineSearch.along (b.trials op s.param direction cost slope b.maxIter.toNat b.alpha0)

/-- The search as a line search. -/
def lineSearch (b : Backtracking R) (op : Operator R V M σ) : LineSearch R V M σ :=
  ⟨b.search op⟩

end Backtracking

end Descent
