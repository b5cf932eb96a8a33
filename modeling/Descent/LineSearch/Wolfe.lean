import Descent.LineSearch.Ray

/-!
# The strong Wolfe search

The step length doubles from `alpha0` until it satisfies the strong Wolfe conditions - sufficient
decrease with `c1`, a slope at most `c2` times as steep - or until an interval is known to hold
one that does.  `Wolfe.zoom` then halves that interval; its lower end `alo` always satisfies
sufficient decrease, so it is preferred to a midpoint that does not.
-/

namespace Descent

/-- The constants of a strong Wolfe search. -/
structure Wolfe (R : Type) where
  alpha0 : R
  c1 : R
  c2 : R
  maxIter : Int
  deriving DecidableEq, Repr

namespace Wolfe

variable {R V M σ : Type} [Scalar R] [Space R V]

/-- The constants unless told otherwise. -/
def default : Wolfe R := ⟨1.0, 1e-4, 0.9, 40⟩

/-- The line a search runs along: its origin and direction, and the cost, the gradient and the slope
at its origin. -/
structure Line (R V : Type) where
  origin : Option V
  direction : V
  cost : R
  grad : Option V
  slope : R

/-- Whether a cost is too high for sufficient decrease at a step length. -/
def tooHigh (w : Wolfe R) (line : Line R V) (alpha trial : R) : Bool :=
  decide (line.cost + w.c1 * alpha * line.slope < trial)

/-- Whether a slope is flat enough. -/
def flatEnough (w : Wolfe R) (line : Line R V) (slope : R) : Bool :=
  decide (Scalar.magnitude slope ≤ -w.c2 * line.slope)

/-- The slope along the line where the gradient is `grad`. -/
def slopeOf (line : Line R V) (grad : Option V) : Act R (Probe R V σ) R :=
  Act.lift (Space.innerWith line.grad grad line.direction)

/-- The interval a zoom has narrowed down to, with the cost at its lower end. -/
structure Bracket (R : Type) where
  alo : R
  ahi : R
  costLow : R
  deriving DecidableEq, Repr

/-- The middle of a bracket. -/
def Bracket.middle (b : Bracket R) : R := 0.5 * (b.alo + b.ahi)

/-- What one pass of a zoom comes to. -/
inductive Pass (R V : Type) where
  | accepted (step : StepLength R V)
  | narrowed (bracket : Bracket R) (tried : StepLength R V)

/-- One pass of a zoom: the middle is accepted, or replaces one of the ends. -/
def pass (w : Wolfe R) (op : Operator R V M σ) (line : Line R V) (b : Bracket R) :
    Act R (Probe R V σ) (Pass R V) := do
  let alpha := b.middle
  let trial ← Probe.cost op line.origin line.direction alpha
  if w.tooHigh line alpha trial || decide (b.costLow ≤ trial) then
    let met := Ray.known alpha (← get).ray.grads
    return .narrowed { b with ahi := alpha } ⟨alpha, some trial, met.join⟩
  else
    let grad ← Probe.gradient op line.origin line.direction alpha
    let slope ← slopeOf line grad
    if w.flatEnough line slope then return .accepted ⟨alpha, some trial, grad⟩
    else
      let ahi := if 0.0 ≤ slope * (b.ahi - b.alo) then b.alo else b.ahi
      return .narrowed ⟨alpha, ahi, trial⟩ ⟨alpha, some trial, grad⟩

/-- What a zoom settles for: the lower end unless that is the origin, and else the last
middle. -/
def settle (b : Bracket R) (tried : StepLength R V) : Act R (Probe R V σ) (StepLength R V) :=
  if 0.0 < b.alo then Probe.stepLength b.alo else return tried

/-- Passes over a bracket, as long as it is not too narrow and no middle is accepted. -/
def zoom (w : Wolfe R) (op : Operator R V M σ) (line : Line R V) :
    Nat → Bracket R → StepLength R V → Act R (Probe R V σ) (StepLength R V)
  | 0, b, tried => settle b tried
  | left + 1, b, _ => do
    match ← w.pass op line b with
    | .accepted step => return step
    | .narrowed b tried =>
      if Scalar.magnitude (b.ahi - b.alo) < 1e-12 then settle b tried
      else w.zoom op line left b tried

/-- The number of passes a zoom makes at most. -/
def zoomPasses : Nat := 32

/-- A zoom into a bracket. -/
def zoomInto (w : Wolfe R) (op : Operator R V M σ) (line : Line R V) (b : Bracket R) :
    Act R (Probe R V σ) (StepLength R V) :=
  w.zoom op line zoomPasses b ⟨b.middle, none, none⟩

/-- The trials that are left, from a step length on, after one of length `previous` and cost
`costBefore`. -/
def trials (w : Wolfe R) (op : Operator R V M σ) (line : Line R V) :
    Nat → Bool → R → R → R → Act R (Probe R V σ) (StepLength R V)
  | 0, _, _, _, alpha => Probe.stepLength alpha
  | left + 1, first, previous, costBefore, alpha => do
    let trial ← Probe.cost op line.origin line.direction alpha
    if w.tooHigh line alpha trial || (!first && decide (costBefore ≤ trial)) then
      w.zoomInto op line ⟨previous, alpha, costBefore⟩
    else
      let grad ← Probe.gradient op line.origin line.direction alpha
      let slope ← slopeOf line grad
      if w.flatEnough line slope then return ⟨alpha, some trial, grad⟩
      else if 0.0 ≤ slope then w.zoomInto op line ⟨alpha, previous, trial⟩
      else w.trials op line left false alpha trial (alpha * 2.0)

/-- The search for a step length; refused along a direction that does not descend. -/
def search (w : Wolfe R) (op : Operator R V M σ) (direction : V) (s : State R V M) :
    Act R (Session R σ) (StepLength R V) := do
  let (cost, grad) ← LineSearch.current op s
  let slope ← Act.lift (Space.innerWith grad grad direction)
  if 0.0 ≤ slope then throw .notDescent
  LineSearch.along
    (w.trials op ⟨s.param, direction, cost, grad, slope⟩ w.maxIter.toNat true 0.0 cost w.alpha0)

/-- The search as a line search. -/
def lineSearch (w : Wolfe R) (op : Operator R V M σ) : LineSearch R V M σ := ⟨w.search op⟩

end Wolfe

end Descent
