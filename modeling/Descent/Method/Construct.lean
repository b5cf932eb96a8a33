import Descent.Convert
import Descent.Decimal.Layout
import Descent.Method.Basic

/-!
# Constructing methods from named arguments

Each kind of method is made from arguments by name, absent ones taking their defaults.  Constants
are checked before they are converted, one after the other, so the first that is out of its range
is the one that is named.
-/

namespace Descent

/-- An argument: a plain value or a component. -/
inductive Argument (V M : Type) where
  | value (v : Value Float)
  | component (rig : Rig Float V M)

/-- Arguments by name. -/
abbrev Arguments (V M : Type) := List (String × Argument V M)

namespace Arguments

variable {V M : Type}

/-- The refusal of arguments by other names than these. -/
def only (args : Arguments V M) (names : List String) : Except (Fault Float) Unit :=
  if args.all fun a => names.contains a.1 then .ok () else .error .wrongType

/-- An argument that should be a plain value. -/
def value (args : Arguments V M) (name : String) (default : Value Float) : Value Float :=
  match args.find? (·.1 == name) with
  | some (_, .value v) => v
  | some (_, .component _) => .list []
  | none => default

/-- An argument that should be a limit on passes. -/
def limit (args : Arguments V M) (name : String) : NewtonCG.Limit Float :=
  match args.find? (·.1 == name) with
  | some (_, .value v) => .value v
  | some (_, .component rig) => .other rig.method.typeName
  | none => .value .null

/-- An argument to compare with a range. -/
def number (args : Arguments V M) (name : String) (default : Float) :
    Except (Fault Float) (Number Float) :=
  (args.value name (.real default)).toNumber

/-- An argument that should be a component; the default stands in for what counts as not given. -/
def component (args : Arguments V M) (name : String) (default : Rig Float V M) : Rig Float V M :=
  match args.find? (·.1 == name) with
  | some (_, .component rig) => rig
  | some (_, .value v) =>
    if v.isTruthy then ⟨.other v.typeName (v.shown Binary.text), .plain⟩ else default
  | none => default

end Arguments

namespace Construct

variable {V M : Type}

/-- A check of a constant. -/
def check (ok : Bool) (fault : Fault Float) : Except (Fault Float) Unit :=
  if ok then .ok () else .error fault

/-- Whether a number lies strictly between zero and one. -/
def inUnit (n : Number Float) : Bool := (Number.int 0).lt n && n.lt (.int 1)

/-- Whether a number is negative. -/
def isNegative (n : Number Float) : Bool := n.lt (.int 0)

/-- A backtracking search. -/
def backtracking (args : Arguments V M) : Except (Fault Float) (Rig Float V M) := do
  args.only ["alpha0", "rho", "c", "max_iter"]
  let c ← args.number "c" Backtracking.default.c
  check (inUnit c) .sufficientDecreaseRange
  let rho ← args.number "rho" Backtracking.default.rho
  check (inUnit rho) .shrinkRange
  let alpha0 ← args.number "alpha0" Backtracking.default.alpha0
  check (!alpha0.le (.int 0)) .firstStepSign
  let alpha0 ← alpha0.toReal
  let rho ← rho.toReal
  let c ← c.toReal
  let maxIter ← (args.value "max_iter" (.int (Backtracking.default (R := Float)).maxIter)).toInt
  return ⟨.backtracking ⟨alpha0, rho, c, maxIter⟩, .plain⟩

/-- A strong Wolfe search. -/
def wolfe (args : Arguments V M) : Except (Fault Float) (Rig Float V M) := do
  args.only ["alpha0", "c1", "c2", "max_iter"]
  let c1 ← args.number "c1" Wolfe.default.c1
  check ((Number.int 0).lt c1) .wolfeOrder
  let c2 ← args.number "c2" Wolfe.default.c2
  check (c1.lt c2 && c2.lt (.int 1)) .wolfeOrder
  let alpha0 ← args.number "alpha0" Wolfe.default.alpha0
  check (!alpha0.le (.int 0)) .firstStepSign
  let alpha0 ← alpha0.toReal
  let c1 ← c1.toReal
  let c2 ← c2.toReal
  let maxIter ← (args.value "max_iter" (.int (Wolfe.default (R := Float)).maxIter)).toInt
  return ⟨.wolfe ⟨alpha0, c1, c2, maxIter⟩, .plain⟩

/-- Steepest descent. -/
def steepestDescent (args : Arguments V M) : Except (Fault Float) (Rig Float V M) := do
  args.only ["line_search", "tol_grad"]
  let tol ← args.number "tol_grad" relativeTolerance
  check (!isNegative tol) .gradientToleranceSign
  let line := args.component "line_search" ⟨.backtracking Backtracking.default, .plain⟩
  return ⟨.steepestDescent line.method (← tol.toReal), .around line.memory⟩

/-- Newton's method with conjugate gradients. -/
def newtonCG (args : Arguments V M) : Except (Fault Float) (Rig Float V M) := do
  args.only ["line_search", "tol_grad", "tol_cost", "cg_max_iter"]
  let tolGrad ← args.number "tol_grad" relativeTolerance
  check (!isNegative tolGrad) .tolerancesSign
  let tolCost ← args.number "tol_cost" NewtonCG.defaultTolCost
  check (!isNegative tolCost) .tolerancesSign
  let line := args.component "line_search" ⟨.wolfe Wolfe.default, .plain⟩
  let settings : NewtonCG.Settings Float :=
    ⟨← tolGrad.toReal, ← tolCost.toReal, args.limit "cg_max_iter"⟩
  return ⟨.newtonCG line.method settings, .around line.memory⟩

/-- The trust-region method. -/
def trustRegion (args : Arguments V M) : Except (Fault Float) (Rig Float V M) := do
  args.only ["subproblem", "radius", "max_radius", "eta", "grad_tol"]
  let radius ← args.number "radius" 1.0
  check ((Number.int 0).lt radius) .initialRadius
  let initial ← radius.toReal
  check initial.isFinite .initialRadius
  let maxRadius ← args.number "max_radius" 100.0
  check (!maxRadius.lt radius) .radiusBound
  let eta ← args.number "eta" 0.125
  check ((Number.real 0.0).le eta && eta.lt (.real 0.25)) .acceptanceRange
  let sub := args.component "subproblem" ⟨.cauchy, .region Region.unset⟩
  let settings : TrustRegion.Settings Float :=
    ⟨initial, ← maxRadius.toReal, ← eta.toReal,
      ← (args.value "grad_tol" (.real relativeTolerance)).toReal⟩
  return ⟨.trustRegion sub.method settings, .trust initial sub.memory⟩

/-- A subproblem solver, to which nothing was given yet. -/
def subproblem (method : Method Float V M) (args : Arguments V M) :
    Except (Fault Float) (Rig Float V M) := do
  args.only []
  return ⟨method, .region Region.unset⟩

/-- The method of a type, if there is a type of that name. -/
def ofType? (type : String) : Option (Arguments V M → Except (Fault Float) (Rig Float V M)) :=
  if type == "BacktrackingLineSearch" then some backtracking
  else if type == "WolfeLineSearch" then some wolfe
  else if type == "SteepestDescent" then some steepestDescent
  else if type == "NewtonCG" then some newtonCG
  else if type == "TrustRegion" then some trustRegion
  else if type == "CauchyPoint" then some (subproblem .cauchy)
  else if type == "Dogleg" then some (subproblem .dogleg)
  else none

end Construct

end Descent
