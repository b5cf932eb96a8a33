import Descent.Decimal.Layout
import Descent.LineSearch.Backtracking
import Descent.LineSearch.Wolfe
import Descent.Machine
import Descent.Solver.NewtonCG
import Descent.Solver.Scripted
import Descent.Solver.TrustRegion
import Descent.Subproblem.Cauchy
import Descent.Subproblem.Dogleg

/-!
# Methods chosen at run time

A `Method` names an algorithm with its constants and its components, so that it can be chosen,
shown, written down and read back; `Method.solver` is the solver it stands for.  What a method
keeps from one step to the next is apart from it, in a `Memory` of the same form, and a `Rig` is
the two together.

Any method can be put where a component is expected.  One that cannot do what is asked of it
there is refused when it is asked.
-/

namespace Descent

/-- A method with its constants and its components. -/
inductive Method (R V M : Type) [Scalar R] where
  | backtracking (constants : Backtracking R)
  | wolfe (constants : Wolfe R)
  | cauchy
  | dogleg
  | steepestDescent (line : Method R V M) (tolGrad : R)
  | newtonCG (line : Method R V M) (settings : NewtonCG.Settings R)
  | trustRegion (sub : Method R V M) (settings : TrustRegion.Settings R)
  | halving (stop : Option (Value R))
  | scripted (script : Script R V M)
  /-- Something else, put in the place of a component. -/
  | other (typeName shown : String)

/-- What a method keeps, and its component below it. -/
inductive Memory (R V M : Type) where
  | plain
  | region (model : Region R V M)
  | around (inner : Memory R V M)
  | trust (working : R) (inner : Memory R V M)
  | position (p : Script.Position)

namespace Memory

variable {R V M : Type} [Scalar R]

/-- The model that is kept. -/
def model : Memory R V M → Region R V M
  | region r => r
  | _ => Region.unset

/-- The position in a script that is kept. -/
def place : Memory R V M → Script.Position
  | position p => p
  | _ => {}

/-- The memory of the component. -/
def inner : Memory R V M → Memory R V M
  | around m => m
  | trust _ m => m
  | _ => plain

/-- The working radius and the memory of the component, the radius being as given where none is
kept. -/
def trusted (radius : R) : Memory R V M → TrustRegion.Memory R (Memory R V M)
  | trust working m => ⟨working, m⟩
  | m => ⟨radius, m.inner⟩

end Memory

/-- A method together with its memory. -/
structure Rig (R V M : Type) [Scalar R] where
  method : Method R V M
  memory : Memory R V M

namespace Method

variable {R V M σ : Type} [Scalar R]

/-- The name of a method's type. -/
def typeName : Method R V M → String
  | backtracking _ => "BacktrackingLineSearch"
  | wolfe _ => "WolfeLineSearch"
  | cauchy => "CauchyPoint"
  | dogleg => "Dogleg"
  | steepestDescent _ _ => "SteepestDescent"
  | newtonCG _ _ => "NewtonCG"
  | trustRegion _ _ => "TrustRegion"
  | halving _ => "Halving"
  | scripted _ => "Scripted"
  | other name _ => name

variable [Space R V] [LinearAction R V M]

/-- The line search a method stands for. -/
def lineSearch (op : Operator R V M σ) : Method R V M → LineSearch R V M σ
  | backtracking b => b.lineSearch op
  | wolfe w => w.lineSearch op
  | m => ⟨fun _ _ => throw (.missingAttribute (.lacks m.typeName "search"))⟩

/-- A solver that keeps its memory in a part of another's. -/
def widen {μ ν : Type} (get : ν → μ) (put : μ → ν) (s : Solver R V M σ μ) :
    Solver R V M σ ν where
  name := s.name
  requires := s.requires
  init := Stage.within get (fun m _ => put m) s.init
  next := Stage.within get (fun m _ => put m) s.next
  terminate := Stage.within get (fun m _ => put m) s.terminate

/-- A step on the model that a memory keeps. -/
def onModel {α : Type} (a : Act R (Region R V M) α) : Act R (Memory R V M) α :=
  Act.zoom Memory.model (fun r _ => .region r) a

/-- A subproblem solver that keeps its model in a memory. -/
def widenSubproblem (s : Subproblem R V M σ (Region R V M)) :
    Subproblem R V M σ (Memory R V M) where
  solver := widen Memory.model .region s.solver
  setRadius := fun r => onModel (s.setRadius r)
  setGrad := fun g => onModel (s.setGrad g)
  setHessian := fun h => onModel (s.setHessian h)

/-- The subproblem solver a method stands for. -/
def subproblem : Method R V M → Subproblem R V M σ (Memory R V M)
  | cauchy => widenSubproblem Cauchy.subproblem
  | dogleg => widenSubproblem Dogleg.subproblem
  | m => {
      solver := ⟨"", [], throw .missingAttribute, throw .missingAttribute, throw .missingAttribute⟩
      setRadius := fun _ => throw (.missingAttribute (.lacks m.typeName "set_radius"))
      setGrad := fun _ => throw (.missingAttribute (.lacks m.typeName "set_grad"))
      setHessian := fun _ => throw (.missingAttribute (.lacks m.typeName "set_hessian")) }

/-- The solver a method stands for, if it is one. -/
def solver (op : Operator R V M σ) : Method R V M → Option (Solver R V M σ (Memory R V M))
  | backtracking _ => none
  | wolfe _ => none
  | cauchy => some (widenSubproblem Cauchy.subproblem).solver
  | dogleg => some (widenSubproblem Dogleg.subproblem).solver
  | steepestDescent line tol =>
    some (SteepestDescent.algorithm op (line.lineSearch op) tol).toSolver
  | newtonCG line settings =>
    some (NewtonCG.algorithm op (line.lineSearch op) settings).toSolver
  | trustRegion sub settings =>
    some (widen (Memory.trusted settings.radius) (fun m => .trust m.working m.sub)
      (TrustRegion.algorithm op sub.subproblem settings).toSolver)
  | halving stop => some (Halving.algorithm op stop).toSolver
  | scripted script => some (widen Memory.place .position script.solver)
  | other _ _ => none

/-- The name and the requirements of a method that is a solver. -/
def profile (m : Method R V M) : Option (String × List Capability) :=
  (m.solver (σ := Unit) ⟨"", none, none, none, none⟩).map fun s => (s.name, s.requires)

end Method

end Descent

/-! ### How a method is shown -/

namespace Descent.Method

variable {V M : Type}

/-- A type with constants by name. -/
def call (type : String) (constants : List (String × String)) : String :=
  type ++ "(" ++ ", ".intercalate (constants.map fun c => c.1 ++ "=" ++ c.2) ++ ")"

/-- A method as it is shown, with what its memory shows. -/
def shown (m : Method Float V M) (memory : Memory Float V M) : String :=
  let text := Binary.text
  match m with
  | backtracking b =>
    call "BacktrackingLineSearch" [("alpha0", text b.alpha0), ("rho", text b.rho), ("c", text b.c)]
  | wolfe w =>
    call "WolfeLineSearch" [("alpha0", text w.alpha0), ("c1", text w.c1), ("c2", text w.c2)]
  | cauchy => call "CauchyPoint" [("radius", text memory.model.radius)]
  | dogleg => call "Dogleg" [("radius", text memory.model.radius)]
  | steepestDescent line tol =>
    call "SteepestDescent" [("line_search", line.shown memory.inner), ("tol_grad", text tol)]
  | newtonCG line settings =>
    call "NewtonCG" [("line_search", line.shown memory.inner), ("tol_grad", text settings.tolGrad)]
  | trustRegion sub settings =>
    call "TrustRegion" [("subproblem", sub.shown memory.inner), ("radius", text settings.radius),
      ("max_radius", text settings.maxRadius), ("eta", text settings.eta)]
  | halving _ => call "Halving" []
  | scripted script => script.name
  | other _ shown => shown

end Descent.Method
