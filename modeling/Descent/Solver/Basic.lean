import Descent.Run.Session
import Descent.Space

/-!
# The contract of a solver

A `Solver` is driven one step at a time: `init` prepares a run, `next` answers one iteration with
a delta, and `terminate` looks at the state after that delta was merged.  All three act on a
`Stage`: the solver's own memory, the state of the run and the session.

A solver that keeps to its contract reads the state and does not assign to it.  Such a solver is
an `Algorithm`, whose steps are given the state and cannot reach it otherwise;
`Algorithm.toSolver` is the solver it makes.
-/

namespace Descent

/-- What the steps of a solver act on. -/
structure Stage (R V M σ μ : Type) [Scalar R] where
  /-- What the solver keeps from one step to the next. -/
  memory : μ
  state : State R V M
  session : Session R σ

namespace Stage

variable {R V M σ μ ν α : Type} [Scalar R]

/-- A step of the session. -/
def inSession (a : Act R (Session R σ) α) : Act R (Stage R V M σ μ) α :=
  Act.zoom Stage.session (fun s t => { t with session := s }) a

/-- A step of the state. -/
def inState (a : Act R (State R V M) α) : Act R (Stage R V M σ μ) α :=
  Act.zoom Stage.state (fun s t => { t with state := s }) a

/-- A step of a solver whose memory is a part of another's. -/
def within (get : ν → μ) (set : μ → ν → ν) (a : Act R (Stage R V M σ μ) α) :
    Act R (Stage R V M σ ν) α :=
  Act.zoom (fun t => ⟨get t.memory, t.state, t.session⟩)
    (fun t u => ⟨set t.memory u.memory, t.state, t.session⟩) a

end Stage

/-- An algorithm that is driven one step at a time. -/
structure Solver (R V M σ μ : Type) [Scalar R] where
  name : String
  /-- The capabilities of an operator that the solver calls for. -/
  requires : List Capability
  /-- Prepare a run; the delta is merged before the first iteration. -/
  init : Act R (Stage R V M σ μ) (Option (Delta R V M))
  /-- What one iteration changes; a solver may fail to say. -/
  next : Act R (Stage R V M σ μ) (Option (Delta R V M))
  /-- Whether the run should stop, decided after each merge. -/
  terminate : Act R (Stage R V M σ μ) Reason

/-- What the steps of an algorithm act on: its memory and the session, but not the state. -/
structure Bench (R σ μ : Type) where
  memory : μ
  session : Session R σ

namespace Bench

variable {R σ μ α : Type}

/-- A step of the session. -/
def inSession (a : Act R (Session R σ) α) : Act R (Bench R σ μ) α :=
  Act.zoom Bench.session (fun s t => { t with session := s }) a

/-- A step of the memory. -/
def inMemory (a : Act R μ α) : Act R (Bench R σ μ) α :=
  Act.zoom Bench.memory (fun m t => { t with memory := m }) a

end Bench

/-- A solver whose steps read the state and cannot assign to it. -/
structure Algorithm (R V M σ μ : Type) [Scalar R] where
  name : String
  requires : List Capability
  init : State R V M → Act R (Bench R σ μ) (Option (Delta R V M))
  next : State R V M → Act R (Bench R σ μ) (Delta R V M)
  terminate : State R V M → Act R (Bench R σ μ) Reason

namespace Algorithm

variable {R V M σ μ α : Type} [Scalar R]

/-- A step that reads the state, on a stage. -/
def onStage (step : State R V M → Act R (Bench R σ μ) α) : Act R (Stage R V M σ μ) α :=
  Act.of fun t =>
    let (r, b) := (step t.state).run ⟨t.memory, t.session⟩
    (r, ⟨b.memory, t.state, b.session⟩)

/-- The solver an algorithm makes. -/
def toSolver (a : Algorithm R V M σ μ) : Solver R V M σ μ where
  name := a.name
  requires := a.requires
  init := onStage a.init
  next := onStage fun s => some <$> a.next s
  terminate := onStage a.terminate

end Algorithm

/-- The refusal of a value that is not finite, naming what it is. -/
def checkFinite {R : Type} [Scalar R] (x : R) (what : String) : Except (Fault R) Unit :=
  if Scalar.isFinite x then .ok () else .error (.notFinite what (some (.real x)))

/-- The refusal of a vector with an entry that is not finite, naming what it is. -/
def checkFiniteVector {R V : Type} [Scalar R] [Space R V] (x : V) (what : String) :
    Except (Fault R) Unit :=
  if Space.isFinite x then .ok () else .error (.notFinite what none)

/-- The refusal of a vector that is there and has an entry that is not finite. -/
def checkFiniteOption {R V : Type} [Scalar R] [Space R V] (x : Option V) (what : String) :
    Except (Fault R) Unit :=
  match x with
  | some x => checkFiniteVector x what
  | none => .ok ()

end Descent
