import Descent.Run.Observer
import Descent.Solver.Basic

/-!
# Running a solver

An `Executor` pairs a solver with a run configuration and drives it once (`Executor.run`): `init`,
then iterations until a reason is final or the ceiling is reached.  Each iteration merges the
solver's delta, advances the counter, takes the verdict (`Executor.verdict`: the delta's reason if
that is final, else the solver's, else whether the target cost was reached), and notifies the
observers.

A fault that leaves a step ends the run: the state is marked as aborted, the run is over, and the
same fault leaves `run`.  An interrupt passes through at once and leaves the run where it was.

An operator enters through the session only, so an executor of a subproblem shares the charges of
the run that contains it.
-/

namespace Descent

/-- The settings a run consumes when it starts. -/
structure Config (R V : Type) [Scalar R] where
  param : Option V := none
  maxIters : Value R := .int unlimited
  targetCost : Value R := .real Scalar.negInf

namespace Config

variable {R V : Type} [Scalar R]

/-- The refusal of a configuration that no run can start with. -/
def validate (c : Config R V) : Except (Fault R) Unit := do
  if c.param.isNone then throw .paramMissing
  if ← c.maxIters.lt (.int 0) then throw .ceilingNegative
  if ← c.targetCost.isNaN then throw .targetUnknown

end Config

/-- Where an executor stands. -/
inductive Status where
  | configured
  | running
  | terminated
  deriving DecidableEq, Repr, Inhabited

/-- The name of a status. -/
def Status.label : Status → String
  | configured => "configured"
  | running => "running"
  | terminated => "terminated"

/-- A run: its settings, its observers, where it stands, and what was notified. -/
structure Executor (R V M σ μ : Type) [Scalar R] where
  config : Config R V := {}
  observers : List (ObserverEntry R V M) := []
  status : Status := .configured
  stage : Stage R V M σ μ
  /-- The notifications that were made, the latest first. -/
  notices : List (Notice R V M) := []

/-- What a completed run leaves: its last state and the evaluations charged by then. -/
structure Outcome (R V M : Type) [Scalar R] where
  solver : String
  state : State R V M
  counts : Counts

namespace Executor

variable {R V M σ μ : Type} [Scalar R]

/-- The refusal of a solver that asks for nothing, or for what the operator lacks. -/
def check (op : Operator R V M σ) (name : String) (requires : List Capability) :
    Except (Fault R) Unit :=
  if requires.isEmpty then .error (.nothingRequired name)
  else
    match op.missing requires with
    | [] => .ok ()
    | missing => .error (.missingCapabilities (.text name) (missing.map Capability.label))

/-- A new executor for a solver's memory and a session. -/
def new (memory : μ) (session : Session R σ) (config : Config R V) : Executor R V M σ μ :=
  { config := config, stage := ⟨memory, {}, session⟩ }

/-- Replace settings; refused once the run has begun. -/
def configure (change : Config R V → Except (Fault R) (Config R V)) :
    Act R (Executor R V M σ μ) Unit := do
  let e ← get
  if e.status ≠ .configured then throw .configuredLate
  let config ← Act.lift (change e.config)
  set { e with config := config }

/-- Add an observer; its period must not lie below one. -/
def addObserver (entry : ObserverEntry R V M) : Act R (Executor R V M σ μ) Unit := do
  if ← Act.lift (entry.period.lt (.int 1)) then throw .observerPeriod
  modify fun e => { e with observers := e.observers ++ [entry] }

/-- A step of the solver, of the state or of the session. -/
def onStage {α : Type} (a : Act R (Stage R V M σ μ) α) : Act R (Executor R V M σ μ) α :=
  Act.zoom Executor.stage (fun t e => { e with stage := t }) a

/-- Change the state. -/
def changeState (f : State R V M → State R V M) : Act R (Executor R V M σ μ) Unit :=
  modify fun e => { e with stage := { e.stage with state := f e.stage.state } }

/-- The state. -/
def state : Act R (Executor R V M σ μ) (State R V M) := do return (← get).stage.state

/-- Report an event. -/
def report (event : Event R) : Act R (Executor R V M σ μ) Unit :=
  onStage (Stage.inSession (Session.report event))

/-- Merge a delta into the state; whether its cost is a new best. -/
def merge (d : Delta R V M) : Act R (Executor R V M σ μ) Bool :=
  onStage (Stage.inState (Act.of fun s => s.merge d))

/-- Advance the iteration counter. -/
def advance : Act R (Executor R V M σ μ) Unit := do
  let s ← Act.lift (← state).incrementIter
  changeState fun _ => s

/-- The delta of a step, refused if the solver has none. -/
def given (d : Option (Delta R V M)) : Except (Fault R) (Delta R V M) :=
  match d with
  | some d => .ok d
  | none => .error (.missingAttribute (.lacks "NoneType" "param"))

/-- The positions and the entries of the observers that want to hear of an iteration. -/
def wanted (iteration : Value R) (newBest : Bool) :
    List (Nat × ObserverEntry R V M) → Except (Fault R) (List (Nat × ObserverEntry R V M))
  | [] => .ok []
  | (i, entry) :: rest => do
    let first ← entry.mode.wants entry.period iteration newBest
    let others ← wanted iteration newBest rest
    return if first then (i, entry) :: others else others

/-- Notify one observer.  Its fault is reported and goes no further, unless it interrupts. -/
def notifyOne (snapshot : State R V M) (position : Nat) (entry : ObserverEntry R V M) :
    Act R (Executor R V M σ μ) Unit := do
  modify fun e => { e with notices := ⟨position, snapshot.curIter, snapshot⟩ :: e.notices }
  let (events, fault) := entry.observer.notify snapshot snapshot.curIter
  for event in events do
    report event
  match fault with
  | none => return
  | some f =>
    if f.isInterrupt then throw f
    else report (.observerFailed entry.observer.label snapshot.curIter f)

/-- Notify the observers of the iteration that just completed. -/
def notify (newBest : Bool) : Act R (Executor R V M σ μ) Unit := do
  let snapshot ← state
  let entries := (← get).observers
  let chosen ← Act.lift (wanted snapshot.curIter newBest
    ((List.range entries.length).zip entries))
  for (position, entry) in chosen do
    notifyOne snapshot position entry

/-- The verdict on an iteration whose delta was merged. -/
def verdict (solver : Solver R V M σ μ) (d : Delta R V M) : Act R (Executor R V M σ μ) Reason :=
  match d.termination.filter Reason.isTerminal with
  | some reason => return reason
  | none => do
    let reason ← onStage solver.terminate
    if reason.isTerminal then return reason
    if ← Act.lift (← state).targetReached then return .targetCostReached
    return reason

/-- The refusal of a state that violates an invariant, if they are checked. -/
def checkInvariants (before : State R V M) : Act R (Executor R V M σ μ) Unit := do
  let e ← get
  if e.stage.session.debug then
    Act.lift (e.stage.state.check before.curIter before.bestCost)

/-- An iteration up to its verdict, which is recorded; whether its cost is a new best. -/
def iterate (solver : Solver R V M σ μ) : Act R (Executor R V M σ μ) Bool := do
  let d ← Act.lift (given (← onStage solver.next))
  let newBest ← merge d
  advance
  let reason ← verdict solver d
  changeState (·.terminateWith reason)
  return newBest

/-- The end of an iteration that began in the state `before`: the invariants are checked, and the
iteration is reported and made known to the observers. -/
def conclude (before : State R V M) (newBest : Bool) : Act R (Executor R V M σ μ) Unit := do
  checkInvariants before
  let s ← state
  report (.iterated s.curIter s.cost s.bestCost s.reason)
  notify newBest

/-- One iteration. -/
def step (solver : Solver R V M σ μ) : Act R (Executor R V M σ μ) Unit := do
  let before ← state
  let newBest ← iterate solver
  conclude before newBest

/-- Whether another iteration is due. -/
def continues (s : State R V M) : Except (Fault R) Bool :=
  if s.terminated then .ok false else s.curIter.lt s.maxIters

/-- Iterations for as long as they are due, and for no more than `fuel` of them. -/
def loop (solver : Solver R V M σ μ) : Nat → Act R (Executor R V M σ μ) Unit
  | 0 => do
    if ← Act.lift (continues (← state)) then throw .exhausted
  | fuel + 1 => do
    if ← Act.lift (continues (← state)) then
      step solver
      loop solver fuel

/-- More iterations than a run that advances its counter can make. -/
def fuel (ceiling : Value R) : Nat :=
  match ceiling.number? with
  | some n => Nat.pow 2 64 + (if n.isFinite then n.truncate.toNat + 1 else 0)
  | none => 0

/-- The preparation of a run: what the solver answers is merged before the first iteration. -/
def prepare (solver : Solver R V M σ μ) : Act R (Executor R V M σ μ) Unit := do
  match ← onStage solver.init with
  | none => return
  | some d =>
    let _ ← merge d
    match d.termination with
    | none => return
    | some reason => changeState (·.terminateWith reason)

/-- The part of a run that may fail: preparation and iterations. -/
def drive (solver : Solver R V M σ μ) : Act R (Executor R V M σ μ) Unit := do
  prepare solver
  loop solver (fuel (← get).config.maxIters)

/-- The run is over; its duration is recorded. -/
def close : Act R (Executor R V M σ μ) Unit :=
  modify fun e =>
    { e with
      status := .terminated
      stage := { e.stage with
        state := { e.stage.state with time := some (.real e.stage.session.elapsed) } } }

/-- The settings become the state's, and the run begins. -/
def start (solver : Solver R V M σ μ) : Act R (Executor R V M σ μ) Unit := do
  let config := (← get).config
  changeState fun s =>
    { s with
      param := config.param
      maxIters := config.maxIters
      targetCost := config.targetCost }
  modify fun e => { e with status := .running }
  report (.started solver.name config.maxIters)

/-- The end of a run that failed: it is recorded as aborted. -/
def abort (solver : Solver R V M σ μ) (fault : Fault R) : Act R (Executor R V M σ μ) Unit := do
  changeState (·.terminateWith .aborted)
  close
  report (.aborted solver.name (← state).curIter fault)

/-- The end of a run that completed; one that nothing else ended was ended by the ceiling. -/
def finish (solver : Solver R V M σ μ) : Act R (Executor R V M σ μ) (Outcome R V M) := do
  changeState (·.terminateWith .maxItersReached)
  close
  let s ← state
  report (.finished solver.name s.curIter s.reason s.bestCost)
  return ⟨solver.name, s, (← get).stage.session.counts⟩

/-- The end of a run that was driven: a fault aborts it and is passed on, an interrupt is passed
on at once. -/
def settle (solver : Solver R V M σ μ) (driven : Except (Fault R) Unit) :
    Act R (Executor R V M σ μ) (Outcome R V M) := do
  match driven with
  | .ok () => finish solver
  | .error f =>
    if f.isInterrupt then throw f
    abort solver f
    throw f

/-- Run the solver until it terminates.  Refused, without a trace, if the run was started before
or its settings are not valid. -/
def run (solver : Solver R V M σ μ) : Act R (Executor R V M σ μ) (Outcome R V M) := do
  let e ← get
  if e.status ≠ .configured then throw .runTwice
  Act.lift e.config.validate
  start solver
  settle solver (← Act.attempt (drive solver))

end Executor

end Descent
