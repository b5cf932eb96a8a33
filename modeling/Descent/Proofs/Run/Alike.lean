import Descent.Proofs.Act.Related
import Descent.Run.Executor

/-!
# Runs of solvers that differ in their memory

Two solvers are alike under a relation of their memories if their steps, made on related memories,
the same state and the same session, do the same and leave related memories.  Then so do their
runs (`Executor.run_alike`): nothing else of an executor depends on what a solver keeps.
-/

namespace Descent

open Act

variable {R V M σ μ ν : Type} [Scalar R] {mem : μ → ν → Prop}

/-- Two stages that differ in their memories only, which are related. -/
structure Stage.Alike (mem : μ → ν → Prop) (t : Stage R V M σ μ) (u : Stage R V M σ ν) :
    Prop where
  memory : mem t.memory u.memory
  state : t.state = u.state
  session : t.session = u.session

/-- Two solvers whose steps do the same on related memories. -/
structure Solver.Alike (mem : μ → ν → Prop) (a : Solver R V M σ μ) (b : Solver R V M σ ν) :
    Prop where
  name : a.name = b.name
  init : Related (Stage.Alike mem) Eq a.init b.init
  next : Related (Stage.Alike mem) Eq a.next b.next
  terminate : Related (Stage.Alike mem) Eq a.terminate b.terminate

namespace Executor

/-- Two executors that differ in the memories of their stages only, which are related. -/
structure Alike (mem : μ → ν → Prop) (e : Executor R V M σ μ) (e' : Executor R V M σ ν) :
    Prop where
  config : e.config = e'.config
  observers : e.observers = e'.observers
  status : e.status = e'.status
  stage : Stage.Alike mem e.stage e'.stage
  notices : e.notices = e'.notices

variable {a : Solver R V M σ μ} {b : Solver R V M σ ν} {α : Type}

/-! ### The parts of a run -/

theorem onStage_alike {x : Act R (Stage R V M σ μ) α} {y : Act R (Stage R V M σ ν) α}
    (h : Related (Stage.Alike mem) Eq x y) :
    Related (Alike mem) Eq (onStage x) (onStage y) := by
  intro e e' he
  obtain ⟨ht, hr⟩ := h e.stage e'.stage he.stage
  exact ⟨⟨he.config, he.observers, he.status, ht, he.notices⟩, hr⟩

theorem changeState_alike (f : State R V M → State R V M) :
    Related (Alike mem) Eq (changeState f : Act R (Executor R V M σ μ) Unit)
      (changeState f : Act R (Executor R V M σ ν) Unit) := by
  refine .modify fun e e' he => ?_
  exact ⟨he.config, he.observers, he.status,
    ⟨he.stage.memory, congrArg f he.stage.state, he.stage.session⟩, he.notices⟩

theorem state_alike :
    Related (Alike mem) Eq (state : Act R (Executor R V M σ μ) (State R V M))
      (state : Act R (Executor R V M σ ν) (State R V M)) :=
  fun _ _ he => ⟨he, .ok he.stage.state⟩

theorem report_alike (event : Event R) :
    Related (Alike mem) Eq (report event : Act R (Executor R V M σ μ) Unit)
      (report event : Act R (Executor R V M σ ν) Unit) := by
  refine onStage_alike fun t u ht => ⟨⟨ht.memory, ht.state, ?_⟩, .ok rfl⟩
  exact congrArg (fun s : Session R σ => { s with journal := event :: s.journal }) ht.session

theorem merge_alike (d : Delta R V M) :
    Related (Alike mem) Eq (merge d : Act R (Executor R V M σ μ) Bool)
      (merge d : Act R (Executor R V M σ ν) Bool) := by
  refine onStage_alike fun t u ht => ?_
  have hd : t.state.merge d = u.state.merge d := by rw [ht.state]
  exact ⟨⟨ht.memory, congrArg Prod.snd hd, ht.session⟩, (congrArg Prod.fst hd) ▸ .refl _⟩

theorem advance_alike :
    Related (Alike mem) Eq (advance : Act R (Executor R V M σ μ) Unit)
      (advance : Act R (Executor R V M σ ν) Unit) := by
  unfold advance
  refine state_alike.bind_eq fun s => (Related.lift _).bind_eq fun s' => ?_
  exact changeState_alike _

theorem notifyOne_alike (snapshot : State R V M) (position : Nat) (entry : ObserverEntry R V M) :
    Related (Alike mem) Eq
      (notifyOne snapshot position entry : Act R (Executor R V M σ μ) Unit)
      (notifyOne snapshot position entry : Act R (Executor R V M σ ν) Unit) := by
  unfold notifyOne
  refine Related.bind_eq (Related.modify fun e e' he => ?_) fun _ => ?_
  · exact ⟨he.config, he.observers, he.status, he.stage, congrArg _ he.notices⟩
  rcases entry.observer.notify snapshot snapshot.curIter with ⟨events, fault⟩
  refine (Related.forIn events (fun event _ _ => ?_) ()).bind_eq fun _ => ?_
  · exact (report_alike event).bind_eq fun _ => .pure rfl
  · cases fault with
    | none => exact .pure rfl
    | some f => exact (Related.throw f).ite (report_alike _)

theorem notify_alike (newBest : Bool) :
    Related (Alike mem) Eq (notify newBest : Act R (Executor R V M σ μ) Unit)
      (notify newBest : Act R (Executor R V M σ ν) Unit) := by
  unfold notify
  refine state_alike.bind_eq fun snapshot => Related.get.bind fun e e' he => ?_
  rw [he.observers]
  refine (Related.lift _).bind_eq fun chosen => ?_
  refine (Related.forIn chosen (fun entry _ _ => ?_) ()).bind_eq fun _ => .pure rfl
  exact (notifyOne_alike snapshot entry.1 entry.2).bind_eq fun _ => .pure rfl

theorem checkInvariants_alike (before : State R V M) :
    Related (Alike mem) Eq (checkInvariants before : Act R (Executor R V M σ μ) Unit)
      (checkInvariants before : Act R (Executor R V M σ ν) Unit) := by
  unfold checkInvariants
  refine Related.get.bind fun e e' he => ?_
  rw [he.stage.session, he.stage.state]
  exact (Related.lift _).ite (.pure rfl)

theorem verdict_alike (h : Solver.Alike mem a b) (d : Delta R V M) :
    Related (Alike mem) Eq (verdict a d) (verdict b d) := by
  unfold verdict
  cases d.termination.filter Reason.isTerminal with
  | some r => exact .pure rfl
  | none =>
    refine (onStage_alike h.terminate).bind_eq fun r => (Related.pure rfl).ite ?_
    refine state_alike.bind_eq fun s => (Related.lift _).bind_eq fun met => ?_
    exact (Related.pure rfl).ite (.pure rfl)

theorem iterate_alike (h : Solver.Alike mem a b) :
    Related (Alike mem) Eq (iterate a) (iterate b) := by
  unfold iterate
  refine (onStage_alike h.next).bind_eq fun o => (Related.lift _).bind_eq fun d => ?_
  refine (merge_alike d).bind_eq fun newBest => advance_alike.bind_eq fun _ => ?_
  refine (verdict_alike h d).bind_eq fun r => (changeState_alike _).bind_eq fun _ => ?_
  exact .pure rfl

theorem conclude_alike (before : State R V M) (newBest : Bool) :
    Related (Alike mem) Eq (conclude before newBest : Act R (Executor R V M σ μ) Unit)
      (conclude before newBest : Act R (Executor R V M σ ν) Unit) := by
  unfold conclude
  refine (checkInvariants_alike before).bind_eq fun _ => state_alike.bind_eq fun s => ?_
  exact (report_alike _).bind_eq fun _ => notify_alike newBest

theorem step_alike (h : Solver.Alike mem a b) : Related (Alike mem) Eq (step a) (step b) := by
  unfold step
  refine state_alike.bind_eq fun before => (iterate_alike h).bind_eq fun newBest => ?_
  exact conclude_alike before newBest

theorem loop_alike (h : Solver.Alike mem a b) (fuel : Nat) :
    Related (Alike mem) Eq (loop a fuel) (loop b fuel) := by
  induction fuel with
  | zero =>
    unfold loop
    refine state_alike.bind_eq fun s => (Related.lift _).bind_eq fun due => ?_
    exact (Related.throw _).ite (.pure rfl)
  | succ fuel ih =>
    unfold loop
    refine state_alike.bind_eq fun s => (Related.lift _).bind_eq fun due => ?_
    exact ((step_alike h).bind_eq fun _ => ih).ite (.pure rfl)

theorem prepare_alike (h : Solver.Alike mem a b) :
    Related (Alike mem) Eq (prepare a) (prepare b) := by
  unfold prepare
  refine (onStage_alike h.init).bind_eq fun o => ?_
  cases o with
  | none => exact .pure rfl
  | some d =>
    refine (merge_alike d).bind_eq fun _ => ?_
    cases d.termination with
    | none => exact .pure rfl
    | some r => exact changeState_alike _

theorem drive_alike (h : Solver.Alike mem a b) : Related (Alike mem) Eq (drive a) (drive b) := by
  unfold drive
  refine (prepare_alike h).bind_eq fun _ => Related.get.bind fun e e' he => ?_
  rw [he.config]
  exact loop_alike h _

theorem close_alike :
    Related (Alike mem) Eq (close : Act R (Executor R V M σ μ) Unit)
      (close : Act R (Executor R V M σ ν) Unit) := by
  refine .modify fun e e' he => ?_
  refine ⟨he.config, he.observers, rfl, ⟨he.stage.memory, ?_, he.stage.session⟩, he.notices⟩
  dsimp only
  rw [he.stage.state, he.stage.session]

theorem start_alike (h : Solver.Alike mem a b) : Related (Alike mem) Eq (start a) (start b) := by
  unfold start
  refine Related.get.bind fun e e' he => ?_
  rw [he.config, h.name]
  refine (changeState_alike _).bind_eq fun _ => ?_
  refine Related.bind_eq (Related.modify fun u u' hu => ?_) fun _ => report_alike _
  exact ⟨hu.config, hu.observers, rfl, hu.stage, hu.notices⟩

theorem abort_alike (h : Solver.Alike mem a b) (f : Fault R) :
    Related (Alike mem) Eq (abort a f) (abort b f) := by
  unfold abort
  rw [h.name]
  refine (changeState_alike _).bind_eq fun _ => close_alike.bind_eq fun _ => ?_
  exact state_alike.bind_eq fun s => report_alike _

theorem finish_alike (h : Solver.Alike mem a b) : Related (Alike mem) Eq (finish a) (finish b) := by
  unfold finish
  rw [h.name]
  refine (changeState_alike _).bind_eq fun _ => close_alike.bind_eq fun _ => ?_
  refine state_alike.bind_eq fun s => (report_alike _).bind_eq fun _ => ?_
  refine Related.get.bind fun e e' he => .pure ?_
  rw [he.stage.session]

theorem settle_alike (h : Solver.Alike mem a b) (driven : Except (Fault R) Unit) :
    Related (Alike mem) Eq (settle a driven) (settle b driven) := by
  cases driven with
  | ok u => exact finish_alike h
  | error f =>
    refine Related.ite ((Related.throw f).bind_eq fun _ => ?_) ?_
    all_goals exact (abort_alike h f).bind_eq fun _ => .throw f

/-! ### A whole run -/

/-- Runs of solvers that do the same on related memories have the same outcome, and leave
executors that differ in their memories only. -/
theorem run_alike (h : Solver.Alike mem a b) : Related (Alike mem) Eq (run a) (run b) := by
  unfold run
  refine Related.get.bind fun e e' he => ?_
  rw [he.status, he.config]
  refine Related.ite ((Related.throw .runTwice).bind_eq fun _ => ?_) ?_
  all_goals
    refine (Related.lift _).bind_eq fun _ => (start_alike h).bind_eq fun _ => ?_
    refine (drive_alike h).attempt.bind fun r r' hr => ?_
    rw [hr.eq]
    exact settle_alike h r'

end Executor

end Descent
