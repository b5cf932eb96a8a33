import Descent.Method.Basic
import Descent.Proofs.Act.Keeps
import Descent.Proofs.Run.Reached

/-!
# What holds of a solver's memory

`Solver.Maintains I` says that a solver establishes `I` of its memory when it prepares a run,
whatever the memory was, and holds it up in every other step, also in one that fails.  Then `I`
holds of the memory wherever a run that began ends (`Executor.maintained_of_run`).
-/

namespace Descent

open Act (Leaves Keeps)

variable {R V M σ μ ν : Type} [Scalar R] {I : μ → Prop}

/-- The solver's memory has `I` from its first step on, whatever becomes of each. -/
structure Solver.Maintains (I : μ → Prop) (solver : Solver R V M σ μ) : Prop where
  init : Leaves (fun _ => True) solver.init fun t => I t.memory
  next : Leaves (fun t => I t.memory) solver.next fun t => I t.memory
  terminate : Leaves (fun t => I t.memory) solver.terminate fun t => I t.memory

/-- An algorithm whose steps hold something of its memory up maintains it as a solver. -/
theorem Algorithm.maintains {a : Algorithm R V M σ μ}
    (hinit : ∀ s, Leaves (fun _ => True) (a.init s) fun b => I b.memory)
    (hnext : ∀ s, Leaves (fun b => I b.memory) (a.next s) fun b => I b.memory)
    (hterminate : ∀ s, Leaves (fun b => I b.memory) (a.terminate s) fun b => I b.memory) :
    a.toSolver.Maintains I where
  init := fun t ht => hinit t.state ⟨t.memory, t.session⟩ ht
  next := fun t ht => (hnext t.state).map ⟨t.memory, t.session⟩ ht
  terminate := fun t ht => hterminate t.state ⟨t.memory, t.session⟩ ht

/-- A solver that keeps its memory in a part of another's maintains there what it did. -/
theorem Solver.Maintains.widen [Space R V] [LinearAction R V M] {solver : Solver R V M σ μ}
    {get : ν → μ} {put : μ → ν} (h : solver.Maintains I) (hput : ∀ m, get (put m) = m) :
    (Method.widen get put solver).Maintains fun m => I (get m) where
  init := by
    show Leaves _ (Stage.within get (fun m _ => put m) solver.init) _
    exact h.init.zoom (fun _ hu => hu) fun t _ ht => (hput t.memory).symm ▸ ht
  next := by
    show Leaves _ (Stage.within get (fun m _ => put m) solver.next) _
    exact h.next.zoom (fun _ hu => hu) fun t _ ht => (hput t.memory).symm ▸ ht
  terminate := by
    show Leaves _ (Stage.within get (fun m _ => put m) solver.terminate) _
    exact h.terminate.zoom (fun _ hu => hu) fun t _ ht => (hput t.memory).symm ▸ ht

namespace Executor

variable {solver : Solver R V M σ μ}

/-- The solver's memory. -/
def memory (e : Executor R V M σ μ) : μ := e.stage.memory

theorem keeps_memory_conclude (before : State R V M) (newBest : Bool) :
    Keeps memory (conclude before newBest : Act R (Executor R V M σ μ) Unit) :=
  (keeps_untold_conclude before newBest).comp fun e => e.stage.memory

theorem keeps_memory_advance : Keeps memory (advance : Act R (Executor R V M σ μ) Unit) := by
  intro e
  rw [run_advance]
  cases e.stage.state.incrementIter <;> rfl

/-- What holds of the memory holds after a step that does not touch it. -/
theorem leaves_of_keeps {α : Type} {a : Act R (Executor R V M σ μ) α} (h : Keeps memory a) :
    Leaves (fun e => I e.memory) a fun e => I e.memory :=
  h.leaves I

theorem leaves_onStage {α : Type} {J : μ → Prop} {a : Act R (Stage R V M σ μ) α}
    (h : Leaves (fun t => J t.memory) a fun t => I t.memory) :
    Leaves (fun e => J e.memory) (onStage a) fun e => I e.memory :=
  fun e he => h e.stage he

section

variable (h : solver.Maintains I)

include h

theorem leaves_prepare : Leaves (fun _ => True) (prepare solver) fun e => I e.memory := by
  unfold prepare
  refine Leaves.bind (fun e _ => h.init e.stage trivial) fun o => ?_
  cases o with
  | none => exact .pure _
  | some d =>
    refine (leaves_of_keeps fun _ => rfl).bind fun _ => ?_
    cases d.termination with
    | none => exact .pure _
    | some reason => exact leaves_of_keeps fun _ => rfl

theorem leaves_verdict (d : Delta R V M) :
    Leaves (fun e => I e.memory) (verdict solver d) fun e => I e.memory := by
  unfold verdict
  cases d.termination.filter Reason.isTerminal with
  | some reason => exact .pure _
  | none =>
    refine (leaves_onStage h.terminate).bind fun reason => (Leaves.pure _).ite ?_
    refine (leaves_of_keeps fun _ => rfl).bind fun s => (Leaves.lift _).bind fun met => ?_
    exact (Leaves.pure _).ite (.pure _)

theorem leaves_step : Leaves (fun e => I e.memory) (step solver) fun e => I e.memory := by
  unfold step iterate
  -- the memory is touched where the solver is asked, for a delta and for the verdict
  refine (leaves_of_keeps fun _ => rfl).bind fun before => Leaves.bind ?_ fun newBest =>
    leaves_of_keeps (keeps_memory_conclude before newBest)
  refine (leaves_onStage h.next).bind fun o => (Leaves.lift _).bind fun d => ?_
  refine (leaves_of_keeps fun _ => rfl).bind fun _ => ?_
  refine (leaves_of_keeps keeps_memory_advance).bind fun _ => ?_
  refine (leaves_verdict h d).bind fun reason => ?_
  exact (leaves_of_keeps fun _ => rfl).bind fun _ => .pure _

theorem leaves_loop (fuel : Nat) :
    Leaves (fun e => I e.memory) (loop solver fuel) fun e => I e.memory := by
  induction fuel with
  | zero =>
    unfold loop
    refine (leaves_of_keeps fun _ => rfl).bind fun s => (Leaves.lift _).bind fun due => ?_
    exact (Leaves.throw _).ite (.pure _)
  | succ fuel ih =>
    unfold loop
    refine (leaves_of_keeps fun _ => rfl).bind fun s => (Leaves.lift _).bind fun due => ?_
    exact ((leaves_step h).bind fun _ => ih).ite (.pure _)

theorem leaves_drive : Leaves (fun _ => True) (drive solver) fun e => I e.memory := by
  unfold drive
  refine (leaves_prepare h).bind fun _ => Leaves.get_bind fun e _ => leaves_loop h _

/-- Wherever a run that began ends, be it with an outcome or with a fault, the memory has what the
solver maintains. -/
theorem maintained_of_run {e : Executor R V M σ μ} (hstatus : e.status = .configured)
    (hvalid : e.config.validate = .ok ()) : I ((run solver).run e).2.memory := by
  have hdrive := leaves_drive h (begun solver e) trivial
  rw [run_eq hstatus hvalid]
  rcases hrun : (drive solver).run (begun solver e) with ⟨f | _, u⟩ <;> rw [hrun] at hdrive
  · dsimp only
    split
    · exact hdrive
    · exact hdrive
  · exact hdrive

end

end Executor

end Descent
