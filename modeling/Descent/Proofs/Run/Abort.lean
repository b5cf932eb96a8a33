import Descent.Machine
import Descent.Proofs.Run.Reached
import Descent.Proofs.Solver.Abstains
import Descent.Proofs.State.Merge

/-!
# Runs that fail

A run that fails after it has started, and is not interrupted, is over: its duration is recorded,
and the fault that leaves it is the one that was raised inside.  It is recorded as aborted unless a
final reason was recorded before the fault (`run_failed`): the handler goes through
`State.terminateWith`, which leaves a final reason alone.

For a solver that does not assign to the state there is one place where that happens.  The verdict
on an iteration is recorded before the invariants are checked and the observers notified, so a
fault of `conclude` after a final verdict leaves that verdict standing.
-/

namespace Descent.Executor

variable {R V M σ μ : Type} [Scalar R] {solver : Solver R V M σ μ}

/-! ### Faults and the reason recorded -/

/-- The reason an executor's state records. -/
def reason (e : Executor R V M σ μ) : Reason := e.stage.state.reason

theorem keeps_reason_onStage {α : Type} {a : Act R (Stage R V M σ μ) α}
    (h : Act.Keeps Stage.state a) : Act.Keeps reason (onStage a) :=
  fun e => congrArg State.reason (h e.stage)

theorem keeps_reason_merge (d : Delta R V M) :
    Act.Keeps reason (merge d : Act R (Executor R V M σ μ) Bool) :=
  fun e => congrArg State.Standing.reason (e.stage.state.merge_standing d)

theorem keeps_reason_advance : Act.Keeps reason (advance : Act R (Executor R V M σ μ) Unit) := by
  intro e
  rw [run_advance]
  cases h : e.stage.state.incrementIter with
  | error f => rfl
  | ok s =>
    obtain ⟨k, -, rfl⟩ := State.incrementIter_eq_ok h
    rfl

/-- An iteration of a solver that does not assign to the state records a reason last. -/
theorem keepsOnFault_reason_iterate (ha : solver.Abstains) :
    Act.KeepsOnFault reason (iterate solver) := by
  unfold iterate
  refine .bind (keeps_reason_onStage ha.next) fun o => .bind (Act.Keeps.lift _) fun d => ?_
  refine .bind (keeps_reason_merge d) fun newBest => .bind keeps_reason_advance fun _ => ?_
  refine .bind (keeps_verdict (keeps_reason_onStage ha.terminate) d) fun r => ?_
  intro e f e' h
  cases h

theorem keepsOnFault_reason_prepare (ha : solver.Abstains) :
    Act.KeepsOnFault reason (prepare solver) := by
  unfold prepare
  refine .bind (keeps_reason_onStage ha.init) fun o => ?_
  cases o with
  | none => exact (Act.Keeps.pure _).onFault
  | some d =>
    refine .bind (keeps_reason_merge d) fun _ => ?_
    intro e f e' h
    cases hd : d.termination <;> rw [hd] at h <;> cases h

/-- Aborting records its reason unless a final one is recorded. -/
theorem reason_abort (f : Fault R) (e : Executor R V M σ μ) :
    (((abort solver f).run e).2).reason = if e.reason.isTerminal then e.reason else .aborted := by
  show (e.stage.state.terminateWith .aborted).reason = _
  unfold State.terminateWith
  split <;> rename_i ht
  · exact (if_pos ht).symm
  · exact (if_neg ht).symm

/-! ### A failed run -/

/-- The run of a solver that does not assign to the state can fail after a final reason was
recorded only where an iteration is concluded. -/
theorem concludes_of_drive_eq_error (ha : solver.Abstains) {e u : Executor R V M σ μ} {f : Fault R}
    (hf : f.isInterrupt = false) (he : e.reason.isTerminal = false)
    (h : (drive solver).run (begun solver e) = (.error f, u)) (hu : u.reason.isTerminal = true) :
    ∃ k e₁ newBest e₂, Reached solver e k e₁ ∧ continues e₁.stage.state = .ok true ∧
      (iterate solver).run e₁ = (.ok newBest, e₂) ∧ e₂.reason = u.reason ∧
      (conclude e₁.stage.state newBest).run e₂ = (.error f, u) := by
  rcases drive_eq_error h with hprepare | ⟨k, e₁, hk, ⟨hdue, rfl⟩ | ⟨hdue, hstep | ⟨-, rfl, -⟩⟩⟩
  · -- a failed preparation leaves the reason the run began with
    have hr : u.reason = (begun solver e).reason :=
      keepsOnFault_reason_prepare ha _ _ _ hprepare
    have hbegun : (begun solver e).reason = e.reason := rfl
    rw [hr, hbegun, he] at hu
    cases hu
  · -- an iteration whose being due could not be decided is one that no final reason prevents
    have hr : u.stage.state.terminated = false :=
      not_terminated_of_continues (by rw [hdue]; exact nofun)
    rw [State.terminated] at hr
    rw [reason, hr] at hu
    cases hu
  · -- only what follows the verdict can fail with a final reason
    rcases step_eq_error.mp hstep with hiterate | ⟨newBest, e₂, hiterate, hconclude⟩
    · have hr : u.reason = e₁.reason := keepsOnFault_reason_iterate ha _ _ _ hiterate
      have hnot : e₁.stage.state.terminated = false :=
        not_terminated_of_continues (by rw [hdue]; exact nofun)
      rw [State.terminated] at hnot
      rw [hr, reason, hnot] at hu
      cases hu
    · refine ⟨k, e₁, newBest, e₂, hk, hdue, hiterate, ?_, hconclude⟩
      exact ((keeps_untold_conclude _ _).comp reason).run_eq hconclude |>.symm
  · cases hf

/-- **A run that fails after it has started** is over, its duration is recorded, and its fault is
the one raised inside.  It is recorded as aborted exactly if no other final reason was recorded
before the fault; with a solver that does not assign to the state, one was only if the fault was
raised where an iteration with a final verdict was concluded. -/
theorem run_failed {e e' : Executor R V M σ μ} {f : Fault R} (hstatus : e.status = .configured)
    (hvalid : e.config.validate = .ok ()) (hf : f.isInterrupt = false)
    (h : (run solver).run e = (.error f, e')) :
    ∃ u, (drive solver).run (begun solver e) = (.error f, u) ∧
      e'.status = .terminated ∧ e'.stage.state.time.isSome ∧
      (e'.reason = .aborted ↔ u.reason.isTerminal = false ∨ u.reason = .aborted) ∧
      (solver.Abstains → e.reason.isTerminal = false → u.reason.isTerminal = true →
        ∃ k e₁ newBest e₂, Reached solver e k e₁ ∧ continues e₁.stage.state = .ok true ∧
          (iterate solver).run e₁ = (.ok newBest, e₂) ∧ e₂.reason = u.reason ∧
          (conclude e₁.stage.state newBest).run e₂ = (.error f, u)) := by
  rw [run_eq hstatus hvalid] at h
  rcases hdrive : (drive solver).run (begun solver e) with ⟨g | _, u⟩
  · rw [hdrive] at h
    dsimp only at h
    -- an interruption is passed on unmarked; any other fault aborts the run
    cases hg : g.isInterrupt with
    | true =>
      rw [hg, if_pos rfl] at h
      cases h
      rw [hf] at hg
      cases hg
    | false =>
      rw [hg, if_neg Bool.false_ne_true] at h
      cases h
      refine ⟨u, rfl, rfl, rfl, ?_, fun ha he hu => ?_⟩
      · rw [reason_abort]
        cases u.reason.isTerminal <;> simp
      · exact concludes_of_drive_eq_error ha hf he hdrive hu
  · rw [hdrive] at h
    cases h

/-- A solver that moves the counter and answers with a final reason. -/
def meddler : Solver Float Float Unit Unit Unit where
  name := "Meddler"
  requires := [.cost]
  init := pure none
  next := do
    modify fun t => t.withState { t.state with curIter := .int 5 }
    return some { param := some 1.0, cost := some (.real 1.0), termination := some .converged }
  terminate := pure .notTerminated

/-- An executor that checks the invariants of its state. -/
def checked : Executor Float Float Unit Unit Unit :=
  new () { world := (), debug := true, elapsed := 0.0 } { param := some 2.0, maxIters := .int 10 }

/-- The run is refused for the counter, and what it leaves says that it converged. -/
theorem run_failed_meddler :
    ((run meddler).run checked).2.reason = .converged ∧
      ∃ u, (drive meddler).run (begun meddler checked) =
          (.error (.iterationSkipped (.int 0) (.int 6)), u) ∧
        ((run meddler).run checked).2.status = .terminated ∧ u.reason.isTerminal = true := by
  have h : (run meddler).run checked =
      (.error (.iterationSkipped (.int 0) (.int 6)), ((run meddler).run checked).2) := rfl
  obtain ⟨u, hu, hstatus, -⟩ := run_failed rfl rfl rfl h
  have hu' : u = ((drive meddler).run (begun meddler checked)).2 := by rw [hu]
  refine ⟨rfl, u, hu, hstatus, ?_⟩
  rw [hu']
  rfl

end Descent.Executor
