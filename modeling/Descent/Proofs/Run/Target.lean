import Descent.Machine
import Descent.Proofs.Run.Abort
import Descent.Proofs.Run.Consulted

/-!
# The target cost

The best cost is compared with the target in the verdict on an iteration, and nowhere else.  So an
iteration leaves the target unmet unless it is the last one of its run (`not_met_of_step`), whatever
the solver is.  What the preparation merges is not looked at: the first iteration is asked for even
if the target is met before it, and a run that makes none ends at its ceiling
(`target_of_run`).
-/

namespace Descent

open Act

variable {R V M σ μ : Type} [Scalar R]

@[simp]
theorem State.targetReached_terminateWith (s : State R V M) (reason : Reason) :
    (s.terminateWith reason).targetReached = s.targetReached := by
  unfold terminateWith
  split <;> rfl

/-- A state that is not stopped was not, and no final reason was recorded. -/
theorem State.terminated_terminateWith {s : State R V M} {reason : Reason} :
    (s.terminateWith reason).terminated = false ↔
      s.terminated = false ∧ reason.isTerminal = false := by
  unfold terminateWith
  cases h : s.terminated with
  | true => simp [h]
  | false => simp [terminated]

namespace Executor

variable {solver : Solver R V M σ μ} {e e' u : Executor R V M σ μ}

/-- An iteration whose verdict is not final leaves the target unmet. -/
theorem not_met_of_iterate {newBest : Bool} (h : (iterate solver).run e = (.ok newBest, u))
    (hnot : u.stage.state.terminated = false) : u.stage.state.targetReached = .ok false := by
  obtain ⟨d, t, s, s', reason, w, -, -, -, hverdict, rfl⟩ := iterate_eq_ok.mp h
  obtain ⟨-, hreason⟩ := State.terminated_terminateWith.mp hnot
  rw [stage_withState, Stage.state_withState, State.targetReached_terminateWith]
  rcases verdict_eq_ok.mp hverdict with
    ⟨hd, -⟩ | ⟨-, r, t', -, rfl, ⟨hr, rfl⟩ | ⟨-, met, hmet, rfl⟩⟩
  · -- a reason that the delta gives is final
    have hfinal : reason.isTerminal = true := (Option.filter_eq_some_iff.mp hd).2
    rw [hfinal] at hreason
    cases hreason
  · rw [hr] at hreason
    cases hreason
  · cases met with
    | true => cases hreason
    | false => exact hmet

/-- An iteration that is not the last one leaves the target unmet. -/
theorem not_met_of_step (h : (step solver).run e = (.ok (), e'))
    (hnot : e'.stage.state.terminated = false) : e'.stage.state.targetReached = .ok false := by
  obtain ⟨newBest, u, hiterate, hconclude⟩ := step_eq_ok.mp h
  rw [state_of_conclude hconclude] at hnot ⊢
  exact not_met_of_iterate hiterate hnot

/-- Where a run has come to after an iteration, and nothing ended it, its target is unmet. -/
theorem not_met_of_reached {k : Nat} (h : Reached solver e (k + 1) u)
    (hnot : u.stage.state.terminated = false) : u.stage.state.targetReached = .ok false := by
  obtain ⟨v, -, -, hstep⟩ := h.before
  exact not_met_of_step hstep hnot

theorem bestCost_closed (e : Executor R V M σ μ) (reason : Reason) :
    (closed e reason).stage.state.bestCost = e.stage.state.bestCost := by
  show (e.stage.state.terminateWith reason).bestCost = _
  unfold State.terminateWith
  split <;> rfl

/-- The reason given at the end is recorded unless the run was ended before. -/
theorem reason_closed (e : Executor R V M σ μ) (reason : Reason) :
    (closed e reason).stage.state.reason =
      if e.stage.state.terminated then e.stage.state.reason else reason := by
  show (e.stage.state.terminateWith reason).reason = _
  unfold State.terminateWith
  split <;> rfl

/-- **The target is looked at after an iteration.**  However a run of a solver ends, it asks for no
iteration but the first one on a state that has met its target.  The first one it asks for whenever
that is due after the preparation, be the target met or not.

A run that completes with its target met was ended by a final reason that its solver or its verdict
gave, or it made no iteration: the ceiling did not allow for the first one. -/
theorem target_of_run (solver : Solver R V M σ μ) (memory : μ) (session : Session R σ)
    (config : Config R V) (observers : List (ObserverEntry R V M))
    {r : Except (Fault R) (Outcome R V M)}
    {e' : Executor R V M σ (μ × List (Consultation R V M))}
    (h : (run solver.recorded).run (ready (memory, []) session config observers) = (r, e')) :
    (∀ call ∈ e'.asked.tail, call.1.targetReached = .ok false) ∧
      (∀ call, e'.asked.head? = some call ↔ config.validate = .ok () ∧
        ∃ u, Reached solver.recorded (ready (memory, []) session config observers) 0 u ∧
          continues u.stage.state = .ok true ∧ call = (u.stage.state, answer solver u)) ∧
      ∀ outcome, r = .ok outcome → outcome.state.targetReached = .ok true →
        ∃ k u, Reached solver.recorded (ready (memory, []) session config observers) k u ∧
          outcome.state.bestCost = u.stage.state.bestCost ∧
          (u.stage.state.terminated = true ∧ outcome.state.reason = u.stage.state.reason ∨
            k = 0 ∧ e'.asked = [] ∧ u.stage.state.terminated = false ∧
              u.stage.state.curIter.lt u.stage.state.maxIters = .ok false ∧
              outcome.state.reason = .maxItersReached) := by
  obtain ⟨hturn, hvalid, hfirst⟩ := asked_of_run h
  refine ⟨fun call hcall => ?_, fun call => ⟨fun hhead => ?_, ?_⟩, ?_⟩
  · -- a call that is not the first one was made after an iteration
    obtain ⟨k, hk⟩ := List.mem_iff_getElem?.mp hcall
    rw [List.getElem?_tail] at hk
    obtain ⟨u, hu, hdue, rfl⟩ := hturn (k + 1) call hk
    exact not_met_of_reached hu (not_terminated_of_continues (by rw [hdue]; exact nofun))
  · have hsome : e'.asked ≠ [] := by
      intro hnil
      rw [hnil] at hhead
      cases hhead
    rw [List.head?_eq_getElem?] at hhead
    exact ⟨hvalid hsome, hturn 0 call hhead⟩
  · rintro ⟨hok, u, hu, hdue, rfl⟩
    obtain ⟨call, rest, hasked⟩ := List.exists_cons_of_ne_nil (hfirst hok u hu hdue)
    -- there is only one place where the preparation leads
    obtain ⟨v, hv, -, rfl⟩ := hturn 0 call (by rw [hasked]; rfl)
    rw [hasked, hu.unique hv]
    rfl
  · rintro outcome rfl hmet
    obtain ⟨k, u, hu, hend, rfl, huntold⟩ := ended_of_run h
    have hmet : u.stage.state.targetReached = .ok true := by
      rw [← State.targetReached_terminateWith _ .maxItersReached]
      exact hmet
    refine ⟨k, u, hu, bestCost_closed u _, ?_⟩
    cases hnot : u.stage.state.terminated with
    | true => exact .inl ⟨rfl, by rw [reason_closed, if_pos hnot]⟩
    | false =>
      right
      cases k with
      | zero =>
        have hclosed : (closed u .maxItersReached).asked = u.asked := rfl
        have hasked : e'.asked = u.asked := (asked_eq_of_untold huntold).trans hclosed
        have hnone : u.asked = [] := List.length_eq_zero_iff.mp (asked_of_reached rfl hu).1
        have hceiling : u.stage.state.curIter.lt u.stage.state.maxIters = .ok false := by
          unfold continues at hend
          rw [hnot] at hend
          exact hend
        have hreason : (closed u .maxItersReached).stage.state.reason = .maxItersReached := by
          rw [reason_closed, hnot, if_neg Bool.false_ne_true]
        exact ⟨rfl, hasked.trans hnone, rfl, hceiling, hreason⟩
      | succ k =>
        rw [not_met_of_reached hu hnot] at hmet
        cases hmet

/-- A solver that knows a cost of one from the start. -/
def eager : Solver Float Float Unit Unit Unit where
  name := "Eager"
  requires := [.cost]
  init := return some { cost := some (.real 1.0) }
  next := return some { cost := some (.real 1.0) }
  terminate := pure .notTerminated

/-- The settings of a run that is over at a cost of two. -/
def untilTwo (ceiling : Int) : Config Float Float :=
  { param := some 0.0, maxIters := .int ceiling, targetCost := .real 2.0 }

/-- A target that is met at the start does not keep the first iteration from being asked for; and a
run that may make none ends at its ceiling. -/
theorem target_of_run_eager :
    (∃ r e' call, (run eager.recorded).run
        (ready ((), []) ⟨{}, (), [], false, 0.0⟩ (untilTwo 10) []) = (r, e') ∧
      e'.asked = [call] ∧ call.1.targetReached = .ok true ∧
      ∃ u, Reached eager.recorded (ready ((), []) ⟨{}, (), [], false, 0.0⟩ (untilTwo 10) []) 0 u ∧
        call.1 = u.stage.state) ∧
    ∃ outcome e', (run eager.recorded).run
        (ready ((), []) ⟨{}, (), [], false, 0.0⟩ (untilTwo 0) []) = (.ok outcome, e') ∧
      outcome.state.targetReached = .ok true ∧ outcome.state.reason = .maxItersReached := by
  -- the initial merge meets the target, and still an iteration is asked for if one is allowed
  constructor
  · have hasked : ((run eager.recorded).run
        (ready ((), []) ⟨{}, (), [], false, 0.0⟩ (untilTwo 10) [])).2.asked.map
          (fun call => call.1.targetReached.toOption) = [some true] := by decide +kernel
    rcases hrun : (run eager.recorded).run
      (ready ((), []) ⟨{}, (), [], false, 0.0⟩ (untilTwo 10) []) with ⟨r, e'⟩
    rw [hrun] at hasked
    obtain ⟨call, hcall, hmet⟩ := List.map_eq_singleton_iff.mp hasked
    obtain ⟨-, hfirst, -⟩ := target_of_run eager () ⟨{}, (), [], false, 0.0⟩ (untilTwo 10) [] hrun
    obtain ⟨-, u, hu, -, hsame⟩ := (hfirst call).mp (by rw [hcall]; rfl)
    exact ⟨r, e', call, rfl, hcall, toOption_eq_some.mp hmet, u, hu, congrArg Prod.fst hsame⟩
  · have hended : ((run eager.recorded).run
        (ready ((), []) ⟨{}, (), [], false, 0.0⟩ (untilTwo 0) [])).1.toOption.map
          (fun o => (o.state.targetReached.toOption, o.state.reason)) =
        some (some true, .maxItersReached) := by decide +kernel
    rcases hrun : (run eager.recorded).run
      (ready ((), []) ⟨{}, (), [], false, 0.0⟩ (untilTwo 0) []) with ⟨r, e'⟩
    rw [hrun] at hended
    obtain ⟨outcome, hok, hstate⟩ := Option.map_eq_some_iff.mp hended
    obtain rfl : r = .ok outcome := toOption_eq_some.mp hok
    exact ⟨outcome, e', rfl, toOption_eq_some.mp (congrArg Prod.fst hstate),
      congrArg Prod.snd hstate⟩

end Executor

end Descent
