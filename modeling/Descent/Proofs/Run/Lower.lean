import Descent.Proofs.Run.Cut
import Descent.Proofs.Run.Observed
import Descent.Proofs.State.Sound

/-!
# Iterations that lower the cost

Where a solver answers with a delta of a lower cost, an iteration is made and its state is known
(`Executor.iterate_of_lower`, from `Executor.iterate_of_merge` for a delta of any cost): the delta
is merged as a new best, and the counter is advanced.  Such
a state passes the check of the invariants (`State.check_lowered`), so the iteration is completed
beside observers that do not interrupt (`Executor.step_of_lower`).  A run all of whose iterations
are completed has an outcome if its ceiling is an integer (`Executor.run_of_steps`).
-/

namespace Descent

open Act

variable {R V M σ μ : Type} [Scalar R]

/-- The target of a valid configuration is a number. -/
theorem Config.exists_target {c : Config R V} (h : c.validate = .ok ()) :
    ∃ target, c.targetCost.number? = some target := by
  cases htarget : c.targetCost.number? with
  | some target => exact ⟨target, rfl⟩
  | none =>
    have hrefused : c.targetCost.isNaN =
        .error (.wrongType (.notReal c.targetCost.typeName)) := by
      unfold Value.isNaN Value.measured
      rw [htarget]
      rfl
    unfold validate at h
    rw [hrefused] at h
    cases hparam : c.param.isNone <;> rw [hparam] at h
    · rcases hmax : c.maxIters.lt (.int 0) with g | _ | _ <;> rw [hmax] at h <;> cases h
    · cases h

namespace State

/-- The state after an iteration that lowered the cost, before the verdict on it. -/
def lowered (s : State R V M) (d : Delta R V M) (c : R) (i : Int) : State R V M :=
  { { s.facing d with cost := .real c }.improve with curIter := .int (i + 1) }

variable {s : State R V M} {d : Delta R V M} {b c : R} {i ceiling : Int}

/-- A lower cost than the best one is merged as the best one, with its point. -/
theorem merge_of_lower (hbest : s.bestCost = .real b) (hcost : d.cost = some (.real c))
    (hlt : c < b) :
    s.merge d = (.ok true, { s.facing d with cost := .real c }.improve) :=
  (merge_of_ok hcost rfl).trans (mergeCost_of_lt hbest hlt)

/-- The state after an iteration that lowered the cost passes the check. -/
theorem check_lowered [OrderedScalar R] (hbest : s.bestCost = .real b) (hlt : c < b)
    (hcounter : s.curIter = .int i) (hi : 0 ≤ i) (hceiling : s.maxIters = .int ceiling)
    (hbelow : i < ceiling) (hparam : d.param.isSome = true) (r : Reason) :
    State.check { s.lowered d c i with reason := r } s.curIter s.bestCost = .ok () := by
  have hsound : State.Sound { s.lowered d c i with reason := r } c := by
    have hplaced : (d.param.or s.param).isSome := by
      rw [Option.isSome_or, hparam, Bool.true_or]
    exact ⟨hplaced, rfl, ⟨c, rfl, OrderedScalar.lt_irrefl c⟩, fun _ => hplaced⟩
  rw [hcounter, hbest]
  refine hsound.check hi rfl (congrArg Value.number? hceiling) (Int.add_one_le_of_lt hbelow) ?_
  exact fun h => OrderedScalar.not_le_of_lt hlt (OrderedScalar.le_of_lt h)

end State

namespace Executor

variable {solver : Solver R V M σ μ} {e : Executor R V M σ μ} {t : Stage R V M σ μ}
  {d : Delta R V M} {b c : R} {i : Int} {r : Reason} {met : Bool}

/-- A preparation is made whose delta has a cost below the best one there is, and its state is
known. -/
theorem prepare_of_lower (hgoing : e.stage.state.reason = .notTerminated)
    (hbest : e.stage.state.bestCost = .real b)
    (hinit : solver.init.run e.stage = (.ok (some d), t)) (hkept : t.state = e.stage.state)
    (hcost : d.cost = some (.real c)) (hlt : c < b) :
    (prepare solver).run e = (.ok (), e.withStage (t.withState
      { { e.stage.state.facing d with cost := .real c }.improve with
        reason := d.termination.getD .notTerminated })) := by
  set s := { e.stage.state.facing d with cost := .real c }.improve with hs
  have hmerge : t.state.merge d = (.ok true, s) := by
    rw [hkept]
    exact State.merge_of_lower hbest hcost hlt
  have hstill : s.reason = .notTerminated := hgoing
  refine prepare_eq_ok.mpr ⟨some d, t, hinit, true, s, hmerge, ?_⟩
  refine congrArg (e.withStage <| t.withState ·) ?_
  cases d.termination with
  | none =>
    rw [Option.getD_none, ← hstill]
  | some reason => exact (State.terminateWith_of_reason hstill reason).symm

/-- An iteration is made whose delta is merged and has no reason of its own, and its state is known.
It goes on only if the solver says so, and a final answer of the solver's is what is recorded. -/
theorem iterate_of_merge {newBest : Bool} {s : State R V M}
    (hgoing : s.reason = .notTerminated) (hcounter : s.curIter = .int i)
    (hnext : solver.next.run e.stage = (.ok (some d), t))
    (hmerge : t.state.merge d = (.ok newBest, s)) (hgoes : d.termination = none)
    (hterminate : solver.terminate.run (t.withState { s with curIter := .int (i + 1) }) =
      (.ok r, t.withState { s with curIter := .int (i + 1) }))
    (htarget : s.targetReached = .ok met) :
    ∃ reason, (iterate solver).run e = (.ok newBest,
        e.withStage (t.withState { s with curIter := .int (i + 1), reason := reason })) ∧
      (reason = .notTerminated → r = .notTerminated) ∧ (r.isTerminal = true → reason = r) := by
  set s' := { s with curIter := .int (i + 1) } with hs'
  have hmet : State.targetReached s' = .ok met := htarget
  -- the delta has no reason of its own, so the solver is asked, and then the target
  have hverdict : ∃ reason, (verdict solver d).run (e.withStage (t.withState s')) =
      (.ok reason, e.withStage (t.withState s')) ∧
      (reason = .notTerminated → r = .notTerminated) ∧ (r.isTerminal = true → reason = r) := by
    have hforced : d.termination.filter Reason.isTerminal = none := by
      rw [hgoes]
      rfl
    cases hr : r.isTerminal with
    | true =>
      exact ⟨r, verdict_eq_ok.mpr (.inr ⟨hforced, r, _, hterminate, rfl, .inl ⟨hr, rfl⟩⟩), id,
        fun _ => rfl⟩
    | false =>
      refine ⟨if met then .targetCostReached else r, verdict_eq_ok.mpr
        (.inr ⟨hforced, r, _, hterminate, rfl, .inr ⟨hr, met, hmet, rfl⟩⟩), fun _ => ?_, nofun⟩
      exact Reason.eq_notTerminated hr
  obtain ⟨reason, hverdict, hreason⟩ := hverdict
  refine ⟨reason, iterate_eq_ok.mpr ⟨d, t, s, s', reason, _, hnext, hmerge,
    State.incrementIter_of_int hcounter, hverdict, ?_⟩, hreason⟩
  have hstill : s'.reason = .notTerminated := hgoing
  have hended : s'.terminateWith reason = { s' with reason := reason } :=
    State.terminateWith_of_reason hstill reason
  exact congrArg (fun s => e.withStage (t.withState s)) hended.symm

/-- An iteration is made whose delta has a lower cost and no reason of its own, and its state is
known. -/
theorem iterate_of_lower (hgoing : e.stage.state.reason = .notTerminated)
    (hcounter : e.stage.state.curIter = .int i) (hbest : e.stage.state.bestCost = .real b)
    (hnext : solver.next.run e.stage = (.ok (some d), t)) (hkept : t.state = e.stage.state)
    (hcost : d.cost = some (.real c)) (hlt : c < b) (hgoes : d.termination = none)
    (hterminate : solver.terminate.run (t.withState (e.stage.state.lowered d c i)) =
      (.ok r, t.withState (e.stage.state.lowered d c i)))
    (htarget : (Value.real c).le e.stage.state.targetCost = .ok met) :
    ∃ reason, (iterate solver).run e = (.ok true,
        e.withStage (t.withState { e.stage.state.lowered d c i with reason := reason })) ∧
      (reason = .notTerminated → r = .notTerminated) ∧ (r.isTerminal = true → reason = r) := by
  set s := { e.stage.state.facing d with cost := .real c }.improve with hs
  have hmerge : t.state.merge d = (.ok true, s) := by
    rw [hkept]
    exact State.merge_of_lower hbest hcost hlt
  have hstill : s.reason = .notTerminated := hgoing
  have hcounter' : s.curIter = .int i := hcounter
  have hdone := iterate_of_merge hstill hcounter' hnext hmerge hgoes hterminate htarget
  exact hdone

/-- Such an iteration is completed below an integer ceiling, beside observers that do not
interrupt. -/
theorem step_of_lower [OrderedScalar R] {reason : Reason} {ceiling : Int}
    (hiterate : (iterate solver).run e = (.ok true,
      e.withStage (t.withState { e.stage.state.lowered d c i with reason := reason })))
    (hcounter : e.stage.state.curIter = .int i) (hi : 0 ≤ i)
    (hbest : e.stage.state.bestCost = .real b) (hlt : c < b) (hparam : d.param.isSome = true)
    (hceiling : e.stage.state.maxIters = .int ceiling) (hbelow : i < ceiling)
    (hquiet : ∀ entry ∈ e.observers, Quiet entry) :
    ∃ v, (step solver).run e = (.ok (), v) := by
  obtain ⟨v, hdone, -⟩ := step_of_iterate hiterate (i := i + 1) rfl hquiet fun _ =>
    State.check_lowered hbest hlt hcounter hi hceiling hbelow hparam reason
  exact ⟨v, hdone⟩

/-- What is told at the end of an iteration is all that completing it changes. -/
theorem untold_of_step {newBest : Bool} {v w : Executor R V M σ μ}
    (hiterate : (iterate solver).run e = (.ok newBest, v))
    (hstep : (step solver).run e = (.ok (), w)) : w.untold = v.untold := by
  obtain ⟨newBest', v', hiterate', hconclude⟩ := step_eq_ok.mp hstep
  rw [hiterate] at hiterate'
  cases hiterate'
  exact (keeps_untold_conclude _ _).run_eq hconclude

/-! ### Whole runs -/

section

variable {memory : μ} {session : Session R σ} {config : Config R V}
  {observers : List (ObserverEntry R V M)} {ceiling : Int} {u₀ : Executor R V M σ μ}

/-- Wherever a run with a valid configuration has been, whether a cost meets the target is decided.
-/
theorem decides_target (ha : solver.Abstains) (hvalid : config.validate = .ok ()) {k : Nat}
    {u : Executor R V M σ μ} (h : Reached solver (ready memory session config observers) k u)
    (c : R) : ∃ met, (Value.real c).le u.stage.state.targetCost = .ok met := by
  have hkept : u.stage.state.targetCost = config.targetCost :=
    state_keeps_of_reached ha
      (fun s d => congrArg State.Standing.targetCost (s.merge_standing d)) (fun _ _ => rfl)
      (fun _ _ => rfl) h
  obtain ⟨target, htarget⟩ := Config.exists_target hvalid
  rw [hkept]
  exact ⟨_, Value.le_of_number? rfl htarget⟩

/-- Where nothing else ended a run, the number of its iterations and the ceiling say whether another
one is due. -/
theorem continues_of_reached (ha : solver.Abstains)
    (hceiling : config.maxIters.number? = some (.int ceiling))
    {k : Nat} {u : Executor R V M σ μ}
    (h : Reached solver (ready memory session config observers) k u)
    (hnot : u.stage.state.terminated = false) :
    continues u.stage.state = .ok (decide ((k : Int) < ceiling)) := by
  have hmax : u.stage.state.maxIters = config.maxIters := maxIters_of_reached ha h
  exact continues_of_counted hnot (standsAt_of_reached ha h).counter
    ((congrArg Value.number? hmax).trans hceiling)

/-- Within any number of iterations a run whose iterations are all completed has stopped, or it has
made them. -/
theorem reached_of_steps
    (hprepare : Reached solver (ready memory session config observers) 0 u₀)
    (hdecides : ∀ k u, Reached solver (ready memory session config observers) k u →
      ∃ due, continues u.stage.state = .ok due)
    (hsteps : ∀ k u, Reached solver (ready memory session config observers) k u →
      continues u.stage.state = .ok true → ∃ v, (step solver).run u = (.ok (), v)) (j : Nat) :
    ∃ k ≤ j, ∃ u, Reached solver (ready memory session config observers) k u ∧
      (continues u.stage.state = .ok false ∨ k = j) := by
  induction j with
  | zero => exact ⟨0, le_rfl, u₀, hprepare, .inr rfl⟩
  | succ j ih =>
    obtain ⟨k, hk, u, hu, hend | rfl⟩ := ih
    · exact ⟨k, Nat.le_succ_of_le hk, u, hu, .inl hend⟩
    · obtain ⟨due, hdue⟩ := hdecides k u hu
      cases due with
      | false => exact ⟨k, Nat.le_succ k, u, hu, .inl hdue⟩
      | true =>
        obtain ⟨v, hv⟩ := hsteps k u hu hdue
        exact ⟨k + 1, le_rfl, v, hu.more hdue hv, .inr rfl⟩

/-- A run with an integer ceiling has an outcome if its preparation and its iterations are
completed. -/
theorem run_of_steps (ha : solver.Abstains) (hvalid : config.validate = .ok ())
    (hceiling : config.maxIters.number? = some (.int ceiling))
    (hprepare : Reached solver (ready memory session config observers) 0 u₀)
    (hsteps : ∀ k u, Reached solver (ready memory session config observers) k u →
      continues u.stage.state = .ok true → ∃ v, (step solver).run u = (.ok (), v)) :
    ∃ outcome e', (run solver).run (ready memory session config observers) =
      (.ok outcome, e') := by
  have hdecides : ∀ k u, Reached solver (ready memory session config observers) k u →
      ∃ due, continues u.stage.state = .ok due := by
    intro k u hu
    cases hnot : u.stage.state.terminated with
    | true => exact ⟨false, if_pos hnot⟩
    | false => exact ⟨_, continues_of_reached ha hceiling hu hnot⟩
  obtain ⟨k, hk, u, hu, hlast⟩ := reached_of_steps hprepare hdecides hsteps ceiling.toNat
  -- a run that made as many iterations as its ceiling allows is not due another one
  have hend : continues u.stage.state = .ok false := by
    rcases hlast with hend | rfl
    · exact hend
    · cases hnot : u.stage.state.terminated with
      | true => exact if_pos hnot
      | false =>
        rw [continues_of_reached ha hceiling hu hnot]
        exact congrArg Except.ok (decide_eq_false (Int.self_le_toNat ceiling).not_gt)
  have hfuel : k ≤ fuel config.maxIters := by
    have hlt : ceiling < fuel config.maxIters := lt_fuel hceiling
    omega
  obtain ⟨e', hrun⟩ := run_of_drive_eq_ok rfl hvalid (drive_of_reached hu hfuel hend)
  exact ⟨_, e', hrun⟩

end

end Executor

end Descent
