import Descent.Proofs.Run.Abort
import Descent.Proofs.Run.Consulted
import Descent.Proofs.Run.Faithful
import Descent.Proofs.Run.Observed
import Descent.Proofs.Solver.Stops

/-!
# Runs that converge

A run that has not converged stands where the gradient that its state holds does not count as zero:
the preparation ends in such a state or as converged (`converged_of_prepare`), and so does an
iteration that begins in such a state (`converged_of_step`).  An iteration begins nowhere else, so
wherever a run converges the gradient was told there and is the operator's at that point.  Newton's
method may converge on a step that left the cost where it was, too.
-/

namespace Descent

open Act

variable {R V M σ μ : Type} [Scalar R] [Space R V]

/-- The cost is within a bound of the one before. -/
def State.SettledFrom (bound : R) (s before : State R V M) : Prop :=
  ∃ c c', before.cost = .real c ∧ s.cost = .real c' ∧ Scalar.magnitude (c' - c) ≤ bound

omit [Space R V] in
/-- What a merged cost settles is settled from the cost that was known before. -/
theorem State.settledFrom_of_merge {l : Landscape R V M} {bound : R} {before s : State R V M}
    {d : Delta R V M} {b : Bool} (hbefore : before.Faithful l) (hd : d.Tells l before)
    (h : before.merge d = (.ok b, s)) (hsettled : s.Settled bound) :
    s.SettledFrom bound before := by
  obtain ⟨c, -, hc⟩ := hbefore.cost
  have hcosts : ∃ c', s.cost = .real c' ∧ s.prevCost = before.cost := by
    obtain ⟨c', -, rfl | rfl⟩ := merge_of_tells hd h
    · exact ⟨c', rfl, rfl⟩
    · exact ⟨c', rfl, rfl⟩
  obtain ⟨c', hc', hprev⟩ := hcosts
  obtain ⟨v, n, hsub, hnumber, hle⟩ := hsettled
  rw [hc', hprev, hc] at hsub
  cases hsub
  cases hnumber
  exact ⟨c, c', hc, hc', of_decide_eq_true hle⟩

/-- Where a gradient counts as zero that did not before, it was told. -/
theorem Landscape.stationary_of_merge {l : Landscape R V M} {tol : R} {before s : State R V M}
    {d : Delta R V M} {b : Bool} (hd : d.Tells l before ∨ d.Still)
    (h : before.merge d = (.ok b, s)) (hbefore : ¬ before.Stationary tol)
    (hs : s.Stationary tol) : l.Stationary tol s.point := by
  obtain ⟨g, hg, hzero⟩ := hs
  rcases hd with htells | hstill
  · have hpoint : s.point = d.target before := by
      have hparam := before.merge_param d
      rw [h] at hparam
      exact congrArg Space.require hparam
    have hgrad : s.grad = d.grad.or before.grad := by
      obtain ⟨c, -, rfl | rfl⟩ := State.merge_of_tells htells h
      · rfl
      · rfl
    cases hd : d.grad with
    | none =>
      -- nothing was told in place of a gradient, so the state's is the one before
      rw [hd] at hgrad
      exact absurd ⟨g, hgrad.symm.trans hg, hzero⟩ hbefore
    | some g' =>
      have hsame : g' = g := by
        rw [hgrad, hd] at hg
        exact Option.some.inj hg
      refine ⟨g, ?_, hzero⟩
      rw [hpoint, htells.grad, hd, hsame]
  · obtain rfl := State.merge_still hstill h
    exact absurd ⟨g, hg, hzero⟩ hbefore

namespace Executor

variable {solver : Solver R V M σ μ} {l : Landscape R V M} {bounds : Bounds R}
  {e e' : Executor R V M σ μ}

/-! ### Preparation -/

/-- A preparation ends as converged where the gradient counts as zero, and else goes on where the
gradient does not. -/
theorem converged_of_prepare (hsolver : solver.Stops l bounds)
    (hgoing : e.stage.state.reason = .notTerminated) (h : (prepare solver).run e = (.ok (), e')) :
    e'.stage.state.reason = .converged ∧ l.Stationary bounds.grad e'.stage.state.point ∨
      e'.stage.state.reason = .notTerminated ∧ ¬ e'.stage.state.Stationary bounds.grad := by
  obtain ⟨o, t, hinit, hmatch⟩ := prepare_eq_ok.mp h
  obtain ⟨⟨d, rfl, hbegins⟩, hstate⟩ := hsolver.init e.stage.state e.stage o t rfl hinit
  obtain ⟨b, s, hmerge, rfl⟩ := hmatch
  rw [hstate] at hmerge
  obtain ⟨g, hg, hends⟩ := hbegins.ends
  -- merging leaves the reason alone, and the delta brings the gradient
  have hreason : s.reason = .notTerminated :=
    (congrArg State.Standing.reason (State.standing_of_merge hmerge)).trans hgoing
  have hgrad : s.grad = some g := by
    obtain ⟨c, -, rfl | rfl⟩ := State.merge_of_tells hbegins.tells hmerge
    · exact congrArg (·.or e.stage.state.grad) hg
    · exact congrArg (·.or e.stage.state.grad) hg
  rcases hends with ⟨hzero, htermination⟩ | ⟨hnot, htermination⟩
  · left
    rw [htermination]
    have hended : s.terminateWith .converged = { s with reason := .converged } :=
      State.terminateWith_of_reason hreason _
    have hpoint : s.point = d.target e.stage.state := by
      have hparam := e.stage.state.merge_param d
      rw [hmerge] at hparam
      exact congrArg Space.require hparam
    have hstationary : l.Stationary bounds.grad s.point := by
      refine ⟨g, ?_, hzero⟩
      rw [hpoint, hbegins.tells.grad, hg]
    dsimp only [stage_withStage, Stage.state_withState]
    rw [hended]
    exact ⟨rfl, hstationary⟩
  · right
    rw [htermination]
    refine ⟨hreason, ?_⟩
    rintro ⟨g', hg', hzero⟩
    have hsame : s.grad = some g' := hg'
    rw [hgrad, Option.some.injEq] at hsame
    exact hnot (hsame ▸ hzero)

/-! ### One iteration -/

/-- What becomes of an iteration that begins where the gradient does not count as zero: a delta that
does not end the run is merged, the counter is advanced and the solver's answer on whether to stop
is recorded, unless the target is met. -/
theorem judged_of_step (hsolver : solver.Stops l bounds)
    (hgoing : e.stage.state.reason = .notTerminated)
    (hnot : ¬ e.stage.state.Stationary bounds.grad) (h : (step solver).run e = (.ok (), e')) :
    ∃ d b s k r reason, d.Proceeds l bounds e.stage.state ∧
      e.stage.state.merge d = (.ok b, s) ∧ bounds.BearsOut { s with curIter := k } r ∧
      (reason = r ∨ r = .notTerminated ∧ reason = .targetCostReached) ∧
      e'.stage.state = { s with curIter := k, reason := reason } := by
  obtain ⟨newBest, u, hiterate, hconclude⟩ := step_eq_ok.mp h
  obtain ⟨d, t, s, s', reason, v, hnext, hmerge, hadvance, hverdict, rfl⟩ :=
    iterate_eq_ok.mp hiterate
  obtain ⟨⟨d', hd', hproceeds⟩, hstate⟩ :=
    hsolver.next e.stage.state hnot e.stage (some d) t rfl hnext
  cases hd'
  rw [hstate] at hmerge
  obtain ⟨k, -, rfl⟩ := State.incrementIter_eq_ok hadvance
  -- the delta has no reason of its own, so the solver is asked whether to stop
  obtain ⟨r, t', hterminate, rfl, hr⟩ : ∃ r t', solver.terminate.run
      (t.withState { s with curIter := k }) = (.ok r, t') ∧
      v = (e.withStage (t.withState { s with curIter := k })).withStage t' ∧
      (r.isTerminal = true ∧ reason = r ∨ r.isTerminal = false ∧ ∃ met,
        t'.state.targetReached = .ok met ∧ reason = if met then .targetCostReached else r) := by
    rcases verdict_eq_ok.mp hverdict with ⟨hforced, -⟩ | ⟨-, hasked⟩
    · rw [hproceeds.goes] at hforced
      cases hforced
    · exact hasked
  obtain ⟨hanswer, hstate'⟩ := hsolver.terminate { s with curIter := k } _ r t' rfl hterminate
  have hreason : s.reason = .notTerminated :=
    (congrArg State.Standing.reason (State.standing_of_merge hmerge)).trans hgoing
  have hended : e'.stage.state = { s with curIter := k, reason := reason } := by
    have htold : e'.stage.state = t'.state.terminateWith reason := state_of_conclude hconclude
    rw [htold, hstate']
    exact State.terminateWith_of_reason (s := { s with curIter := k }) hreason reason
  refine ⟨d, newBest, s, k, r, reason, hproceeds, hmerge, hanswer, ?_, hended⟩
  rcases hr with ⟨-, hr⟩ | ⟨hr, met, -, hmet⟩
  · exact .inl hr
  · cases met with
    | true => exact .inr ⟨Reason.eq_notTerminated hr, hmet⟩
    | false => exact .inl hmet

/-- An iteration that begins where the gradient does not count as zero ends as converged where it
does, or where the cost has settled; and else it ends where the gradient does not. -/
theorem converged_of_step (hsolver : solver.Stops l bounds) (hfaithful : e.stage.state.Faithful l)
    (hgoing : e.stage.state.reason = .notTerminated)
    (hnot : ¬ e.stage.state.Stationary bounds.grad) (h : (step solver).run e = (.ok (), e')) :
    e'.stage.state.reason = .converged ∧ (l.Stationary bounds.grad e'.stage.state.point ∨
        ∃ bound, bounds.change = some bound ∧
          e'.stage.state.SettledFrom bound e.stage.state) ∨
      e'.stage.state.reason ≠ .converged ∧ ¬ e'.stage.state.Stationary bounds.grad := by
  obtain ⟨d, b, s, k, r, reason, hproceeds, hmerge, hanswer, hreason, hended⟩ :=
    judged_of_step hsolver hgoing hnot h
  -- the solver answers converged, or the gradient it goes on with is not short
  rw [hended]
  rcases hanswer with ⟨rfl, hdone⟩ | ⟨rfl, hnot'⟩
  · left
    refine ⟨hreason.resolve_right fun hr => ?_, ?_⟩
    · cases hr.1
    rcases hdone with hzero | ⟨bound, hbound, hsettled⟩
    · have hmerged : l.Stationary bounds.grad s.point :=
        Landscape.stationary_of_merge (hproceeds.tells.imp_right And.right) hmerge hnot hzero
      exact .inl hmerged
    · -- a method that looks at the change of cost tells a cost in every iteration
      have htells : d.Tells l e.stage.state := by
        refine hproceeds.tells.resolve_right fun hstill => ?_
        rw [hbound] at hstill
        cases hstill.1
      have hfrom : s.SettledFrom bound e.stage.state :=
        State.settledFrom_of_merge hfaithful htells hmerge hsettled
      exact .inr ⟨bound, hbound, hfrom⟩
  · right
    refine ⟨?_, hnot'⟩
    rcases hreason with rfl | ⟨-, rfl⟩
    · nofun
    · nofun

/-! ### A whole run -/

variable {memory : μ} {session : Session R σ} {config : Config R V}
  {observers : List (ObserverEntry R V M)} {k : Nat}

/-- Wherever a run has been it had not converged, and the gradient did not count as zero; or it had,
and the gradient counts as zero there or the last iteration has settled the cost. -/
theorem converged_of_reached (hstops : solver.Stops l bounds) (hfaithful : solver.Faithful l)
    (h : Reached solver (ready memory session config observers) k e') :
    e'.stage.state.reason = .converged ∧ (l.Stationary bounds.grad e'.stage.state.point ∨
        ∃ bound j e, bounds.change = some bound ∧ k = j + 1 ∧
          Reached solver (ready memory session config observers) j e ∧
          e'.stage.state.SettledFrom bound e.stage.state) ∨
      e'.stage.state.reason ≠ .converged ∧ ¬ e'.stage.state.Stationary bounds.grad := by
  induction k generalizing e' with
  | zero =>
    rcases converged_of_prepare hstops rfl (reached_zero.mp h) with ⟨hr, hzero⟩ | ⟨hr, hnot⟩
    · exact .inl ⟨hr, .inl hzero⟩
    · exact .inr ⟨by rw [hr]; nofun, hnot⟩
  | succ k ih =>
    obtain ⟨v, hv, hdue, hstep⟩ := h.before
    -- an iteration was due, so the run had not converged before it
    have hgoing := reason_of_due hdue
    have hnot : ¬ v.stage.state.Stationary bounds.grad := by
      rcases ih hv with ⟨hr, -⟩ | ⟨-, hnot⟩
      · rw [hgoing] at hr
        cases hr
      · exact hnot
    refine (converged_of_step hstops (faithful_of_reached hfaithful hv) hgoing hnot hstep).imp_left
      fun hconverged => ⟨hconverged.1, hconverged.2.imp_right ?_⟩
    rintro ⟨bound, hbound, hsettled⟩
    exact ⟨bound, k, v, hbound, rfl, hv, hsettled⟩

/-- Where an iteration is due the gradient does not count as zero. -/
theorem not_stationary_of_due (hstops : solver.Stops l bounds) (hfaithful : solver.Faithful l)
    (h : Reached solver (ready memory session config observers) k e')
    (hdue : continues e'.stage.state = .ok true) : ¬ e'.stage.state.Stationary bounds.grad := by
  rcases converged_of_reached hstops hfaithful h with ⟨hr, -⟩ | ⟨-, hnot⟩
  · rw [reason_of_due hdue] at hr
    cases hr
  · exact hnot

/-- A run that is recorded asks its solver for an iteration only where the gradient does not count
as zero, and the delta it is answered with does not end it. -/
theorem not_stationary_of_asked (hstops : solver.Stops l bounds) (hfaithful : solver.Faithful l)
    {u : Executor R V M σ (μ × List (Consultation R V M))}
    {r : Except (Fault R) (Outcome R V M)}
    (h : (run solver.recorded).run (ready (memory, []) session config observers) = (r, u))
    {s : State R V M} {answer : Except (Fault R) (Option (Delta R V M))}
    (hcall : (s, answer) ∈ u.asked) :
    ¬ s.Stationary bounds.grad ∧ s.Faithful l ∧
      ∀ d, answer = .ok (some d) → d.termination = none := by
  obtain ⟨k, v, hv, hdue, heq⟩ := asks_of_run h _ hcall
  cases heq
  have halike : Alike (fun (p : μ × List (Consultation R V M)) m => p.1 = m)
      (ready (memory, []) session config observers) (ready memory session config observers) :=
    ⟨rfl, rfl, rfl, ⟨rfl, rfl, rfl⟩, rfl⟩
  -- the run of the solver itself has been in the same state
  obtain ⟨w, hw, hlike⟩ := reached_alike solver.recorded_alike halike hv
  have hstate : v.stage.state = w.stage.state := hlike.stage.state
  have hnot : ¬ w.stage.state.Stationary bounds.grad :=
    not_stationary_of_due hstops hfaithful hw (hstate ▸ hdue)
  refine ⟨hstate ▸ hnot, hstate ▸ faithful_of_reached hfaithful hw, fun d hd => ?_⟩
  obtain ⟨⟨d', hd', hproceeds⟩, -⟩ := hstops.next v.stage.state (hstate ▸ hnot)
    ⟨v.stage.memory.1, v.stage.state, v.stage.session⟩ (some d) _ rfl (Prod.ext hd rfl)
  cases hd'
  exact hproceeds.goes

end Executor

/-! ### The minimisers -/

namespace Method

variable {V W : Type} [Space Float V] [LinearAction Float V W] {op : Operator Float V W σ}
  {l : Landscape Float V W} {m : Method Float V W} {bounds : Bounds Float}
  {solver : Solver Float V W σ (Memory Float V W)}

omit [Space Float V] [LinearAction Float V W] in
theorem Minimises.descends (hm : m.Minimises) : m.Descends := by
  cases hm with
  | steepestDescent _ tolGrad => exact .steepestDescent _ tolGrad
  | newtonCG _ settings => exact .newtonCG _ settings
  | trustRegion sub settings => exact .trustRegion sub settings

theorem Minimises.stops (hm : m.Minimises) (hop : op.Follows l) (hbounds : m.bounds = some bounds)
    (hsolver : m.solver op = some solver) : solver.Stops l bounds := by
  cases hm with
  | steepestDescent hline tolGrad =>
    cases hsolver
    cases hbounds
    exact SteepestDescent.stops hop (hline.faithful hop) tolGrad
  | newtonCG hline settings =>
    cases hsolver
    cases hbounds
    exact NewtonCG.stops hop (hline.faithful hop) settings
  | trustRegion sub settings =>
    cases hsolver
    cases hbounds
    exact (TrustRegion.stops hop).widen

end Method

namespace Executor

variable {V W : Type} [Space Float V] [LinearAction Float V W]

/-- **Converged means what it says.**  Where the run of a minimiser on a deterministic operator ends
as converged, the operator's gradient at the last point has at most the length of the tolerance, or
of the least tolerance there is; or the method has a bound on changes of the cost, an iteration was
made, and the cost after the last one is within that bound of the cost before it.

And no run, however it ends, asks for an iteration on a state whose gradient is that short, nor at a
point where the operator's is: so the trust-region method never finds a gradient to count as zero
when it is asked for an iteration, and no delta that an iteration is answered with ends the run. -/
theorem run_converged (op : Operator Float V W σ) (l : Landscape Float V W) (hop : op.Follows l)
    (m : Method Float V W) (hm : m.Minimises) (bounds : Bounds Float)
    (hbounds : m.bounds = some bounds) (solver : Solver Float V W σ (Memory Float V W))
    (hsolver : m.solver op = some solver) (memory : Memory Float V W) (session : Session Float σ)
    (config : Config Float V) (observers : List (ObserverEntry Float V W)) :
    (∀ outcome e', (run solver).run (ready memory session config observers) = (.ok outcome, e') →
      outcome.state.reason = .converged →
        (∃ x g, outcome.state.param = some x ∧ l.gradient x = .ok (some g) ∧
          Space.norm g ≤ Scalar.greatest bounds.grad absoluteTolerance) ∨
        ∃ bound before, ∃ k : Nat, bounds.change = some bound ∧
          outcome.state.curIter = .int ((k : Int) + 1) ∧
          Visits solver (ready memory session config observers) k before ∧
          ∃ c c', before.cost = .real c ∧ outcome.state.cost = .real c' ∧
            Scalar.magnitude (c' - c) ≤ bound) ∧
      ∀ r e', (run solver.recorded).run (ready (memory, []) session config observers) = (r, e') →
        ∀ s answer, Consultation.next s answer ∈ e'.stage.memory.2 →
          (∀ g, s.grad = some g →
            ¬ Space.norm g ≤ Scalar.greatest bounds.grad absoluteTolerance) ∧
          (∀ x g, s.param = some x → l.gradient x = .ok (some g) →
            ¬ Space.norm g ≤ Scalar.greatest bounds.grad absoluteTolerance) ∧
          (∀ sub settings, m = .trustRegion sub settings →
            TrustRegion.stationary settings s.grad ≠ .ok true) ∧
          ∀ d, answer = .ok (some d) → d.termination = none := by
  have hstops : solver.Stops l bounds := hm.stops hop hbounds hsolver
  have hfaithful : solver.Faithful l := hm.faithful hop hsolver
  refine ⟨fun outcome e' hrun hreason => ?_, fun r e' hrun s answer hcall => ?_⟩
  · obtain ⟨k, u, hu, hstate⟩ := run_eq_ok hrun
    have hclosed : outcome.state = { u.stage.state.terminateWith .maxItersReached with
        time := some (.real u.stage.session.elapsed) } := hstate
    -- the ceiling is recorded only where no other reason was, so the run had converged
    have hconverged : u.stage.state.reason = .converged := by
      rw [hclosed] at hreason
      by_contra hnot
      unfold State.terminateWith at hreason
      split at hreason
      · exact hnot hreason
      · cases hreason
    have hkept : outcome.state =
        { u.stage.state with time := some (.real u.stage.session.elapsed) } := by
      have hstopped : u.stage.state.terminated = true := by
        unfold State.terminated
        rw [hconverged]
        rfl
      rw [hclosed, State.terminateWith, if_pos hstopped]
    rw [hkept]
    -- the invariant holds where the run ended, and closing it changed only the time
    rcases converged_of_reached hstops hfaithful hu with ⟨-, hzero | hsettled⟩ | ⟨hnot, -⟩
    · -- a point with a short gradient
      left
      obtain ⟨g, hg, hle⟩ := hzero
      obtain ⟨x, hx, hg⟩ := bind_eq_ok.mp hg
      exact ⟨x, g, TrustRegion.require_eq_ok.mp hx, hg, hle⟩
    · -- or a cost that hardly changed: the iteration before is the one it changed from
      right
      obtain ⟨bound, j, e, hbound, rfl, he, hsettled⟩ := hsettled
      refine ⟨bound, e.stage.state, j, hbound, ?_, ⟨e, he, rfl⟩, hsettled⟩
      exact (standsAt_of_reached (hm.descends.abstains hsolver) hu).counter
    · exact absurd hconverged hnot
  · -- each recorded call was put to the solver where an iteration was due
    have hmem : (s, answer) ∈ e'.asked :=
      List.mem_filterMap.mpr ⟨.next s answer, hcall, rfl⟩
    obtain ⟨hnot, hshown, hanswer⟩ := not_stationary_of_asked hstops hfaithful hrun hmem
    refine ⟨fun g hg hle => hnot ⟨g, hg, hle⟩, fun x g hx hg hle => ?_, ?_, hanswer⟩
    · -- the state holds the gradient of its point
      obtain ⟨o, ho, hgrad⟩ := hshown.grad
      have hpoint : s.point = .ok x := TrustRegion.require_eq_ok.mpr hx
      rw [hpoint] at ho
      have hsame : o = some g := Except.ok.inj (ho.symm.trans hg)
      exact hnot ⟨g, hgrad g hsame, hle⟩
    · -- what the trust region itself calls stationary is the same
      rintro sub settings rfl htrue
      cases hbounds
      exact hnot (State.stationary_iff.mpr htrue)

/-- The trust-region run down the bowl converges, after two iterations, neither of which was asked
for where the gradient is short. -/
theorem run_converged_bowl :
    (∃ outcome e', (run cauchySolver).run overBowl = (.ok outcome, e') ∧
      outcome.state.reason = .converged ∧
      ∃ x g, outcome.state.param = some x ∧ bowlLandscape.gradient x = .ok (some g) ∧
        Space.norm g ≤ Scalar.greatest relativeTolerance absoluteTolerance) ∧
    ∃ r e', (run cauchySolver.recorded).run
        (ready (.plain, []) ⟨{}, (), [], false, 0.0⟩
          { param := some (.vector .numpy [2.0]) } []) = (r, e') ∧
      e'.asked.length = 2 ∧ ∀ s answer, Consultation.next s answer ∈ e'.stage.memory.2 →
        ∀ g, s.grad = some g →
          ¬ Space.norm g ≤ Scalar.greatest relativeTolerance absoluteTolerance := by
  have hsolver : (Method.trustRegion .cauchy cauchyTrust).solver bowl = some cauchySolver := rfl
  obtain ⟨hends, hasks⟩ := run_converged bowl bowlLandscape follows_bowl
    (.trustRegion .cauchy cauchyTrust) (.trustRegion _ _) ⟨relativeTolerance, none⟩ rfl cauchySolver
    hsolver .plain ⟨{}, (), [], false, 0.0⟩ { param := some (.vector .numpy [2.0]) } []
  constructor
  · have hreason : ((run cauchySolver).run overBowl).1.toOption.map (fun o => o.state.reason) =
        some .converged := by decide +kernel
    rcases hrun : (run cauchySolver).run overBowl with ⟨r, e'⟩
    rw [hrun] at hreason
    obtain ⟨outcome, hok, hconverged⟩ := Option.map_eq_some_iff.mp hreason
    obtain rfl : r = .ok outcome := toOption_eq_some.mp hok
    refine ⟨outcome, e', rfl, hconverged, ?_⟩
    -- a trust region has no bound on the change of cost
    rcases hends outcome e' hrun hconverged with hzero | ⟨bound, _, _, hbound, -⟩
    · exact hzero
    · cases hbound
  · have hlength : ((run cauchySolver.recorded).run (ready (.plain, []) ⟨{}, (), [], false, 0.0⟩
        { param := some (.vector .numpy [2.0]) } [])).2.asked.length = 2 := by decide +kernel
    rcases hrun : (run cauchySolver.recorded).run (ready (.plain, []) ⟨{}, (), [], false, 0.0⟩
      { param := some (.vector .numpy [2.0]) } []) with ⟨r, e'⟩
    rw [hrun] at hlength
    refine ⟨r, e', rfl, hlength, fun s answer hcall => ?_⟩
    exact (hasks r e' hrun s answer hcall).1

end Executor

end Descent
