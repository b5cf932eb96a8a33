import Descent.Proofs.Run.Lower
import Descent.Proofs.Run.Trusting
import Descent.Proofs.Run.Unchecked
import Descent.Proofs.Scalar.Reduction
import Descent.Proofs.Solver.Breaks

/-!
# Runs whose arithmetic breaks

Beside a reliable operator a run of the trust-region method with the Cauchy point that goes on
stands at a point where the operator answers (`TrustRegion.proceeds_of_reached`).  From there an
iteration fails if its arithmetic breaks (`TrustRegion.step_of_breaks`) and is completed otherwise
(`TrustRegion.step_of_sound`).  So a run fails with a fault exactly if it comes to an iteration
whose arithmetic breaks with it (`TrustRegion.drive_eq_error_iff`).  In the arithmetic of the
machine there are such runs (`TrustRegion.run_error_iff`).
-/

namespace Descent

open Act

variable {R V M σ : Type} [Scalar R] {P : V → Prop} {Q : M → Prop} {s s' : State R V M}
  {d : Delta R V M}

/-! ### Deltas that stay within -/

/-- What such a delta brings is merged. -/
theorem Delta.Within.exists_merge {b : R} (hd : d.Within P Q) (hbest : s.bestCost = .real b) :
    ∃ newBest s', s.merge d = (.ok newBest, s') := by
  cases hcost : d.cost with
  | none => exact ⟨_, _, State.merge_of_none hcost⟩
  | some v =>
    obtain ⟨c, rfl⟩ := hd.cost v hcost
    rw [State.merge_of_ok hcost rfl]
    by_cases hlt : c < b
    · exact ⟨_, _, State.mergeCost_of_lt hbest hlt⟩
    · exact ⟨_, _, State.mergeCost_of_not_lt hbest hlt⟩

/-- It leads to a state within from one that is, or if it brings all that such a state has. -/
theorem Delta.Within.merge {newBest : Bool} (hd : d.Within P Q)
    (hmerge : s.merge d = (.ok newBest, s')) (hpoint : ∃ x, s.param = some x ∧ P x)
    (hslope : d.grad.isSome = true ∨ ∃ g, s.grad = some g ∧ P g)
    (hcurvature : d.hessian.isSome = true ∨ ∃ h, s.hessian = some h ∧ Q h) :
    s'.Within P Q := by
  have hs : (s.merge d).2 = s' := congrArg Prod.snd hmerge
  refine ⟨?_, ?_, ?_⟩
  · rw [← hs, State.merge_param]
    cases hx : d.param with
    | none => exact hpoint
    | some x => exact ⟨x, rfl, hd.point x hx⟩
  · rw [← hs, State.merge_grad]
    cases hg : d.grad with
    | none => exact hslope.resolve_left (by rw [hg]; exact nofun)
    | some g => exact ⟨g, rfl, hd.slope g hg⟩
  · rw [← hs, State.merge_hessian]
    cases hh : d.hessian with
    | none => exact hcurvature.resolve_left (by rw [hh]; exact nofun)
    | some h => exact ⟨h, rfl, hd.curvature h hh⟩

/-- The counter and the reason do not bear on it. -/
theorem State.Within.of_merged (h : s.Within P Q) (k : Value R) (r : Reason) :
    State.Within P Q { s with curIter := k, reason := r } :=
  ⟨h.point, h.slope, h.curvature⟩

/-! ### Runs that fail -/

namespace Executor

variable {μ : Type} {solver : Solver R V M σ μ} {e : Executor R V M σ μ} {f : Fault R}

/-- A run that was not started before and whose settings are valid fails exactly if its drive does,
and with the same fault. -/
theorem run_eq_error_iff (hstatus : e.status = .configured)
    (hvalid : e.config.validate = .ok ()) :
    (∃ e', (run solver).run e = (.error f, e')) ↔
      ∃ u, (drive solver).run (begun solver e) = (.error f, u) := by
  rw [run_eq hstatus hvalid]
  rcases (drive solver).run (begun solver e) with ⟨f' | _, u⟩
  · dsimp only
    constructor
    · rintro ⟨e', hrun⟩
      split at hrun <;> cases hrun <;> exact ⟨u, rfl⟩
    · rintro ⟨_, hdrive⟩
      cases hdrive
      split <;> exact ⟨_, rfl⟩
  · constructor <;> rintro ⟨_, hnot⟩ <;> cases hnot

end Executor

namespace TrustRegion

open Executor (Quiet Reached begun continues ready reached_zero)

/-! ### The steps of the solver -/

section

variable [Space R V] [LinearAction R V M] {op : Operator R V M σ} {sub : Method R V M}
  {settings : Settings R} {solver : Solver R V M σ (Descent.Memory R V M)}

/-- Away from a stationary point the next step is an iteration. -/
theorem run_next_of_moving {μ : Type} {sub : Subproblem R V M σ μ} {g : V}
    (hgrad : s.grad = some g) (hmoving : ¬ s.Stationary settings.gradTol)
    (b : Bench R σ (Memory R μ)) :
    (next op sub settings s).run b = (iterate op sub settings s g).run b := by
  have hnot : stationary settings s.grad = .ok false := by
    obtain ⟨still, hstill⟩ : ∃ still, isStationary settings.gradTol (some g) = .ok still :=
      ⟨_, rfl⟩
    cases still with
    | true => exact absurd ((State.stationary_iff_of_grad hgrad).mpr hstill) hmoving
    | false =>
      rw [hgrad]
      exact hstill
  unfold next
  rw [run_bind_of_ok (run_lift_eq.mpr ⟨hnot, rfl⟩), if_neg Bool.false_ne_true,
    run_bind_of_ok (run_lift_eq.mpr ⟨require_eq_ok.mpr hgrad, rfl⟩)]

variable (hsolver : (Method.trustRegion sub settings).solver op = some solver)

include hsolver

/-- What an iteration answers is the solver's answer. -/
theorem run_next_of_iterate {t : Stage R V M σ (Descent.Memory R V M)} {g : V}
    {r : Except (Fault R) (Delta R V M)} {b : Bench R σ (Memory R (Descent.Memory R V M))}
    (hgrad : t.state.grad = some g) (hmoving : ¬ t.state.Stationary settings.gradTol)
    (h : (iterate op sub.subproblem settings t.state g).run
      ⟨t.memory.trusted settings.radius, t.session⟩ = (r, b)) :
    solver.next.run t =
      (some <$> r, ⟨.trust b.memory.working b.memory.sub, t.state, b.session⟩) := by
  obtain rfl := Option.some.inj hsolver
  refine Method.run_within_onStage (Memory.trusted settings.radius)
    (fun m => .trust m.working m.sub) (fun s => some <$> next op sub.subproblem settings s) ?_
  rw [← run_next_of_moving hgrad hmoving] at h
  show (next op sub.subproblem settings t.state >>= fun d => pure (some d)).run _ = _
  rw [run_bind, h]
  cases r <;> rfl

/-- The solver decides whether to stop, once there is a gradient, and leaves a memory that it
keeps. -/
theorem exists_run_terminate {t : Stage R V M σ (Descent.Memory R V M)} {g : V}
    {m : Memory R (Descent.Memory R V M)} (hmemory : t.memory = .trust m.working m.sub)
    (hgrad : t.state.grad = some g) : ∃ reason, solver.terminate.run t = (.ok reason, t) := by
  obtain rfl := Option.some.inj hsolver
  obtain ⟨reason, hreason⟩ : ∃ reason, terminate settings t.state = .ok reason := by
    unfold terminate
    rw [hgrad]
    exact ⟨_, rfl⟩
  obtain ⟨memory, s, session⟩ := t
  obtain rfl : memory = .trust m.working m.sub := hmemory
  exact ⟨reason, Method.run_within_onStage
    (t := ⟨Descent.Memory.trust m.working m.sub, s, session⟩) (Memory.trusted settings.radius)
    (fun m => .trust m.working m.sub) (fun s => lift (terminate settings s))
    (run_lift_eq.mpr ⟨hreason, rfl⟩)⟩

end

/-! ### Where the arithmetic of a run breaks -/

variable [Space R V] [LinearAction R V M] {op : Operator R V M σ} {settings : Settings R}
  {solver : Solver R V M σ (Descent.Memory R V M)}
  {e e' : Executor R V M σ (Descent.Memory R V M)} {f : Fault R}

/-- The arithmetic of the iteration that a run goes on with breaks with a fault: that of its working
radius, the length of its gradient and the curvature along it. -/
def BreaksAt (settings : Settings R) (e : Executor R V M σ (Descent.Memory R V M))
    (f : Fault R) : Prop :=
  ∃ g h curvature, e.stage.state.grad = some g ∧ e.stage.state.hessian = some h ∧
    Space.weightedDot g h g = .ok curvature ∧
    Breaks (e.stage.memory.trusted settings.radius).working (Space.norm g) curvature f

/-- A run may go on from the state: it is at a point where the operator answers, and that is not a
stationary one. -/
structure Proceeds (P : V → Prop) (Q : M → Prop) (settings : Settings R) (s : State R V M) :
    Prop where
  within : s.Within P Q
  moving : ¬ s.Stationary settings.gradTol

variable [ReductionScalar R] (hbottom : Scalar.isNaN (Scalar.negInf : R) = false)
  (hsolver : (Method.trustRegion .cauchy settings).solver op = some solver)

section

include hbottom

include hsolver in
/-- An iteration whose arithmetic breaks fails. -/
theorem step_of_breaks (hcost : op.provides .cost = true)
    (hmoving : ¬ e.stage.state.Stationary settings.gradTol) (hbreaks : BreaksAt settings e f) :
    ∃ e', (Executor.step solver).run e = (.error f, e') := by
  obtain ⟨g, h, curvature, hgrad, hhessian, hcurvature, hbreaks⟩ := hbreaks
  obtain ⟨b, hiterate⟩ := iterate_of_breaks
    (b := ⟨e.stage.memory.trusted settings.radius, e.stage.session⟩) hbottom settings hcost
    hhessian hcurvature hbreaks
  have hnext := run_next_of_iterate hsolver hgrad hmoving hiterate
  exact ⟨_, Executor.step_of_next_eq_error hnext⟩

include hsolver in
/-- That of a completed one did not break. -/
theorem sound_of_step (hcost : op.provides .cost = true)
    (hmoving : ¬ e.stage.state.Stationary settings.gradTol)
    (hstep : (Executor.step solver).run e = (.ok (), e')) (f : Fault R) :
    ¬ BreaksAt settings e f := by
  intro hbreaks
  obtain ⟨w, hfails⟩ := step_of_breaks hbottom hsolver hcost hmoving hbreaks
  rw [hstep] at hfails
  cases hfails

variable (hop : op.Reliable P Q)

include hop

/-- An iteration whose arithmetic does not break answers with a delta that stays within. -/
theorem exists_iterate_of_sound {b : R} (hs : e.stage.state.Sound b)
    (hproceeds : Proceeds P Q settings e.stage.state) (hsound : ∀ f, ¬ BreaksAt settings e f) :
    ∃ g d b', e.stage.state.grad = some g ∧
      (iterate op (Method.cauchy : Method R V M).subproblem settings e.stage.state g).run
        ⟨e.stage.memory.trusted settings.radius, e.stage.session⟩ = (.ok d, b') ∧
      d.Within P Q := by
  obtain ⟨c, hcost, -⟩ := hs.cost
  obtain ⟨g, h, curvature, hgrad, hg, hhessian, hcurvature⟩ :=
    hproceeds.within.exists_curvature hop.closed
  -- the curvature along the gradient is the only one, so nothing else can break
  have hunbroken : ∀ f, ¬ Breaks (e.stage.memory.trusted settings.radius).working (Space.norm g)
      curvature f := fun f hf => hsound f ⟨g, h, curvature, hgrad, hhessian, hcurvature, hf⟩
  obtain ⟨d, b', hiterate, hd⟩ := succeeds_iff.mp
    (succeeds_iterate hbottom settings hop hproceeds.within hcost hg hhessian hcurvature hunbroken
      e.stage.session) ⟨e.stage.memory.trusted settings.radius, e.stage.session⟩ rfl
  exact ⟨g, d, b', hgrad, hiterate, hd⟩

end

section

include hsolver

variable (hop : op.Reliable P Q) {memory : Descent.Memory R V M} {session : Session R σ}
  {config : Config R V} {observers : List (ObserverEntry R V M)} {k : Nat}
  {u v : Executor R V M σ (Descent.Memory R V M)} {ceiling : Int} {x : V}

include hop

omit [ReductionScalar R] in
/-- The preparation of a run succeeds. -/
theorem exists_prepare (hstart : config.param = some x) (hx : P x) :
    ∃ u, (Executor.prepare solver).run (begun solver (ready memory session config observers)) =
        (.ok (), u) ∧
      (u.stage.state.reason = .notTerminated → Proceeds P Q settings u.stage.state) := by
  set e := begun solver (ready memory session config observers) with he
  have hparam : e.stage.state.param = some x := hstart
  -- a reliable operator lets the solver begin
  obtain ⟨_, b, hopens, d, rfl, hbegins⟩ := succeeds_iff.mp (succeeds_init settings hop hparam hx)
    ⟨e.stage.memory.trusted settings.radius, e.stage.session⟩ trivial
  have hinit : solver.init.run e.stage =
      (.ok (some d), ⟨.trust b.memory.working b.memory.sub, e.stage.state, b.session⟩) := by
    obtain rfl := Option.some.inj hsolver
    exact Method.run_within_onStage (Memory.trusted settings.radius)
      (fun m => .trust m.working m.sub) (init op settings) hopens
  have hbest : e.stage.state.bestCost = .real Scalar.inf := rfl
  -- its cost can be compared, as the best one is infinite
  obtain ⟨newBest, s, hmerge⟩ := hbegins.within.exists_merge hbest
  refine ⟨_, Executor.prepare_eq_ok.mpr ⟨some d, _, hinit, newBest, s, hmerge, rfl⟩, ?_⟩
  have hreason : s.reason = .notTerminated :=
    congrArg State.Standing.reason (State.standing_of_merge hmerge)
  rcases hbegins.ends with hends | ⟨hgoes, hmoves, hhessian⟩
  · -- at a stationary point the run is over
    intro hopen
    have hover : (s.terminateWith .converged).reason = .notTerminated := by
      have hlast := hopen
      rw [hends] at hlast
      exact hlast
    rw [State.terminateWith_of_reason hreason] at hover
    cases hover
  · intro _
    rw [hgoes]
    have hgrad : d.grad.isSome = true := by
      obtain ⟨g, hg, -⟩ := isStationary_eq_ok.mp hmoves
      rw [hg]
      rfl
    refine ⟨hbegins.within.merge hmerge ⟨x, hparam, hx⟩ (.inl hgrad) (.inl hhessian), ?_⟩
    refine State.not_stationary_of_eq_ok ?_
    have hmerged : (e.stage.state.merge d).2 = s := congrArg Prod.snd hmerge
    show isStationary settings.gradTol s.grad = _
    rw [← hmerged, State.merge_grad]
    cases hg : d.grad with
    | none =>
      rw [hg] at hgrad
      cases hgrad
    | some g =>
      rw [hg] at hmoves
      exact hmoves

variable (hvalid : config.validate = .ok ())
  (hceiling : config.maxIters.number? = some (.int ceiling))
  (hquiet : ∀ entry ∈ observers, Quiet entry)

include hbottom hvalid hceiling hquiet

/-- An iteration whose arithmetic does not break is completed. -/
theorem step_of_sound (hu : Reached solver (ready memory session config observers) k u)
    (hdue : continues u.stage.state = .ok true)
    (hproceeds : Proceeds P Q settings u.stage.state) (hsound : ∀ f, ¬ BreaksAt settings u f) :
    ∃ v, (Executor.step solver).run u = (.ok (), v) ∧
      (v.stage.state.reason = .notTerminated → Proceeds P Q settings v.stage.state) := by
  have ha := abstains_of_solver hsolver
  obtain ⟨b, hs⟩ := Executor.sound_of_reached ha hvalid hu
  have hstands := Executor.standsAt_of_reached ha hu
  obtain ⟨g, d, b', hgrad, hiterate, hd⟩ :=
    exists_iterate_of_sound hbottom hop hs hproceeds hsound
  have hnext := run_next_of_iterate hsolver hgrad hproceeds.moving hiterate
  obtain ⟨newBest, s, hmerge⟩ := hd.exists_merge hs.best
  have hwithin : s.Within P Q := hd.merge hmerge hproceeds.within.point
    (.inr hproceeds.within.slope) (.inr hproceeds.within.curvature)
  have hstanding : s.standing = u.stage.state.standing := State.standing_of_merge hmerge
  have hgoing : s.reason = .notTerminated :=
    (congrArg State.Standing.reason hstanding).trans (Executor.reason_of_due hdue)
  have hcounter : s.curIter = .int k :=
    (congrArg State.Standing.curIter hstanding).trans hstands.counter
  -- the solver and the target say whether the run goes on, and debug mode does not object
  obtain ⟨g', hgrad', -⟩ := hwithin.slope
  set t : Stage R V M σ (Descent.Memory R V M) :=
    ⟨.trust b'.memory.working b'.memory.sub, u.stage.state, b'.session⟩ with ht
  obtain ⟨r, hterminate⟩ := exists_run_terminate hsolver
    (t := t.withState { s with curIter := .int (k + 1) }) (m := b'.memory) rfl hgrad'
  obtain ⟨c, hs', -⟩ := hs.merge hmerge
  obtain ⟨met, hmet⟩ := Executor.decides_target ha hvalid hu c
  have htarget : s.targetReached = .ok met := by
    unfold State.targetReached
    rw [hs'.best, ← hmet]
    exact congrArg (Value.le _) (congrArg State.Standing.targetCost hstanding)
  obtain ⟨reason, hdone, -⟩ := Executor.iterate_of_merge hgoing hcounter hnext hmerge
    (termination_of_iterate hiterate) hterminate htarget
  have hcheck := Executor.check_of_reached ha hvalid hceiling hu hdue hdone
  obtain ⟨v, hstep, huntold⟩ := Executor.step_of_iterate hdone rfl
    (hstands.observed ▸ hquiet) fun _ => hcheck
  refine ⟨v, hstep, fun hopen => ?_⟩
  have hstate : v.stage.state = { s with curIter := .int (k + 1), reason := reason } :=
    congrArg (fun e => e.stage.state) huntold
  -- an iteration that is completed goes on only from a point that is not stationary
  obtain ⟨_, d', b'', newBest', s', k', r', hgrad'', hmade, hmerge', hstate', -, -, hmoving⟩ :=
    made_of_step hsolver hproceeds.moving hstep
  rw [hgrad] at hgrad''
  cases hgrad''
  rw [hiterate] at hmade
  cases hmade
  rw [hmerge] at hmerge'
  cases hmerge'
  refine ⟨?_, ?_⟩
  · rw [hstate]
    exact hwithin.of_merged _ reason
  · rw [hstate']
    exact hmoving ((congrArg State.reason hstate').symm.trans hopen)

/-- Wherever a run has come to, it may go on unless it was ended. -/
theorem proceeds_of_reached (hstart : config.param = some x) (hx : P x)
    (hu : Reached solver (ready memory session config observers) k u)
    (hopen : u.stage.state.reason = .notTerminated) : Proceeds P Q settings u.stage.state := by
  induction k generalizing u with
  | zero =>
    obtain ⟨v, hprepare, hproceeds⟩ := exists_prepare hsolver hop hstart hx
    -- the preparation leads to one state only
    obtain rfl := hu.unique (reached_zero.mpr hprepare)
    exact hproceeds hopen
  | succ k ih =>
    obtain ⟨v, hv, hdue, hstep⟩ := hu.before
    have hproceeds := ih hv (Executor.reason_of_due hdue)
    have hsound : ∀ f, ¬ BreaksAt settings v f :=
      sound_of_step hbottom hsolver (hop.provides_cost hx session) hproceeds.moving hstep
    obtain ⟨w, hstep', hproceeds'⟩ :=
      step_of_sound hbottom hsolver hop hvalid hceiling hquiet hv hdue hproceeds hsound
    rw [hstep] at hstep'
    cases hstep'
    exact hproceeds' hopen

/-- An iteration that a run goes on with fails exactly if its arithmetic breaks. -/
theorem step_eq_error_iff (hstart : config.param = some x) (hx : P x)
    (hu : Reached solver (ready memory session config observers) k u)
    (hdue : continues u.stage.state = .ok true) :
    (∃ u', (Executor.step solver).run u = (.error f, u')) ↔ BreaksAt settings u f := by
  have hproceeds := proceeds_of_reached hbottom hsolver hop hvalid hceiling hquiet hstart hx hu
    (Executor.reason_of_due hdue)
  -- where the arithmetic breaks, the step fails so
  have hfails : ∀ f', BreaksAt settings u f' →
      ∃ u', (Executor.step solver).run u = (.error f', u') := fun f' =>
    step_of_breaks hbottom hsolver (hop.provides_cost hx session) hproceeds.moving
  constructor
  · rintro ⟨u', hstep⟩
    -- where it does not, the step succeeds
    by_cases hsound : ∀ f', ¬ BreaksAt settings u f'
    · obtain ⟨v, hdone, -⟩ :=
        step_of_sound hbottom hsolver hop hvalid hceiling hquiet hu hdue hproceeds hsound
      rw [hstep] at hdone
      cases hdone
    · -- a step has one outcome, so the fault is the one that its arithmetic breaks with
      obtain ⟨f', hbreaks⟩ := not_forall_not.mp hsound
      obtain ⟨w, hstep'⟩ := hfails f' hbreaks
      rw [hstep] at hstep'
      cases hstep'
      exact hbreaks
  · exact hfails f

/-- A run is driven to a fault exactly if it goes on with an iteration whose arithmetic breaks with
it. -/
theorem drive_eq_error_iff (hstart : config.param = some x) (hx : P x) :
    (∃ v, (Executor.drive solver).run (begun solver (ready memory session config observers)) =
        (.error f, v)) ↔
      ∃ k u, Reached solver (ready memory session config observers) k u ∧
        continues u.stage.state = .ok true ∧ BreaksAt settings u f := by
  have ha := abstains_of_solver hsolver
  constructor
  · rintro ⟨v, hdrive⟩
    rcases Executor.drive_eq_error hdrive with hprepare | ⟨k, u, hu, hend⟩
    · obtain ⟨u, hdone, -⟩ : ∃ u, (Executor.prepare solver).run
          (begun solver (ready memory session config observers)) = (.ok (), u) ∧ _ :=
        exists_prepare hsolver hop hstart hx
      rw [hprepare] at hdone
      cases hdone
    rcases hend with ⟨hundecided, -⟩ | ⟨hdue, hstep | ⟨rfl, -, -⟩⟩
    · -- whether another iteration is due is known
      cases hstopped : u.stage.state.terminated with
      | true =>
        have hover : continues u.stage.state = .ok false := if_pos hstopped
        rw [hover] at hundecided
        cases hundecided
      | false =>
        rw [Executor.continues_of_reached ha hceiling hu hstopped] at hundecided
        cases hundecided
    · exact ⟨k, u, hu, hdue,
        (step_eq_error_iff hbottom hsolver hop hvalid hceiling hquiet hstart hx hu hdue).mp
          ⟨v, hstep⟩⟩
    · -- an iteration that is due has fuel
      exact absurd (Executor.lt_fuel_of_due ha hceiling hu hdue) (lt_irrefl _)
  · rintro ⟨k, u, hu, hdue, hbreaks⟩
    obtain ⟨v, hstep⟩ :=
      (step_eq_error_iff hbottom hsolver hop hvalid hceiling hquiet hstart hx hu hdue).mpr hbreaks
    exact ⟨v, Executor.drive_of_step_eq_error hu (Executor.lt_fuel_of_due ha hceiling hu hdue) hdue
      hstep⟩

/-- The working radius of a run is allowed, or the last iteration made it of one that was: it is the
quarter of it or its double up to the bound. -/
theorem working_of_reached (hradius : Region.Allowed settings.radius)
    (hstart : config.param = some x) (hx : P x)
    (hu : Reached solver (ready memory session config observers) k u) :
    Region.Allowed (u.stage.memory.trusted settings.radius).working ∨
      ∃ r, Region.Allowed r ∧ ((u.stage.memory.trusted settings.radius).working = 0.25 * r ∨
        (u.stage.memory.trusted settings.radius).working =
          Scalar.least (2.0 * r) settings.maxRadius) := by
  cases k with
  | zero =>
    obtain ⟨_, _, _, _, -, -, hworking, -⟩ := opened_of_prepare hsolver (reached_zero.mp hu)
    rw [hworking]
    exact .inl hradius
  | succ k =>
    obtain ⟨v, hv, hdue, hstep⟩ := hu.before
    have hproceeds := proceeds_of_reached hbottom hsolver hop hvalid hceiling hquiet hstart hx hv
      (Executor.reason_of_due hdue)
    -- the iteration was completed, so the radius before it was allowed
    have hbefore : Region.Allowed (v.stage.memory.trusted settings.radius).working := by
      by_contra hnot
      obtain ⟨g, h, curvature, hgrad, -, hhessian, hcurvature⟩ :=
        hproceeds.within.exists_curvature hop.closed
      exact sound_of_step hbottom hsolver (hop.provides_cost hx session) hproceeds.moving hstep _
        ⟨g, h, curvature, hgrad, hhessian, hcurvature, .refused hnot⟩
    obtain ⟨g, d, b, _, _, _, _, -, hmade, -, -, -, hmemory, -⟩ :=
      made_of_step hsolver hproceeds.moving hstep
    obtain ⟨_, step, _, _, _, ratio, _, -, hadjusted, -⟩ := iterate_eq_ok hmade
    rw [hmemory, hadjusted]
    rcases adjust_among settings (v.stage.memory.trusted settings.radius).working ratio
      (Space.norm step) with hshorter | hlonger | hsame
    · exact .inr ⟨_, hbefore, .inl hshorter⟩
    · exact .inr ⟨_, hbefore, .inr hlonger⟩
    · rw [hsame]
      exact .inl hbefore

end

/-! ### Runs in machine arithmetic -/

section

variable {V M σ : Type} [Space Float V] [LinearAction Float V M] {P : V → Prop} {Q : M → Prop}
  {op : Operator Float V M σ} {settings : Settings Float}
  {solver : Solver Float V M σ (Descent.Memory Float V M)}

/-- **The arithmetic of the trust-region method breaks.**  A run with the Cauchy point beside a
reliable operator fails exactly if it goes on with an iteration whose arithmetic breaks, and with
the fault that it breaks with: the cube of the length of the gradient leaves the range of the
machine, the product of the radius and the curvature vanishes, or the working radius is refused.
A radius that is refused was made of an allowed one: it is the quarter of one or the double up to
the bound. -/
theorem run_error_iff (hop : op.Reliable P Q) (hradius : Region.Allowed settings.radius)
    (hsolver : (Method.trustRegion .cauchy settings).solver op = some solver)
    (memory : Descent.Memory Float V M) (session : Session Float σ) {config : Config Float V}
    (hvalid : config.validate = .ok ()) {ceiling : Int}
    (hceiling : config.maxIters.number? = some (.int ceiling)) {x : V}
    (hstart : config.param = some x) (hx : P x) {observers : List (ObserverEntry Float V M)}
    (hquiet : ∀ entry ∈ observers, Quiet entry) :
    (∀ f, (∃ e, (Executor.run solver).run (ready memory session config observers) =
        (.error f, e)) ↔
      ∃ k u, Reached solver (ready memory session config observers) k u ∧
        continues u.stage.state = .ok true ∧ BreaksAt settings u f) ∧
    ∀ k u refused, Reached solver (ready memory session config observers) k u →
      BreaksAt settings u (.radiusRefused refused) →
        ∃ r, Region.Allowed r ∧
          (refused = 0.25 * r ∨ refused = Scalar.least (2.0 * r) settings.maxRadius) := by
  have hbottom : Scalar.isNaN (Scalar.negInf : Float) = false := by decide +kernel
  refine ⟨fun f => ?_, fun k u refused hu hbreaks => ?_⟩
  · rw [Executor.run_eq_error_iff rfl hvalid]
    exact drive_eq_error_iff hbottom hsolver hop hvalid hceiling hquiet hstart hx
  · obtain ⟨_, _, _, -, -, -, hbroken⟩ := hbreaks
    -- only a refused radius says anything of the radius
    cases hbroken with
    | refused hnot =>
      exact (working_of_reached hbottom hsolver hop hvalid hceiling hquiet hradius hstart hx
        hu).resolve_left hnot

end

/-- A function with one slope and one curvature wherever it is looked at, and no cost. -/
def ramp (slope curvature : Float) : Operator Float (Tensor Float) (Curvature Float) Unit where
  label := "Ramp"
  cost := some fun _ => Act.lift (.ok (.real 0.0))
  gradient := some fun _ => Act.lift (.ok (some (.vector .numpy [slope])))
  hessian := some fun _ => Act.lift (.ok (some (.matrix (.matrix .numpy [[curvature]] 1))))

theorem reliable_ramp (slope curvature : Float) :
    (ramp slope curvature).Reliable (Tensor.IsVector .numpy 1) (Curvature.IsSquare .numpy 1) where
  closed := Tensor.closed_isVector .numpy 1
  cost _ := succeeds_iff.mpr fun _ _ => ⟨_, _, rfl, by decide +kernel⟩
  gradient _ := succeeds_iff.mpr fun _ _ => ⟨_, _, rfl, _, rfl, rfl, rfl, rfl⟩
  hessian _ := succeeds_iff.mpr fun _ _ => ⟨_, _, rfl, _, rfl, _, rfl, rfl, rfl⟩

/-- A trust region of a radius, the rest as it is by default. -/
def around (radius : Float) : Settings Float := ⟨radius, 100.0, 0.125, relativeTolerance⟩

/-- Up to five iterations from one. -/
def fiveFromOne : Config Float (Tensor Float) where
  param := some (.vector .numpy [1.0])
  maxIters := .int 5

/-- A run over a ramp that has not started. -/
def overRamp : Executor Float (Tensor Float) (Curvature Float) Unit
    (Descent.Memory Float (Tensor Float) (Curvature Float)) :=
  ready .plain ⟨{}, (), [], false, 0.0⟩ fiveFromOne []

/-- The trust-region method with Cauchy points, on a ramp. -/
def overRampSolver (radius slope curvature : Float) :
    Solver Float (Tensor Float) (Curvature Float) Unit
      (Descent.Memory Float (Tensor Float) (Curvature Float)) :=
  Method.widen (Memory.trusted radius) (fun m => .trust m.working m.sub)
    (algorithm (ramp slope curvature) (Method.subproblem .cauchy) (around radius)).toSolver

/-- What its preparation leads to. -/
def onRamp (radius slope curvature : Float) :
    Executor Float (Tensor Float) (Curvature Float) Unit
      (Descent.Memory Float (Tensor Float) (Curvature Float)) :=
  ((Executor.prepare (overRampSolver radius slope curvature)).run
    (begun (overRampSolver radius slope curvature) overRamp)).2

/-- On a ramp the curvature along the gradient is known. -/
theorem breaksAt_ramp (slope curvature : Float) {settings : Settings Float} {f : Fault Float}
    {e : Executor Float (Tensor Float) (Curvature Float) Unit
      (Descent.Memory Float (Tensor Float) (Curvature Float))}
    (hgrad : e.stage.state.grad = some (.vector .numpy [slope]))
    (hhessian : e.stage.state.hessian.bind Curvature.matrix? =
      some (.matrix .numpy [[curvature]] 1))
    (hbreaks : Breaks (e.stage.memory.trusted settings.radius).working
      (Tensor.norm (.vector .numpy [slope]))
      (Tensor.inner [slope] [Tensor.inner [curvature] [slope]]) f) : BreaksAt settings e f := by
  obtain ⟨h, hh, hmatrix⟩ := Option.bind_eq_some_iff.mp hhessian
  cases h with
  | function product => cases hmatrix
  | matrix t =>
    cases hmatrix
    exact ⟨_, _, _, hgrad, hh, rfl, hbreaks⟩

/-- Over ramps whose slopes and curvatures are in the range of the machine, the first iteration
cubes a slope too steep or divides by nothing, and the second one is left with a radius that
vanished. -/
theorem run_error_iff_ramp :
    (∃ e, (Executor.run (overRampSolver 1.0 1e110 1.0)).run overRamp =
      (.error (.outOfRange .powerRange), e)) ∧
    (∃ e, (Executor.run (overRampSolver 1e-200 1.0 1e-200)).run overRamp =
      (.error .divisionByZero, e)) ∧
    ∃ e, (Executor.run (overRampSolver 5e-324 1.0 1.0)).run overRamp =
      (.error (.radiusRefused 0.0), e) := by
  have hvalid : fiveFromOne.validate = .ok () := toOption_eq_some.mp (by decide +kernel)
  have hstart : Tensor.IsVector .numpy 1 (.vector .numpy [(1.0 : Float)]) := ⟨rfl, rfl, rfl⟩
  have hquiet : ∀ entry ∈ overRamp.observers, Quiet entry := nofun
  -- it is enough to reach an iteration whose arithmetic breaks
  have hfails : ∀ {radius slope curvature : Float} {f : Fault Float},
      Region.Allowed (around radius).radius → ∀ k u,
      Reached (overRampSolver radius slope curvature) overRamp k u →
      continues u.stage.state = .ok true → BreaksAt (around radius) u f →
      ∃ e, (Executor.run (overRampSolver radius slope curvature)).run overRamp = (.error f, e) := by
    intro radius slope curvature f hradius k u hu hdue hbreaks
    obtain ⟨hiff, -⟩ := run_error_iff (reliable_ramp slope curvature) hradius rfl .plain
      ⟨{}, (), [], false, 0.0⟩ hvalid rfl rfl hstart hquiet
    exact (hiff f).mpr ⟨k, u, hu, hdue, hbreaks⟩
  refine ⟨hfails ⟨by decide +kernel, by decide +kernel⟩ 0 (onRamp 1.0 1e110 1.0) ?_ ?_ ?_,
    hfails ⟨by decide +kernel, by decide +kernel⟩ 0 (onRamp 1e-200 1.0 1e-200) ?_ ?_ ?_, ?_⟩
  · exact reached_zero.mpr (Act.run_eq_of_isOk (by decide +kernel))
  · exact toOption_eq_some.mp (by decide +kernel)
  · -- a slope of `1e110` has no finite cube
    refine breaksAt_ramp 1e110 1.0 (by decide +kernel) (by decide +kernel) (.cubed ⟨?_, ?_, ?_⟩ ?_)
    · exact ⟨by decide +kernel, by decide +kernel⟩
    · decide +kernel
    · decide +kernel
    · exact ⟨by decide +kernel, by decide +kernel⟩
  · exact reached_zero.mpr (Act.run_eq_of_isOk (by decide +kernel))
  · exact toOption_eq_some.mp (by decide +kernel)
  · -- a radius of `1e-200` times as small a curvature is zero
    refine breaksAt_ramp 1.0 1e-200 (by decide +kernel) (by decide +kernel)
      (.vanished ⟨?_, ?_, ?_⟩ ?_ ?_)
    · exact ⟨by decide +kernel, by decide +kernel⟩
    · decide +kernel
    · decide +kernel
    · rintro ⟨-, hout⟩
      revert hout
      decide +kernel
    · decide +kernel
  · -- the cost does not fall, so the first iteration leaves a quarter of the radius
    have hfirst : Reached (overRampSolver 5e-324 1.0 1.0) overRamp 0 (onRamp 5e-324 1.0 1.0) :=
      reached_zero.mpr (Act.run_eq_of_isOk (by decide +kernel))
    have hsecond := hfirst.more (toOption_eq_some.mp (by decide +kernel))
      (Act.run_eq_of_isOk (a := Executor.step _) (by decide +kernel))
    refine hfails ⟨by decide +kernel, by decide +kernel⟩ 1 _ hsecond
      (toOption_eq_some.mp (by decide +kernel))
      (breaksAt_ramp 1.0 1.0 (by decide +kernel) (by decide +kernel) ?_)
    have hradius : (((Executor.step (overRampSolver 5e-324 1.0 1.0)).run
        (onRamp 5e-324 1.0 1.0)).2.stage.memory.trusted (around 5e-324).radius).working = 0.0 := by
      decide +kernel
    rw [hradius]
    refine .refused ?_
    rintro ⟨-, hpositive⟩
    revert hpositive
    decide +kernel

end TrustRegion

end Descent
