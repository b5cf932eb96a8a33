import Descent.Proofs.Run.Account
import Descent.Proofs.Run.Target
import Descent.Proofs.Run.Unobserved
import Descent.Proofs.Solver.Stops
import Descent.Proofs.Solver.Trial

/-!
# The trust-region method in a run

The steps of the trust-region method as a solver are those of its algorithm, on the part of the
memory that it keeps (`TrustRegion.init_of_solver`, `next_of_solver`, `terminate_of_solver`).  So
the preparation of a run merges what the algorithm opens with (`TrustRegion.opened_of_prepare`), and
a completed iteration from a point that is not stationary is made: what it answers is merged, and
nothing else touches the memory or the session but reports (`TrustRegion.made_of_step`).  The run
goes on only from a point that is not stationary.
-/

namespace Descent

open Act

theorem State.stationary_iff_of_grad {R V M : Type} [Scalar R] [Space R V] {tol : R}
    {s : State R V M} {g : V} (hgrad : s.grad = some g) :
    s.Stationary tol ↔ isStationary tol (some g) = .ok true := by
  rw [State.stationary_iff, hgrad]

namespace TrustRegion

variable {R V M σ : Type} [Scalar R] [Space R V] [LinearAction R V M] {op : Operator R V M σ}
  {sub : Method R V M} {settings : Settings R} {solver : Solver R V M σ (Descent.Memory R V M)}
  (hsolver : (Method.trustRegion sub settings).solver op = some solver)

include hsolver

theorem abstains_of_solver : solver.Abstains := by
  obtain rfl := Option.some.inj hsolver
  exact (Algorithm.abstains_toSolver _).widen

/-! ### The steps -/

section

variable {t t' : Stage R V M σ (Descent.Memory R V M)}

theorem init_of_solver {o : Option (Delta R V M)} (h : solver.init.run t = (.ok o, t')) :
    ∃ b, (init op settings t.state).run ⟨t.memory.trusted settings.radius, t.session⟩ =
        (.ok o, b) ∧
      t' = ⟨.trust b.memory.working b.memory.sub, t.state, b.session⟩ := by
  obtain rfl := Option.some.inj hsolver
  exact (Method.within_onStage_eq (Memory.trusted settings.radius)
    (fun m => .trust m.working m.sub) (init op settings)).mp h

theorem next_of_solver {d : Delta R V M} (h : solver.next.run t = (.ok (some d), t')) :
    ∃ b, (next op sub.subproblem settings t.state).run
        ⟨t.memory.trusted settings.radius, t.session⟩ = (.ok d, b) ∧
      t' = ⟨.trust b.memory.working b.memory.sub, t.state, b.session⟩ := by
  obtain rfl := Option.some.inj hsolver
  obtain ⟨b, hsome, rfl⟩ := (Method.within_onStage_eq (Memory.trusted settings.radius)
    (fun m => .trust m.working m.sub) fun s => some <$> next op sub.subproblem settings s).mp h
  obtain ⟨d', b', hrun, hd⟩ := run_bind_eq_ok.mp hsome
  cases hd
  exact ⟨b, hrun, rfl⟩

/-- To decide whether to stop the method looks at the state, and leaves everything as it is. -/
theorem terminate_of_solver {reason : Reason} (h : solver.terminate.run t = (.ok reason, t')) :
    terminate settings t.state = .ok reason ∧ t'.state = t.state ∧ t'.session = t.session ∧
      t'.memory.trusted settings.radius = t.memory.trusted settings.radius := by
  obtain rfl := Option.some.inj hsolver
  obtain ⟨b, hrun, rfl⟩ := (Method.within_onStage_eq (Memory.trusted settings.radius)
    (fun m => .trust m.working m.sub) fun s => lift (terminate settings s)).mp h
  obtain ⟨hreason, rfl⟩ := run_lift_eq.mp hrun
  exact ⟨hreason, rfl, rfl, rfl⟩

end

/-! ### The preparation and an iteration -/

variable {e e' : Executor R V M σ (Descent.Memory R V M)}

/-- The preparation sets the first radius and has the cost and the gradient evaluated, and merges
them.  At a stationary point it ends the run; elsewhere it has the Hessian evaluated too and tells
of the radius. -/
theorem opened_of_prepare (h : (Executor.prepare solver).run e = (.ok (), e')) :
    ∃ cost g session session',
      (Session.costValue op e.stage.state.param).run e.stage.session = (.ok cost, session) ∧
      (Session.gradient op e.stage.state.param).run session = (.ok (some g), session') ∧
      (e'.stage.memory.trusted settings.radius).working = settings.radius ∧
      e'.stage.state.grad = some g ∧
      (e'.stage.state.Stationary settings.gradTol ∧ e'.stage.state.terminated = true ∧
          e'.stage.session = session' ∨
        ¬ e'.stage.state.Stationary settings.gradTol ∧
          e'.stage.state.kv = [("radius", .real settings.radius)] ∧ ∃ hessian,
          (Session.hessian op e.stage.state.param).run session' =
            (.ok hessian, e'.stage.session)) := by
  obtain ⟨o, t, hinit, hmerged⟩ := Executor.prepare_eq_ok.mp h
  obtain ⟨b, hrun, rfl⟩ := init_of_solver hsolver hinit
  obtain ⟨cost, g, session, session', hcost, hgrad, hmemory, hends⟩ := init_eq_ok hrun
  refine ⟨cost, g, session, session', hcost, hgrad, ?_⟩
  rcases hends with ⟨hstill, hsession, rfl⟩ | ⟨hmoves, hessian, hhessian, rfl⟩ <;>
    obtain ⟨newBest, s, hmerge, rfl⟩ := hmerged <;>
    have hs : (e.stage.state.merge _).2 = s := congrArg Prod.snd hmerge <;>
    have hslope : s.grad = some g := hs ▸ State.merge_grad _ _
  · -- the run ends, and what was merged is left as it is
    obtain ⟨r, hr⟩ := s.change_conclude .converged
    have hlast : (s.terminateWith .converged).grad = some g := (congrArg State.grad hr).trans hslope
    refine ⟨congrArg Memory.working hmemory, hlast,
      .inl ⟨(State.stationary_iff_of_grad hlast).mpr hstill, ?_, hsession⟩⟩
    rw [← Bool.not_eq_false]
    intro hopen
    cases (State.terminated_terminateWith.mp hopen).2
  · -- the run goes on, with the Hessian there
    refine ⟨congrArg Memory.working hmemory, hslope, .inr ⟨?_, hs ▸ State.merge_kv _ _, hessian,
      hhessian⟩⟩
    intro hstill
    cases hmoves.symm.trans ((State.stationary_iff_of_grad hslope).mp hstill)

/-- The verdict on a delta that does not end the run leaves all as it is, and lets the run go on
only from a point that is not stationary. -/
theorem moving_of_verdict {d : Delta R V M} {reason : Reason} (hgoes : d.termination = none)
    (h : (Executor.verdict solver d).run e = (.ok reason, e')) :
    e'.stage.state = e.stage.state ∧ e'.stage.session = e.stage.session ∧
      e'.stage.memory.trusted settings.radius = e.stage.memory.trusted settings.radius ∧
      (reason = .notTerminated → ¬ e.stage.state.Stationary settings.gradTol) := by
  rcases Executor.verdict_eq_ok.mp h with ⟨hfinal, -⟩ | ⟨-, r, t, hterminate, rfl, hreason⟩
  · rw [hgoes] at hfinal
    cases hfinal
  · obtain ⟨hanswer, hstate, hsession, hmemory⟩ := terminate_of_solver hsolver hterminate
    refine ⟨hstate, hsession, hmemory, ?_⟩
    rintro rfl
    -- the run goes on only if the method said so
    have hr : r = .notTerminated := by
      rcases hreason with ⟨hfinal, rfl⟩ | ⟨hr, -⟩
      · rfl
      · exact Reason.eq_notTerminated hr
    rcases bearsOut_of_terminate hanswer with ⟨hconverged, -⟩ | ⟨-, hmoving⟩
    · rw [hr] at hconverged
      cases hconverged
    · exact hmoving

/-- A completed iteration from a point that is not stationary is made: its delta is merged, the
counter and the verdict are recorded, and what the memory and the session hold besides reports is
what the iteration left in them. -/
theorem made_of_step (hmoving : ¬ e.stage.state.Stationary settings.gradTol)
    (h : (Executor.step solver).run e = (.ok (), e')) :
    ∃ g d b newBest s k reason, e.stage.state.grad = some g ∧
      (iterate op sub.subproblem settings e.stage.state g).run
        ⟨e.stage.memory.trusted settings.radius, e.stage.session⟩ = (.ok d, b) ∧
      e.stage.state.merge d = (.ok newBest, s) ∧
      e'.stage.state = { s with curIter := k, reason := reason } ∧
      e'.stage.session.untold = b.session.untold ∧
      e'.stage.memory.trusted settings.radius = b.memory ∧
      (reason = .notTerminated → ¬ s.Stationary settings.gradTol) := by
  obtain ⟨newBest, u, hiterate, hconclude⟩ := Executor.step_eq_ok.mp h
  obtain ⟨d, t, s, s', reason, v, hnext, hmerge, hadvance, hverdict, rfl⟩ :=
    Executor.iterate_eq_ok.mp hiterate
  obtain ⟨b, hrun, rfl⟩ := next_of_solver hsolver hnext
  obtain ⟨g, hgrad, hmade⟩ : ∃ g, e.stage.state.grad = some g ∧
      (iterate op sub.subproblem settings e.stage.state g).run
        ⟨e.stage.memory.trusted settings.radius, e.stage.session⟩ = (.ok d, b) := by
    rcases next_eq_ok.mp hrun with ⟨hstationary, -⟩ | ⟨-, hmade⟩
    · exact absurd (State.stationary_iff.mpr hstationary) hmoving
    · exact hmade
  obtain ⟨hstate, hsession, hmemory, hmoving'⟩ :=
    moving_of_verdict hsolver (termination_of_iterate hmade) hverdict
  obtain ⟨k, -, rfl⟩ := State.incrementIter_eq_ok hadvance
  obtain ⟨r₁, hr₁⟩ := State.change_conclude { s with curIter := k } reason
  have hlast : e'.stage.state = (State.terminateWith { s with curIter := k } reason) := by
    rw [Executor.state_of_conclude hconclude]
    exact congrArg (State.terminateWith · reason) hstate
  -- what follows the verdict only tells
  have huntold := (Executor.keeps_untold_conclude e.stage.state newBest).run_eq hconclude
  refine ⟨g, d, b, newBest, s, k, r₁, hgrad, hmade, hmerge, hlast.trans hr₁, ?_, ?_, ?_⟩
  · have hkept : e'.stage.session.untold = v.stage.session.untold :=
      congrArg (fun e => e.stage.session) huntold
    exact hkept.trans (congrArg Session.untold hsession)
  · have hkept : e'.stage.memory = v.stage.memory := congrArg (fun e => e.stage.memory) huntold
    rw [hkept, hmemory]
    rfl
  · rintro rfl
    -- the reason that is recorded is not final, so neither was the verdict
    have hopen : (State.terminateWith { s with curIter := k } reason).terminated = false :=
      congrArg State.terminated hr₁
    exact hmoving' (Reason.eq_notTerminated (State.terminated_terminateWith.mp hopen).2)

end TrustRegion

end Descent
