import Descent.Proofs.Run.Forward
import Descent.Proofs.Run.Progress
import Descent.Proofs.Solver.Finite
import Descent.Tensor.Solve

/-!
# Runs on operators that answer with what is not finite

Wherever a run of a method that minimises has been, its cost and its best cost are finite, whatever
the operator answers (`State.FiniteCosts`).  Of the gradient only as much is known as the method
checks.  Where a start or an iteration of a descent leads to what is not finite, the run fails and
nothing is merged; where an iteration of the trust-region method does, its step is rejected.
-/

namespace Descent

open Act

variable {R V M σ μ : Type} [Scalar R]

namespace State

/-- The cost and the best cost are finite. -/
structure FiniteCosts (s : State R V M) : Prop where
  cost : ∃ c, s.cost = .real c ∧ Scalar.isFinite c = true
  best : ∃ c, s.bestCost = .real c ∧ Scalar.isFinite c = true

/-- The gradient is finite, if there is one. -/
def FiniteGrad [Space R V] (s : State R V M) : Prop :=
  ∀ g, s.grad = some g → Space.isFinite g = true

variable {s s' : State R V M} {d : Delta R V M} {b : Bool}

/-- A finite cost that is merged makes both costs finite: it replaces an infinite best one. -/
theorem finiteCosts_of_merge [ReductionScalar R]
    (hbest : s.bestCost = .real Scalar.inf ∨ ∃ c, s.bestCost = .real c ∧ Scalar.isFinite c = true)
    (hd : d.FiniteCost) (h : s.merge d = (.ok b, s')) : s'.FiniteCosts := by
  obtain ⟨x, hx, hfinite⟩ := hd
  rw [merge_of_ok hx rfl] at h
  rcases hbest with hbest | ⟨c, hbest, hc⟩
  · rw [mergeCost_of_lt (s := s.facing d) hbest (ReductionScalar.lt_inf hfinite)] at h
    cases h
    exact ⟨⟨x, rfl, hfinite⟩, x, rfl, hfinite⟩
  · by_cases hlt : x < c
    · rw [mergeCost_of_lt (s := s.facing d) hbest hlt] at h
      cases h
      exact ⟨⟨x, rfl, hfinite⟩, x, rfl, hfinite⟩
    · rw [mergeCost_of_not_lt (s := s.facing d) hbest hlt] at h
      cases h
      exact ⟨⟨x, rfl, hfinite⟩, c, hbest, hc⟩

theorem FiniteCosts.merge [ReductionScalar R] (hs : s.FiniteCosts)
    (hd : d.FiniteCost ∨ d.cost = none) (h : s.merge d = (.ok b, s')) : s'.FiniteCosts := by
  rcases hd with hd | hd
  · exact finiteCosts_of_merge (.inr hs.best) hd h
  · rw [merge_of_none hd] at h
    cases h
    exact ⟨hs.cost, hs.best⟩

/-- What is merged is finite, or the gradient stays. -/
theorem grad_of_merge [Space R V] (hd : d.FiniteGrad) (h : s.merge d = (.ok b, s')) :
    s'.grad = s.grad ∨ s'.FiniteGrad := by
  have hgrad : s'.grad = d.grad.or s.grad := by
    rw [← s.merge_grad d, h]
  cases hg : d.grad with
  | none =>
    rw [hg, Option.none_or] at hgrad
    exact .inl hgrad
  | some g =>
    rw [hg, Option.some_or] at hgrad
    refine .inr fun g' hg' => hd g' ?_
    rw [hg, ← hgrad, hg']

end State

namespace Executor

variable {solver : Solver R V M σ μ} {e e' u v : Executor R V M σ μ}
  {opens steps : State R V M → Delta R V M → Prop}

/-- The step fails for something that is not finite, and leaves the state as it is. -/
def FailsWild {α : Type} (a : Act R (Executor R V M σ μ) α) (u : Executor R V M σ μ) : Prop :=
  ∃ what value v, a.run u = (.error (.notFinite what value), v) ∧ v.stage.state = u.stage.state

/-- An iteration whose solver refuses to answer fails so, and leaves the state as it is. -/
theorem step_of_refuses (ha : solver.Abstains) (h : solver.next.Refuses u.stage) :
    FailsWild (step solver) u := by
  obtain ⟨what, value, t, ht⟩ := h
  have hnext : (onStage solver.next).run u = (.error (.notFinite what value), u.withStage t) :=
    onStage_eq.mpr ⟨t, ht, rfl⟩
  have hiterate : (iterate solver).run u = (.error (.notFinite what value), u.withStage t) :=
    run_bind_of_error hnext
  exact ⟨what, value, _, step_eq_error.mpr (.inl hiterate), ha.next.run_eq ht⟩

/-- So does a preparation. -/
theorem prepare_of_refuses (ha : solver.Abstains) (h : solver.init.Refuses u.stage) :
    FailsWild (prepare solver) u := by
  obtain ⟨what, value, t, ht⟩ := h
  have hinit : (onStage solver.init).run u = (.error (.notFinite what value), u.withStage t) :=
    onStage_eq.mpr ⟨t, ht, rfl⟩
  exact ⟨what, value, _, run_bind_of_error hinit, ha.init.run_eq ht⟩

section

variable [Space R V] [ReductionScalar R] {start steady : Prop}
  (hsolver : solver.Answers (fun _ d => d.FiniteCost ∧ (start → d.FiniteGrad)) fun _ d =>
    (d.FiniteCost ∨ d.cost = none) ∧ (steady → d.FiniteGrad))

include hsolver

theorem finite_of_prepare (hbest : e.stage.state.bestCost = .real Scalar.inf)
    (hgrad : e.stage.state.grad = none) (h : (prepare solver).run e = (.ok (), e')) :
    e'.stage.state.FiniteCosts ∧ (start → e'.stage.state.FiniteGrad) := by
  obtain ⟨d, b, s, r, ⟨hcost, hslope⟩, hmerge, hstate⟩ := merged_of_prepare hsolver h
  have hs := State.finiteCosts_of_merge (.inl hbest) hcost hmerge
  rw [hstate]
  refine ⟨⟨hs.cost, hs.best⟩, fun hstart => ?_⟩
  rcases State.grad_of_merge (hslope hstart) hmerge with hsame | hfinite
  · intro g hg
    have hnone : s.grad = none := hsame.trans hgrad
    have hsome : s.grad = some g := hg
    rw [hnone] at hsome
    cases hsome
  · exact hfinite

theorem finite_of_step (he : e.stage.state.FiniteCosts) (h : (step solver).run e = (.ok (), e')) :
    e'.stage.state.FiniteCosts ∧ (steady →
      e'.stage.state.grad = e.stage.state.grad ∨ e'.stage.state.FiniteGrad) := by
  obtain ⟨d, -, b, s, k, r, -, ⟨hcost, hslope⟩, hmerge, hstate⟩ := merged_of_next hsolver h
  have hs := he.merge hcost hmerge
  rw [hstate]
  refine ⟨⟨hs.cost, hs.best⟩, fun hsteady => ?_⟩
  have hgrad : s.grad = e.stage.state.grad ∨ s.FiniteGrad :=
    State.grad_of_merge (hslope hsteady) hmerge
  exact hgrad

end

/-! ### Methods that minimise -/

variable [Space R V] [LinearAction R V M] {op : Operator R V M σ} {m : Method R V M}

/-- Where a run of a method stands, both costs are finite, and the gradient is if the method checks
every one.  If it checks those of its iterations, an iteration brings a finite gradient or none, and
fails where it leads to a cost or a gradient that is not finite.  If it does not, an iteration that
leads to a cost that is not finite leaves the point as it is. -/
structure Screened (op : Operator R V M σ) (m : Method R V M)
    (solver : Solver R V M σ (Memory R V M)) (u : Executor R V M σ (Memory R V M)) : Prop where
  costs : u.stage.state.FiniteCosts
  grad : m.ChecksStart → u.stage.state.FiniteGrad
  steps : m.ChecksSteps → ∀ v, (step solver).run u = (.ok (), v) →
    v.stage.state.grad = u.stage.state.grad ∨ v.stage.state.FiniteGrad
  refused : m.ChecksSteps → ∀ d t, (m.trial op).run u.stage = (.ok d, t) →
    d.WildCost ∨ d.WildGrad → FailsWild (step solver) u
  rejected : ¬ m.ChecksSteps → ∀ d t, (m.trial op).run u.stage = (.ok d, t) → d.WildCost →
    ∀ v, (step solver).run u = (.ok (), v) → TrustRegion.Rejects u.stage.state v.stage.state

variable {solver : Solver R V M σ (Memory R V M)}

/-- An iteration of the trust-region method that leads to a cost that is not finite is rejected. -/
theorem rejects_of_trial [ReductionScalar R] (hm : m.Descends) (hnot : ¬ m.ChecksSteps)
    (heta : ∀ sub settings, m = .trustRegion sub settings → (0.0 : R) ≤ settings.eta)
    (hsolver : m.solver op = some solver) {u v : Executor R V M σ (Memory R V M)}
    {d : Delta R V M} {t : Stage R V M σ (Memory R V M)}
    (htrial : (m.trial op).run u.stage = (.ok d, t)) (hwild : d.WildCost)
    (h : (step solver).run u = (.ok (), v)) :
    TrustRegion.Rejects u.stage.state v.stage.state := by
  obtain ⟨d', t', b, s, k, r, hnext, -, hmerge, hstate⟩ :=
    merged_of_next (hm.finite heta hsolver) h
  rw [hstate]
  cases hm with
  | steepestDescent => exact absurd trivial hnot
  | newtonCG => exact absurd trivial hnot
  | trustRegion sub settings =>
    have hstill := Method.still_of_trial (heta sub settings rfl) hsolver htrial hwild hnext
    exact TrustRegion.rejects_of_still hstill hmerge k r

/-- **What is not finite does not become a cost.**  Whatever the operator answers, every cost that a
method that minimises has merged is finite, and so is every gradient that it checks: for Newton's
method those are all, for steepest descent all but the one at the start, for the trust-region
method, whose threshold is not negative, none.  A start or an iteration that leads to what is
checked and not finite fails, before anything is merged; an iteration of the trust-region method is
rejected. -/
theorem finite_of_reached [ReductionScalar R] (hm : m.Descends)
    (heta : ∀ sub settings, m = .trustRegion sub settings → (0.0 : R) ≤ settings.eta)
    (hsolver : m.solver op = some solver) (memory : Memory R V M) (session : Session R σ)
    (config : Config R V) (observers : List (ObserverEntry R V M)) :
    solver.Answers (fun _ d => d.FiniteCost ∧ (m.ChecksStart → d.FiniteGrad)) (fun _ d =>
        (d.FiniteCost ∨ d.cost = none) ∧ (m.ChecksSteps → d.FiniteGrad)) ∧
      (∀ d t, (m.start op).run (begun solver (ready memory session config observers)).stage =
          (.ok d, t) → d.WildCost ∨ m.ChecksStart ∧ d.WildGrad →
        FailsWild (prepare solver) (begun solver (ready memory session config observers))) ∧
      (∀ k u, Reached solver (ready memory session config observers) k u →
        Screened op m solver u) ∧
      ∀ outcome e', (run solver).run (ready memory session config observers) = (.ok outcome, e') →
        outcome.state.FiniteCosts ∧ (m.ChecksStart → outcome.state.FiniteGrad) := by
  have hfinite := hm.finite heta hsolver
  have ha := hm.abstains hsolver
  -- the costs are finite wherever the run is; of the gradients those that are checked
  have hreached : ∀ k u, Reached solver (ready memory session config observers) k u →
      u.stage.state.FiniteCosts ∧ (m.ChecksStart → u.stage.state.FiniteGrad) := by
    intro k u hu
    refine hu.induct (P := fun u => u.stage.state.FiniteCosts ∧
      (m.ChecksStart → u.stage.state.FiniteGrad)) (fun _ => finite_of_prepare hfinite rfl rfl) ?_
    rintro v w ⟨hcosts, hgrad⟩ - hstep
    obtain ⟨hcosts', hsteps⟩ := finite_of_step hfinite hcosts hstep
    refine ⟨hcosts', fun hstart => ?_⟩
    -- a step keeps the gradient or brings one that was checked
    rcases hsteps (Method.checksSteps_of_checksStart hstart) with hsame | hslope
    · intro g hg
      exact hgrad hstart g (hsame ▸ hg)
    · exact hslope
  refine ⟨hfinite, fun d t hstart hwild => ?_, fun k u hu => ?_, fun outcome e' hrun => ?_⟩
  · exact prepare_of_refuses ha (hm.refused_of_start hsolver hstart hwild)
  · obtain ⟨hcosts, hgrad⟩ := hreached k u hu
    exact ⟨hcosts, hgrad, fun hsteps v hstep => (finite_of_step hfinite hcosts hstep).2 hsteps,
      fun hsteps d t htrial hwild =>
        step_of_refuses ha (Method.refused_of_trial hsteps hsolver htrial hwild),
      fun hnot d t htrial hwild v hstep =>
        rejects_of_trial hm hnot heta hsolver htrial hwild hstep⟩
  · obtain ⟨k, u, r, hu, hstate⟩ := state_of_run hrun
    obtain ⟨hcosts, hgrad⟩ := hreached k u hu
    rw [hstate]
    exact ⟨⟨hcosts.cost, hcosts.best⟩, hgrad⟩

/-- Half the squared length of a vector with one entry, with a gradient that is never known. -/
def fog : Operator Float (Tensor Float) (Curvature Float) Unit where
  label := "Fog"
  cost := some fun x => Act.lift (.ok (.real (0.5 * Tensor.inner x.entries x.entries)))
  gradient := some fun _ => Act.lift (.ok (some (.vector .numpy [Scalar.nan])))
  hessian := some fun _ => Act.lift (.ok (some (.matrix (.matrix .numpy [[1.0]] 1))))

/-- Steepest descent along a backtracking search. -/
def downhill : Method Float (Tensor Float) (Curvature Float) :=
  .steepestDescent (.backtracking Backtracking.default) relativeTolerance

/-- Newton's method along a strong Wolfe search. -/
def newton : Method Float (Tensor Float) (Curvature Float) :=
  .newtonCG (.wolfe Wolfe.default) ⟨relativeTolerance, NewtonCG.defaultTolCost, .value .null⟩

/-- A run from one that has not started. -/
def fromOne : Executor Float (Tensor Float) (Curvature Float) Unit
    (Memory Float (Tensor Float) (Curvature Float)) :=
  ready .plain ⟨{}, (), [], false, 0.0⟩ { param := some (.vector .numpy [1.0]) } []

/-- The cost of a delta is one that is not finite. -/
def bringsWildCost (d : Delta Float (Tensor Float) (Curvature Float)) : Bool :=
  match d.cost with
  | some (.real c) => !Scalar.isFinite c
  | _ => false

/-- In the fog steepest descent merges the gradient at the start, which is not known, and fails in
the iteration that goes along it; Newton's method refuses the start. -/
theorem finite_of_reached_fog :
    (∃ solver u, downhill.solver fog = some solver ∧ Reached solver fromOne 0 u ∧
      u.stage.state.FiniteCosts ∧ (∃ g, u.stage.state.grad = some g ∧ Space.isFinite g = false) ∧
      FailsWild (step solver) u) ∧
    ∃ solver, newton.solver fog = some solver ∧
      FailsWild (prepare solver) (begun solver fromOne) := by
  constructor
  · obtain ⟨solver, hsolver⟩ : ∃ solver, downhill.solver fog = some solver := ⟨_, rfl⟩
    have hprepare := Act.run_eq_of_isOk (a := prepare solver) (t := begun solver fromOne)
      (by cases hsolver; decide +kernel)
    generalize he₀ : ((prepare solver).run (begun solver fromOne)).2 = e₀ at hprepare
    obtain ⟨-, -, hscreened, -⟩ := finite_of_reached (.steepestDescent _ _) nofun hsolver .plain
      ⟨{}, (), [], false, 0.0⟩ { param := some (.vector .numpy [1.0]) } []
    have hreached : Reached solver fromOne 0 e₀ := reached_zero.mpr hprepare
    have hhere := hscreened 0 e₀ hreached
    -- steepest descent does not look at the gradient it begins with
    have hgrad : e₀.stage.state.grad.map Space.isFinite = some false := by
      rw [← he₀]
      cases hsolver
      decide +kernel
    have htrial : ((downhill.trial fog).run e₀.stage).1.toOption.map bringsWildCost =
        some true := by
      rw [← he₀]
      cases hsolver
      decide +kernel
    obtain ⟨g, hg, hwild⟩ := Option.map_eq_some_iff.mp hgrad
    obtain ⟨d, hd, hcost⟩ := Option.map_eq_some_iff.mp htrial
    refine ⟨solver, e₀, hsolver, hreached, hhere.costs, ⟨g, hg, hwild⟩, ?_⟩
    refine hhere.refused trivial d _ (Prod.ext (toOption_eq_some.mp hd) rfl) (.inl ?_)
    unfold bringsWildCost at hcost
    split at hcost
    · exact ⟨_, ‹_›, by simpa using hcost⟩
    · cases hcost
  · obtain ⟨solver, hsolver⟩ : ∃ solver, newton.solver fog = some solver := ⟨_, rfl⟩
    obtain ⟨-, hstart, -⟩ := finite_of_reached (.newtonCG _ _) nofun hsolver .plain
      ⟨{}, (), [], false, 0.0⟩ { param := some (.vector .numpy [1.0]) } []
    refine ⟨solver, hsolver, hstart _ _ rfl (.inr ⟨trivial, _, rfl, ?_⟩)⟩
    decide +kernel

end Executor

end Descent
