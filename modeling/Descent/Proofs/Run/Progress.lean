import Descent.Proofs.Run.Faithful
import Descent.Proofs.Solver.Progress

/-!
# Runs of the trust-region method

A run of the trust-region method stands at its best point wherever it has been
(`State.AtBest`): the preparation leads there, and an iteration either goes to a point with a lower
cost, which replaces everything that belongs to the point, or leaves all of that as it is
(`TrustRegion.Accepts`, `TrustRegion.Rejects`).  So the cost never increases.
-/

namespace Descent

variable {R V M σ μ : Type} [Scalar R]

/-- The current cost is finite and the best one, and the current point is where it was met. -/
structure State.AtBest (s : State R V M) : Prop where
  cost : ∃ c, s.cost = .real c ∧ Scalar.isFinite c = true ∧ s.bestCost = .real c
  param : s.bestParam = s.param

namespace TrustRegion

/-- The iteration left everything as it was but the diagnostics and how far the run has come. -/
def Rejects (s s' : State R V M) : Prop :=
  s' = { s with kv := s'.kv, curIter := s'.curIter, reason := s'.reason }

variable {op : Operator R V M σ} {s s' : State R V M} {d : Delta R V M} {b : Bool}

/-- A finite cost that is merged first is the best one. -/
theorem atBest_of_opens [ReductionScalar R] (hbest : s.bestCost = .real Scalar.inf)
    (hd : Opens s d) (h : s.merge d = (.ok b, s')) : s'.AtBest := by
  obtain ⟨-, c, hcost, hfinite⟩ := hd
  have hlt : c < Scalar.inf := ReductionScalar.lt_inf hfinite
  rw [State.merge_of_ok hcost rfl, State.mergeCost_of_lt (s := s.facing d) hbest hlt] at h
  cases h
  exact ⟨⟨c, rfl, hfinite, rfl⟩, rfl⟩

theorem rejects_of_still (hd : d.Still) (h : s.merge d = (.ok b, s')) (curIter : Value R)
    (reason : Reason) : Rejects s { s' with curIter := curIter, reason := reason } := by
  obtain rfl := State.merge_still hd h
  rfl

theorem Rejects.atBest (hs : s.AtBest) (h : Rejects s s') : s'.AtBest := by
  rw [Rejects] at h
  rw [h]
  exact ⟨hs.cost, hs.param⟩

variable [Space R V] [LinearAction R V M]

/-- The iteration took its step: the model promises a reduction, the cost of the new point is finite
and lower, and the state has everything of the new point. -/
inductive Accepts (op : Operator R V M σ) (s : State R V M) : State R V M → Prop
  | intro {x grad step y : V} {before cost promised : R} {grad' : Option V} {hessian' : Option M}
      (kv : List (String × Value R)) (curIter : Value R) (reason : Reason)
      (point : s.param = some x) (slope : s.grad = some grad)
      (leads : Space.add x step = .ok y)
      (model : predicted grad step s.hessian = .ok promised) (promises : (0.0 : R) < promised)
      (finite : Scalar.isFinite cost = true) (known : s.cost = .real before)
      (lower : cost < before) (costs : (Session.costValue op (some y)).Answers cost)
      (slopes : (Session.gradient op (some y)).Answers grad')
      (bends : (Session.hessian op (some y)).Answers hessian') :
      Accepts op s
        { s with
          param := some y
          prevParam := s.param
          bestParam := some y
          cost := .real cost
          prevCost := s.cost
          bestCost := .real cost
          prevBestCost := s.bestCost
          lastBestIter := s.curIter
          grad := grad'.or s.grad
          hessian := hessian'.or s.hessian
          kv := kv
          curIter := curIter
          reason := reason }

/-- From the best point a step that is taken leads to the best point. -/
theorem accepts_of_takes (hs : s.AtBest) (hd : Takes op s d) (h : s.merge d = (.ok b, s'))
    (curIter : Value R) (reason : Reason) :
    Accepts op s { s' with curIter := curIter, reason := reason } := by
  obtain ⟨c, hc, -, hbest⟩ := hs.cost
  cases hd with
  | intro point slope leads model promises finite lower costs slopes bends =>
    have hlt := lower c hc
    rw [State.merge_of_ok rfl rfl, State.mergeCost_of_lt (s := s.facing _) hbest hlt] at h
    cases h
    exact .intro _ curIter reason point slope leads model promises finite hc hlt costs slopes bends

theorem Accepts.atBest (h : Accepts op s s') : s'.AtBest := by
  cases h with
  | intro kv curIter reason point slope leads model promises finite =>
    exact ⟨⟨_, rfl, finite, rfl⟩, rfl⟩

theorem Accepts.lower (h : Accepts op s s') :
    ∃ c c', s.cost = .real c ∧ s'.cost = .real c' ∧ c' < c := by
  cases h with
  | intro kv curIter reason point slope leads model promises finite known lower =>
    exact ⟨_, _, known, rfl, lower⟩

/-- A step is not both taken and left, for the cost where it leads is another one. -/
theorem Accepts.not_rejects [OrderedScalar R] (h : Accepts op s s') : ¬ Rejects s s' := by
  intro hrejects
  obtain ⟨c, c', hc, hc', hlt⟩ := h.lower
  have hsame : s'.cost = .real c := (congrArg State.cost hrejects).trans hc
  rw [hc'] at hsame
  cases hsame
  exact OrderedScalar.lt_irrefl c hlt

end TrustRegion

namespace Executor

open TrustRegion

variable {op : Operator R V M σ} {solver : Solver R V M σ μ} {e e' : Executor R V M σ μ}
  {opens steps : State R V M → Delta R V M → Prop}

theorem atBest_of_prepare [ReductionScalar R] (hsolver : solver.Answers Opens steps)
    (hbest : e.stage.state.bestCost = .real Scalar.inf)
    (h : (prepare solver).run e = (.ok (), e')) : e'.stage.state.AtBest := by
  obtain ⟨d, b, s, r, hopens, hmerge, hstate⟩ := merged_of_prepare hsolver h
  have hs := atBest_of_opens hbest hopens hmerge
  rw [hstate]
  exact ⟨hs.cost, hs.param⟩

section

variable [Space R V] [LinearAction R V M]
  (hsolver : solver.Answers opens fun s d => Takes op s d ∨ d.Still)

include hsolver

/-- From the best point an iteration goes to a better one, or stays. -/
theorem accepts_or_rejects (he : e.stage.state.AtBest) (h : (step solver).run e = (.ok (), e')) :
    Accepts op e.stage.state e'.stage.state ∨ Rejects e.stage.state e'.stage.state := by
  obtain ⟨d, -, b, s, k, r, -, hsteps, hmerge, hstate⟩ := merged_of_next hsolver h
  rw [hstate]
  rcases hsteps with htakes | hstill
  · exact .inl (accepts_of_takes he htakes hmerge k r)
  · exact .inr (rejects_of_still hstill hmerge k r)

theorem atBest_of_step (he : e.stage.state.AtBest) (h : (step solver).run e = (.ok (), e')) :
    e'.stage.state.AtBest := by
  rcases accepts_or_rejects hsolver he h with haccepts | hrejects
  · exact haccepts.atBest
  · exact hrejects.atBest he

/-- An iteration from the best point leads to a cost that is not above the one before. -/
theorem cost_le_of_step [ReductionScalar R] (he : e.stage.state.AtBest)
    (h : (step solver).run e = (.ok (), e')) :
    ∃ c c', e.stage.state.cost = .real c ∧ e'.stage.state.cost = .real c' ∧ c' ≤ c := by
  rcases accepts_or_rejects hsolver he h with haccepts | hrejects
  · obtain ⟨c, c', hc, hc', hlt⟩ := haccepts.lower
    exact ⟨c, c', hc, hc', OrderedScalar.le_of_lt hlt⟩
  · obtain ⟨c, hc, hfinite, -⟩ := he.cost
    have hknown := (OrderedScalar.known_of_lt (ReductionScalar.lt_inf hfinite)).1
    exact ⟨c, c, hc, (congrArg State.cost hrejects).trans hc, OrderedScalar.le_refl hknown⟩

/-- Nor do any number of iterations. -/
theorem cost_le_of_iterated [ReductionScalar R] {k : Nat} (he : e.stage.state.AtBest)
    (h : Iterated solver e k e') :
    ∃ c c', e.stage.state.cost = .real c ∧ e'.stage.state.cost = .real c' ∧ c' ≤ c := by
  obtain ⟨c, hc, hfinite, -⟩ := he.cost
  have hknown := (OrderedScalar.known_of_lt (ReductionScalar.lt_inf hfinite)).1
  have hreached : e'.stage.state.AtBest ∧ ∃ c', e'.stage.state.cost = .real c' ∧ c' ≤ c := by
    refine h.induct (P := fun e' => e'.stage.state.AtBest ∧ ∃ c', e'.stage.state.cost = .real c' ∧
      c' ≤ c) ?_ ⟨he, c, hc, OrderedScalar.le_refl hknown⟩
    rintro e₁ e₂ ⟨hbest, c₁, hc₁, hle⟩ - hstep
    obtain ⟨c₁', c₂, hc₁', hc₂, hle'⟩ := cost_le_of_step hsolver hbest hstep
    obtain rfl : c₁' = c₁ := Value.real.inj (hc₁'.symm.trans hc₁)
    exact ⟨atBest_of_step hsolver hbest hstep, c₂, hc₂, OrderedScalar.le_trans hle' hle⟩
  obtain ⟨-, c', hc', hle⟩ := hreached
  exact ⟨c, c', hc, hc', hle⟩

end

/-! ### Trust-region methods that a constructor made -/

variable {W : Type} [Space Float V] [LinearAction Float V W] {op : Operator Float V W σ}

theorem answers_of_construct {args : Arguments V W} {rig : Rig Float V W}
    {solver : Solver Float V W σ (Memory Float V W)} (hrig : Construct.trustRegion args = .ok rig)
    (hsolver : rig.method.solver op = some solver) :
    solver.Answers Opens fun s d => Takes op s d ∨ d.Still := by
  obtain ⟨sub, settings, eta, hmethod, hzero, hquarter, heta⟩ := Construct.trustRegion_eq_ok hrig
  rw [hmethod] at hsolver
  cases hsolver
  exact (TrustRegion.answers (Construct.zero_le_of_threshold hzero hquarter heta)).widen

/-- A run of the trust-region method never half-applies a step.  Wherever it has been it stands at
its best point, and an iteration from there either goes to a point where the model promises a
reduction and the cost is finite and lower, with the gradient and the Hessian answered there, or
leaves everything but the diagnostics as it was.  So the cost never increases, and the run ends at
its best point. -/
theorem progress_of_reached {args : Arguments V W} {rig : Rig Float V W}
    {solver : Solver Float V W σ (Memory Float V W)} (hrig : Construct.trustRegion args = .ok rig)
    (hsolver : rig.method.solver op = some solver) (memory : Memory Float V W)
    (session : Session Float σ) (config : Config Float V)
    (observers : List (ObserverEntry Float V W)) :
    (∀ k e, Reached solver (ready memory session config observers) k e →
      e.stage.state.AtBest ∧
        (∀ e', (step solver).run e = (.ok (), e') →
          Accepts op e.stage.state e'.stage.state ∨ Rejects e.stage.state e'.stage.state) ∧
        ∀ n e', Iterated solver e n e' →
          ∃ c c', e.stage.state.cost = .real c ∧ e'.stage.state.cost = .real c' ∧ c' ≤ c) ∧
      ∀ outcome e', (run solver).run (ready memory session config observers) = (.ok outcome, e') →
        outcome.state.AtBest := by
  have hanswers := answers_of_construct hrig hsolver
  have hatBest : ∀ k e, Reached solver (ready memory session config observers) k e →
      e.stage.state.AtBest := fun k e h =>
    h.induct (fun _ hprepare => atBest_of_prepare hanswers rfl hprepare)
      fun _ _ he _ hstep => atBest_of_step hanswers he hstep
  refine ⟨fun k e h => ⟨hatBest k e h, fun _ => accepts_or_rejects hanswers (hatBest k e h),
    fun _ _ => cost_le_of_iterated hanswers (hatBest k e h)⟩, fun outcome e' h => ?_⟩
  -- closing the run leaves the cost and the point alone
  obtain ⟨k, u, r, hreached, hstate⟩ := state_of_run h
  rw [hstate]
  exact ⟨(hatBest k u hreached).cost, (hatBest k u hreached).param⟩

/-- The trust-region method that is made of no arguments accepts its first step down the bowl. -/
theorem progress_of_reached_bowl :
    ∃ rig e₀ e₁, Construct.trustRegion [] = .ok rig ∧ rig.method.solver bowl = some cauchySolver ∧
      Reached cauchySolver overBowl 0 e₀ ∧ (step cauchySolver).run e₀ = (.ok (), e₁) ∧
      e₀.stage.state.AtBest ∧ Accepts bowl e₀.stage.state e₁.stage.state := by
  have hrig : Construct.trustRegion ([] : Arguments (Tensor Float) (Curvature Float)) =
      .ok ⟨.trustRegion .cauchy cauchyTrust, .trust 1.0 (.region Region.unset)⟩ := rfl
  have hsolver : (Method.trustRegion .cauchy cauchyTrust).solver bowl = some cauchySolver := rfl
  obtain ⟨hreached, -⟩ := progress_of_reached hrig hsolver .plain ⟨{}, (), [], false, 0.0⟩
    { param := some (.vector .numpy [2.0]) } []
  obtain ⟨e₀, e₁, hprepare, -, hstep, hmoved⟩ := moves_overBowl
  have h₀ := reached_zero.mpr hprepare
  obtain ⟨hbest, hsteps, -⟩ := hreached 0 e₀ h₀
  refine ⟨_, e₀, _, hrig, hsolver, h₀, hstep, hbest, ?_⟩
  rcases hsteps _ hstep with haccepts | hrejects
  · exact haccepts
  · -- the step was not rejected, for the point is another one
    exact absurd (congrArg State.param hrejects) hmoved

end Executor

end Descent
