import Descent.Proofs.Quadratic.Iteration
import Descent.Proofs.Run.Cut

/-!
# The trust-region method converges on quadratics

A run of the trust-region method on a strictly convex quadratic either has converged or goes on from
its point with a gradient that is longer than the least tolerance and a working radius no smaller
than the first one (`Quadratic.Advances`).  An iteration keeps this, and lowers the objective by an
amount that is the same in all of them (`Quadratic.Advances.step`).  The objective is bounded
from below, so there is a number of iterations within which every run converges
(`Quadratic.run_converges`).
-/

namespace Descent

open Act Exact

variable {n : ℕ}

namespace Quadratic

variable {μ : Type} {q : Quadratic n} {settings : TrustRegion.Settings Exact}
  {sub : Subproblem Exact (Vec n) (Mat n) Unit (Memory Exact (Vec n) (Mat n))} {x : Vec n}
  {Δ₀ Λ : ℝ} {ceiling k : ℕ}
  {e : Executor Exact (Vec n) (Mat n) Unit (Memory Exact (Vec n) (Mat n))}

/-- The state of a run of at most `ceiling` iterations that has made `k` of them and goes on from
`x`. -/
structure Underway (q : Quadratic n) (settings : TrustRegion.Settings Exact) (ceiling k : ℕ)
    (x : Vec n) (s : State Exact (Vec n) (Mat n)) : Prop where
  stands : q.Stands x s
  bestCost : s.bestCost = .real (real (q.value x))
  counter : s.curIter = .int k
  ceiling : s.maxIters = .int ceiling
  target : s.targetCost = .real Scalar.negInf
  reason : s.reason = .notTerminated
  moving : ¬ real ‖q.gradient x‖ ≤ settings.tolerance

/-- The state of a run that has converged at `x` after `k` iterations. -/
structure Arrived (q : Quadratic n) (settings : TrustRegion.Settings Exact) (k : ℕ) (x : Vec n)
    (s : State Exact (Vec n) (Mat n)) : Prop where
  param : s.param = some x
  counter : s.curIter = .int k
  reason : s.reason = .converged
  still : real ‖q.gradient x‖ ≤ settings.tolerance

/-- A run goes on from `x` with a working radius that lies at or above `Δ₀`. -/
structure Advances (q : Quadratic n) (settings : TrustRegion.Settings Exact) (Δ₀ : ℝ)
    (ceiling k : ℕ) (x : Vec n)
    (e : Executor Exact (Vec n) (Mat n) Unit (Memory Exact (Vec n) (Mat n))) : Prop where
  state : Underway q settings ceiling k x e.stage.state
  working : ∃ Δ, (e.stage.memory.trusted settings.radius).working = real Δ ∧ Δ₀ ≤ Δ ∧
    ¬ settings.maxRadius < real Δ
  quiet : ∀ entry ∈ e.observers, Executor.Quiet entry

/-- What the objective falls by in any iteration. -/
noncomputable def fall (Λ Δ₀ : ℝ) : ℝ := 0.5 * 1e-10 * min Δ₀ (1e-10 / Λ)

theorem fall_pos (hΛ : 0 < Λ) (hΔ : 0 < Δ₀) : 0 < fall Λ Δ₀ := by
  unfold fall
  positivity

theorem fall_le_decrease (hΛ : 0 < Λ) (hΔ : 0 < Δ₀) {g : Vec n} (hg : 1e-10 < ‖g‖) {Δ : ℝ}
    (hle : Δ₀ ≤ Δ) : fall Λ Δ₀ ≤ decrease Λ g Δ := by
  unfold fall decrease
  gcongr

/-! ### One iteration -/

/-- The state after a step to a point, before the verdict on it. -/
noncomputable def landed (q : Quadratic n) (s : State Exact (Vec n) (Mat n)) (y : Vec n)
    (kv : List (String × Value Exact)) (k : ℕ) : State Exact (Vec n) (Mat n) :=
  { { s.facing (q.arrival y kv) with cost := .real (real (q.value y)) }.improve with
    curIter := .int (k + 1) }

/-- The state after an iteration that took a step to a point. -/
noncomputable def judged (q : Quadratic n) (settings : TrustRegion.Settings Exact)
    (s : State Exact (Vec n) (Mat n)) (y : Vec n) (kv : List (String × Value Exact)) (k : ℕ) :
    State Exact (Vec n) (Mat n) :=
  { q.landed s y kv k with reason := settings.judgement (q.gradient y) }

section

variable {s : State Exact (Vec n) (Mat n)} {y : Vec n} {kv : List (String × Value Exact)}

/-- A step to a lower point is merged as a new best. -/
theorem Underway.merge (h : Underway q settings ceiling k x s) (kv : List (String × Value Exact))
    (hlt : q.value y < q.value x) :
    ∃ s₁, s.merge (q.arrival y kv) = (.ok true, s₁) ∧
      s₁.incrementIter = .ok (q.landed s y kv k) := by
  have hmerge := State.merge_of_lower (d := q.arrival y kv) h.bestCost rfl (real_lt.mpr hlt)
  exact ⟨_, hmerge, State.incrementIter_of_int h.counter⟩

/-- The verdict on a step to a point depends on the gradient there. -/
theorem Underway.verdict (h : Underway q settings ceiling k x s)
    {m : TrustRegion.Memory Exact (Memory Exact (Vec n) (Mat n))} {session : Session Exact Unit}
    (hstage : e.stage = ⟨.trust m.working m.sub, q.landed s y kv k, session⟩) :
    (Executor.verdict (q.trusting sub settings) (q.arrival y kv)).run e =
      (.ok (settings.judgement (q.gradient y)), e) := by
  have hanswer : TrustRegion.terminate settings (q.landed s y kv k) =
      .ok (settings.judgement (q.gradient y)) := TrustRegion.terminate_eq settings rfl
  have hterminate : (q.trusting sub settings).terminate.run e.stage =
      (.ok (settings.judgement (q.gradient y)), e.stage) := by
    rw [hstage]
    exact Method.run_within_onStage (Memory.trusted settings.radius)
      (fun m => .trust m.working m.sub) (fun s => lift (TrustRegion.terminate settings s))
      (run_lift_eq.mpr ⟨hanswer, rfl⟩)
  -- a target of minus infinity is never reached
  have hmissed : e.stage.state.targetReached = .ok false := by
    rw [hstage]
    show (Value.real (real (q.value y))).le s.targetCost = _
    rw [h.target]
    exact congrArg Except.ok (decide_eq_false not_real_le_negInf)
  refine Executor.verdict_eq_ok.mpr (.inr ⟨rfl, _, e.stage, hterminate, rfl, ?_⟩)
  unfold TrustRegion.Settings.judgement
  split
  · exact .inl ⟨rfl, rfl⟩
  · exact .inr ⟨rfl, false, hmissed, rfl⟩

/-- The state after a step to a lower point passes the check. -/
theorem Underway.check (h : Underway q settings ceiling k x s) (hlt : q.value y < q.value x)
    (hk : k < ceiling) : (q.judged settings s y kv k).check s.curIter s.bestCost = .ok () := by
  have hbelow : (k : Int) < ceiling := by exact_mod_cast hk
  exact State.check_lowered (d := q.arrival y kv) h.bestCost (real_lt.mpr hlt) h.counter
    (Int.natCast_nonneg k) h.ceiling hbelow rfl (settings.judgement (q.gradient y))

theorem Underway.judged (h : Underway q settings ceiling k x s)
    (hmoving : ¬ real ‖q.gradient y‖ ≤ settings.tolerance) :
    Underway q settings ceiling (k + 1) y (q.judged settings s y kv k) :=
  ⟨⟨rfl, rfl, rfl, rfl⟩, rfl, rfl, h.ceiling, h.target, if_neg hmoving, hmoving⟩

theorem arrived_judged (hstill : real ‖q.gradient y‖ ≤ settings.tolerance) :
    Arrived q settings (k + 1) y (q.judged settings s y kv k) :=
  ⟨rfl, rfl, if_pos hstill, hstill⟩

end

/-- An iteration takes a run to a point where the objective is lower, and the run goes on from there
unless that point is the end. -/
theorem Advances.step (hsettings : settings.Valid) (hsub : sub.Sufficient q.operator)
    (hΛ : CurvatureBound q.hessian Λ) (hΔ₀ : 0 < Δ₀)
    (h : Advances q settings Δ₀ ceiling k x e) (hk : k < ceiling) :
    ∃ y e', (Executor.step (q.trusting sub settings)).run e = (.ok (), e') ∧
      q.value y + fall Λ Δ₀ ≤ q.value x ∧
      (Arrived q settings (k + 1) y e'.stage.state ∨
        Advances q settings Δ₀ ceiling (k + 1) y e') := by
  obtain ⟨Δ, hworking, hle, hbound⟩ := h.working
  have hnorm := TrustRegion.lt_norm_of_not_stationary hsettings h.state.moving
  obtain ⟨y, Δ', kv, b, hnext, hfall, hworking', hle', hbound'⟩ :=
    run_next hsettings hsub hΛ h.state.stands h.state.moving (hΔ₀.trans_le hle)
      (b := ⟨e.stage.memory.trusted settings.radius, e.stage.session⟩) hworking hbound
  have hlower : q.value y + fall Λ Δ₀ ≤ q.value x :=
    (add_le_add_right (fall_le_decrease hΛ.pos hΔ₀ hnorm hle) _).trans hfall
  have hlt : q.value y < q.value x := by linarith [fall_pos hΛ.pos hΔ₀]
  obtain ⟨s₁, hmerge, hadvance⟩ := h.state.merge kv hlt
  -- the iteration up to its verdict
  set s' := q.landed e.stage.state y kv k with hs'
  set u : Executor Exact (Vec n) (Mat n) Unit (Memory Exact (Vec n) (Mat n)) :=
    e.withStage ⟨.trust b.memory.working b.memory.sub, s', b.session⟩ with hu
  have hiterate : (Executor.iterate (q.trusting sub settings)).run e =
      (.ok true, u.withState (q.judged settings e.stage.state y kv k)) := by
    refine Executor.iterate_eq_ok.mpr ⟨_, _, s₁, s', _, u, Method.run_next_widen hnext, hmerge,
      hadvance, h.state.verdict rfl, ?_⟩
    exact congrArg _ (State.terminateWith_of_reason (s := s') h.state.reason _).symm
  obtain ⟨e', hdone, huntold⟩ :=
    Executor.step_of_iterate (i := k + 1) hiterate rfl h.quiet fun _ => h.state.check hlt hk
  have hstate : e'.stage.state = q.judged settings e.stage.state y kv k :=
    congrArg (fun e => e.stage.state) huntold
  have hmemory : e'.stage.memory = .trust b.memory.working b.memory.sub :=
    congrArg (fun e => e.stage.memory) huntold
  have hobservers : e'.observers = e.observers := (congrArg Executor.observers huntold :)
  refine ⟨y, e', hdone, hlower, ?_⟩
  by_cases hstill : real ‖q.gradient y‖ ≤ settings.tolerance
  · left
    rw [hstate]
    exact arrived_judged hstill
  · right
    refine ⟨hstate ▸ h.state.judged hstill, ?_, hobservers ▸ h.quiet⟩
    rw [hmemory]
    exact ⟨Δ', hworking', hle.trans hle', hbound'⟩

/-! ### The preparation -/

/-- The configuration of a run from a point, with a ceiling and without a target. -/
noncomputable def configured (x : Vec n) (ceiling : ℕ) : Config Exact (Vec n) :=
  { param := some x, maxIters := .int ceiling }

theorem validate_configured (x : Vec n) (ceiling : ℕ) :
    (configured x ceiling).validate = .ok () := by
  have hceiling : (Value.int ceiling : Value Exact).lt (.int 0) = .ok false :=
    congrArg Except.ok (decide_eq_false (by omega : ¬ (ceiling : Int) < 0))
  have htarget : (Value.real (Scalar.negInf : Exact)).isNaN = .ok false := rfl
  unfold Config.validate configured
  simp only [hceiling, htarget, bind, Except.bind]
  rfl

/-- A run is prepared to go on from the point where it starts, unless that is the end. -/
theorem prepare_of_ready
    (sub : Subproblem Exact (Vec n) (Mat n) Unit (Memory Exact (Vec n) (Mat n)))
    (hradius : settings.radius = real Δ₀) (hbound : ¬ settings.maxRadius < settings.radius)
    (memory : Memory Exact (Vec n) (Mat n)) (session : Session Exact Unit)
    {observers : List (ObserverEntry Exact (Vec n) (Mat n))}
    (hquiet : ∀ entry ∈ observers, Executor.Quiet entry) :
    ∃ e₀, (Executor.prepare (q.trusting sub settings)).run
        (Executor.begun (q.trusting sub settings)
          (.ready memory session (configured x ceiling) observers)) = (.ok (), e₀) ∧
      (Arrived q settings 0 x e₀.stage.state ∨ Advances q settings Δ₀ ceiling 0 x e₀) := by
  set e := Executor.begun (q.trusting sub settings)
    (.ready memory session (configured x ceiling) observers) with he
  have hparam : e.stage.state.param = some x := rfl
  obtain ⟨kv, m, b, hprepare⟩ := q.run_prepare sub settings (e := e) hparam rfl rfl
  refine ⟨_, hprepare, ?_⟩
  -- the run may begin where it is to end
  by_cases hstill : real ‖q.gradient x‖ ≤ settings.tolerance
  · left
    exact ⟨rfl, rfl, if_pos hstill, hstill⟩
  · right
    have hstands : q.Stands x (q.opened settings e.stage.state x kv) :=
      Quadric.stands_opened hparam hstill kv
    exact ⟨⟨hstands, rfl, rfl, rfl, rfl, if_neg hstill, hstill⟩,
      ⟨Δ₀, hradius, le_rfl, hradius ▸ hbound⟩, hquiet⟩

/-! ### A whole run -/

/-- A run from a point has converged within any number of iterations, or has made them and the
objective fell in each. -/
theorem reached_of_ready (hsettings : settings.Valid) (hsub : sub.Sufficient q.operator)
    (hΛ : CurvatureBound q.hessian Λ) (hΔ₀ : 0 < Δ₀) (hradius : settings.radius = real Δ₀)
    (memory : Memory Exact (Vec n) (Mat n)) (session : Session Exact Unit)
    {observers : List (ObserverEntry Exact (Vec n) (Mat n))}
    (hquiet : ∀ entry ∈ observers, Executor.Quiet entry) (j : ℕ) (hj : j ≤ ceiling) :
    let start := Executor.ready memory session (configured x ceiling) observers
    (∃ i ≤ j, ∃ y u, Executor.Reached (q.trusting sub settings) start i u ∧
        Arrived q settings i y u.stage.state) ∨
      ∃ y u, Executor.Reached (q.trusting sub settings) start j u ∧
        Advances q settings Δ₀ ceiling j y u ∧ q.value y + j * fall Λ Δ₀ ≤ q.value x := by
  intro start
  induction j with
  | zero =>
    obtain ⟨u, hprepare, harrived | hadvances⟩ :=
      prepare_of_ready (q := q) sub hradius hsettings.bound memory session hquiet
    · exact .inl ⟨0, le_rfl, x, u, Executor.reached_zero.mpr hprepare, harrived⟩
    · exact .inr ⟨x, u, Executor.reached_zero.mpr hprepare, hadvances, by simp⟩
  | succ j ih =>
    rcases ih (Nat.le_of_succ_le hj) with ⟨i, hi, y, u, hu⟩ | ⟨y, u, hreached, hadvances, hfallen⟩
    · exact .inl ⟨i, Nat.le_succ_of_le hi, y, u, hu⟩
    · obtain ⟨z, v, hdone, hlower, hnext⟩ := hadvances.step hsettings hsub hΛ hΔ₀ hj
      -- the ceiling is not reached yet, and the state is not terminal
      have hdue : Executor.continues u.stage.state = .ok true := by
        have hnot : u.stage.state.terminated = false :=
          congrArg Reason.isTerminal hadvances.state.reason
        rw [Executor.continues_of_reached (Algorithm.abstains_toSolver _).widen rfl hreached hnot]
        exact congrArg Except.ok (decide_eq_true (by exact_mod_cast hj))
      have hmore := hreached.more hdue hdone
      rcases hnext with harrived | hadvances'
      · exact .inl ⟨j + 1, le_rfl, z, v, hmore, harrived⟩
      · refine .inr ⟨z, v, hmore, hadvances', ?_⟩
        push_cast
        linarith

/-- **The trust-region method converges on every strictly convex quadratic.**  In exact arithmetic
there is a number of iterations within which every run on a strictly convex quadratic from a point
converges, whichever of the two methods solves the subproblems, if its ceiling allows for as many:
it ends at a point where the gradient is no longer than the tolerance of the settings, or than the
least tolerance if that is longer. -/
theorem run_converges (q : Quadratic n) (x₀ : Vec n) {settings : TrustRegion.Settings Exact}
    (hsettings : settings.Valid) :
    ∃ N : ℕ, ∀ {sub : Method Exact (Vec n) (Mat n)}, sub = .cauchy ∨ sub = .dogleg →
      ∀ {solver}, (Method.trustRegion sub settings).solver q.operator = some solver →
      ∀ (memory : Memory Exact (Vec n) (Mat n)) (session : Session Exact Unit)
        {observers : List (ObserverEntry Exact (Vec n) (Mat n))},
        (∀ entry ∈ observers, Executor.Quiet entry) → ∀ {ceiling : ℕ}, N ≤ ceiling →
      ∃ outcome e', (Executor.run solver).run (.ready memory session
          { param := some x₀, maxIters := .int ceiling } observers) = (.ok outcome, e') ∧
        outcome.state.reason = .converged ∧
        (∃ k ≤ N, outcome.state.curIter = .int k) ∧
        ∃ x, outcome.state.param = some x ∧
          real ‖q.hessian.toEuclideanLin x - q.linear‖ ≤
            Scalar.greatest settings.gradTol 1e-10 := by
  obtain ⟨Δ₀, hradius⟩ := exists_real hsettings.finite
  obtain ⟨Λ, hΛ⟩ := exists_curvatureBound q.hessian
  -- the objective is bounded below, and each iteration takes off a fixed amount
  obtain ⟨m, hm⟩ := q.exists_le_value
  have hΔ₀ : 0 < Δ₀ := zero_lt_real.mp (hradius ▸ hsettings.radius)
  obtain ⟨N, hN⟩ := exists_nat_gt ((q.value x₀ - m) / fall Λ Δ₀)
  refine ⟨N, fun {sub} hmethod {solver} hsolver memory session observers hquiet ceiling hceiling =>
    ?_⟩
  have hsub : sub.subproblem.Sufficient q.operator := Method.sufficient_subproblem rfl hmethod
  obtain rfl : q.trusting sub.subproblem settings = solver := Option.some.inj hsolver
  obtain ⟨k, hk, x, u, hreached, harrived⟩ :
      ∃ k ≤ N, ∃ x u, Executor.Reached (q.trusting sub.subproblem settings)
        (.ready memory session (configured x₀ ceiling) observers) k u ∧
          Arrived q settings k x u.stage.state := by
    rcases reached_of_ready hsettings hsub hΛ hΔ₀ hradius memory session hquiet N hceiling with
      harrived | ⟨x, u, -, -, hfallen⟩
    · exact harrived
    · -- the objective cannot have fallen that often
      rw [div_lt_iff₀ (fall_pos hΛ.pos hΔ₀)] at hN
      linarith [hm x]
  have hstopped : u.stage.state.terminated = true := congrArg Reason.isTerminal harrived.reason
  have hfuel : k ≤ Executor.fuel (.int ceiling : Value Exact) := by
    have hlt : (ceiling : Int) < Executor.fuel (.int ceiling : Value Exact) :=
      Executor.lt_fuel rfl
    omega
  obtain ⟨outcome, e', hrun, hstate⟩ :=
    Executor.run_of_terminated rfl (validate_configured x₀ ceiling) hreached hfuel hstopped
  refine ⟨outcome, e', hrun, ?_⟩
  rw [hstate]
  exact ⟨harrived.reason, ⟨k, hk, harrived.counter⟩, x, harrived.param, harrived.still⟩

/-- A bowl over the line. -/
noncomputable def unitBowl : Quadratic 1 where
  hessian := 1
  linear := 0
  constant := 0
  posDef := Matrix.PosDef.one

/-- The default constants of the method. -/
noncomputable def usual : TrustRegion.Settings Exact := ⟨1.0, 100.0, 0.125, 1e-8⟩

theorem valid_usual : usual.Valid := by
  refine ⟨⟨?_, isFinite_real, ?_, ?_, ?_⟩, rfl⟩
  · show (real 0.0) < real 1.0
    rw [real_lt]
    norm_num
  · show ¬ real 100.0 < real 1.0
    rw [real_lt]
    norm_num
  · show real 0.0 ≤ real 0.125
    rw [real_le]
    norm_num
  · show real 0.125 < real 0.25
    rw [real_lt]
    norm_num

/-- At one the gradient of the bowl does not count as zero. -/
theorem moving_unitBowl :
    ¬ real ‖unitBowl.gradient (EuclideanSpace.single 0 1)‖ ≤ usual.tolerance := by
  have hslope : unitBowl.gradient (EuclideanSpace.single 0 1) = EuclideanSpace.single 0 1 := by
    unfold Quadric.gradient image unitBowl
    rw [Matrix.toLpLin_one, LinearMap.id_apply, sub_zero]
  intro hshort
  have hle : real ‖unitBowl.gradient (EuclideanSpace.single 0 1)‖ ≤
      Scalar.greatest (real 1e-8) (real 1e-10) := hshort
  rw [hslope, greatest_real, real_le, PiLp.norm_single] at hle
  norm_num at hle

/-- The default trust-region method converges on the bowl over the line, from one. -/
theorem run_converges_unitBowl :
    ∃ N : ℕ, ∃ solver, (Method.trustRegion .cauchy usual).solver unitBowl.operator = some solver ∧
      ∃ outcome e',
        (Executor.run solver).run (.ready (.region Region.unset) { world := (), elapsed := 0.0 }
          { param := some (EuclideanSpace.single 0 1), maxIters := .int N } []) =
            (.ok outcome, e') ∧
        outcome.state.reason = .converged ∧
        (∃ k ≤ N, outcome.state.curIter = .int k) ∧
        ∃ x, outcome.state.param = some x ∧
          real ‖unitBowl.hessian.toEuclideanLin x - unitBowl.linear‖ ≤
            Scalar.greatest usual.gradTol 1e-10 := by
  obtain ⟨N, hN⟩ := run_converges unitBowl (EuclideanSpace.single 0 1) valid_usual
  have hquiet : ∀ entry ∈ ([] : List (ObserverEntry Exact (Vec 1) (Mat 1))), Executor.Quiet entry :=
    fun _ h => absurd h List.not_mem_nil
  exact ⟨N, _, rfl, hN (.inl rfl) rfl _ _ hquiet le_rfl⟩

end Quadratic

end Descent
