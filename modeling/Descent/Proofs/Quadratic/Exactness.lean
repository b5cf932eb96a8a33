import Descent.Proofs.Quadratic.Converges
import Descent.Proofs.Run.Lower

/-!
# The trust-region model is exact on quadratics

On a quadratic, convex or not, every iteration of the trust-region method with the Cauchy point does
what it promises (`Quadric.Moves`): the ratio of actual to predicted reduction is one, the step is
taken and lowers the objective, and the working radius is kept or doubled up to its bound.  For the
model is the objective itself, and the Cauchy point reduces it whatever the curvature along the
gradient (`Subproblem.Reduces`).  A run goes on only where the gradient does not count as zero
(`Quadric.Going`), so this is so of all of its iterations (`Quadric.run_exact`).
-/

namespace Descent

open Act Exact

variable {n : ℕ}

/-- The subproblem solver answers a trust-region method with steps that reduce the model, whatever
its curvature. -/
def Subproblem.Reduces {σ μ : Type} (op : Operator Exact (Vec n) (Mat n) σ)
    (sub : Subproblem Exact (Vec n) (Mat n) σ μ) : Prop :=
  ∀ ⦃A : Mat n⦄ ⦃g : Vec n⦄, g ≠ 0 → ∀ ⦃Δ : ℝ⦄, 0 < Δ → ∀ b, ∃ p b₁ b₂,
    (TrustRegion.prepare sub (real Δ) g (some A)).run b = (.ok (), b₁) ∧
      (TrustRegion.solveModel op sub g).run b₁ = (.ok p, b₂) ∧ 0 < reduction A g p

/-- The Cauchy point reduces the model. -/
theorem Method.reduces_cauchy {σ : Type} {op : Operator Exact (Vec n) (Mat n) σ}
    (hop : op.provides .cost = true) :
    (Method.cauchy : Method Exact (Vec n) (Mat n)).subproblem.Reduces op := by
  intro A g hg Δ hΔ b
  obtain ⟨kv, hstep⟩ := Cauchy.step_eq A hg hΔ
  obtain ⟨b₁, b₂, hprepare, hsolve⟩ :=
    Subproblem.solveModel_of_step hop "Cauchy point" "CauchyPoint" hΔ hstep b
  exact ⟨_, b₁, b₂, hprepare, hsolve, reduction_reach_pos A hg hΔ⟩

namespace Quadric

variable {q : Quadric n} {settings : TrustRegion.Settings Exact}
  {sub : Subproblem Exact (Vec n) (Mat n) Unit (Memory Exact (Vec n) (Mat n))} {x y : Vec n}
  {Δ Δ' : ℝ} {e e' u : Executor Exact (Vec n) (Mat n) Unit (Memory Exact (Vec n) (Mat n))}

theorem abstains_trusting (q : Quadric n)
    (sub : Subproblem Exact (Vec n) (Mat n) Unit (Memory Exact (Vec n) (Mat n)))
    (settings : TrustRegion.Settings Exact) : (q.trusting sub settings).Abstains :=
  (Algorithm.abstains_toSolver _).widen

/-- A run goes on from a point with a working radius: the gradient does not count as zero there, and
the point is the best one. -/
structure Going (q : Quadric n) (settings : TrustRegion.Settings Exact) (x : Vec n) (Δ : ℝ)
    (e : Executor Exact (Vec n) (Mat n) Unit (Memory Exact (Vec n) (Mat n))) : Prop where
  stands : q.Stands x e.stage.state
  bestCost : e.stage.state.bestCost = .real (real (q.value x))
  moving : ¬ real ‖q.gradient x‖ ≤ settings.tolerance
  working : (e.stage.memory.trusted settings.radius).working = real Δ
  pos : 0 < Δ
  bound : ¬ settings.maxRadius < real Δ

/-- An iteration from `x` to `y` whose model is exact: the ratio of actual to predicted reduction is
one, the step is taken, the objective falls, and the working radius is kept, or is doubled unless
that exceeds its bound. -/
structure Moves (q : Quadric n) (settings : TrustRegion.Settings Exact) (x y : Vec n) (Δ Δ' : ℝ)
    (e e' : Executor Exact (Vec n) (Mat n) Unit (Memory Exact (Vec n) (Mat n))) : Prop where
  before : q.Stands x e.stage.state
  after : q.Stands y e'.stage.state
  falls : q.value y < q.value x
  ratio : e'.stage.state.kv = [("radius", .real (real Δ')), ("rho", .real (real 1))]
  working : (e.stage.memory.trusted settings.radius).working = real Δ
  working' : (e'.stage.memory.trusted settings.radius).working = real Δ'
  adjusted : Δ' = Δ ∨ real Δ' = Scalar.least (real (2 * Δ)) settings.maxRadius
  le : Δ ≤ Δ'

/-- What is told at the end of an iteration does not bear on where a run goes on. -/
theorem Going.of_untold (h : q.Going settings x Δ e) (huntold : u.untold = e.untold) :
    q.Going settings x Δ u := by
  have hstate : u.stage.state = e.stage.state := congrArg (fun e => e.stage.state) huntold
  have hmemory : u.stage.memory = e.stage.memory := congrArg (fun e => e.stage.memory) huntold
  refine ⟨?_, ?_, h.moving, ?_, h.pos, h.bound⟩
  · exact hstate ▸ h.stands
  · exact hstate ▸ h.bestCost
  · exact hmemory ▸ h.working

theorem Moves.of_untold (h : q.Moves settings x y Δ Δ' e e') (huntold : u.untold = e'.untold) :
    q.Moves settings x y Δ Δ' e u := by
  have hstate : u.stage.state = e'.stage.state := congrArg (fun e => e.stage.state) huntold
  have hmemory : u.stage.memory = e'.stage.memory := congrArg (fun e => e.stage.memory) huntold
  refine ⟨h.before, ?_, h.falls, ?_, h.working, ?_, h.adjusted, h.le⟩
  · exact hstate ▸ h.after
  · exact hstate ▸ h.ratio
  · exact hmemory ▸ h.working'

/-! ### One iteration -/

/-- An iteration with a step that promises to reduce the model is made and its model is exact, and
the run goes on from where it led unless a reason was recorded; where the gradient counts as zero,
that is that the run has converged.  The iteration is completed below an integer ceiling, beside
observers that do not interrupt. -/
theorem Going.iterate_of_solved (hsettings : settings.Valid) (h : q.Going settings x Δ e)
    (hgoing : e.stage.state.reason = .notTerminated) {k : ℕ}
    (hcounter : e.stage.state.curIter = .int k)
    (htarget : ∀ c : ℝ, ∃ met, (Value.real (real c)).le e.stage.state.targetCost = .ok met)
    {p : Vec n} {b₁ b₂ : Bench Exact Unit (TrustRegion.Memory Exact (Memory Exact (Vec n) (Mat n)))}
    (hprepare : (TrustRegion.prepare sub (real Δ) (q.gradient x) (some q.hessian)).run
      ⟨e.stage.memory.trusted settings.radius, e.stage.session⟩ = (.ok (), b₁))
    (hsolve : (TrustRegion.solveModel q.operator sub (q.gradient x)).run b₁ = (.ok p, b₂))
    (hpromised : 0 < reduction q.hessian (q.gradient x) p) :
    ∃ Δ' v, (Executor.iterate (q.trusting sub settings)).run e = (.ok true, v) ∧
      q.Moves settings x (x + p) Δ Δ' e v ∧
      (v.stage.state.reason = .notTerminated → q.Going settings (x + p) Δ' v) ∧
      (real ‖q.gradient (x + p)‖ ≤ settings.tolerance → v.stage.state.reason = .converged) ∧
      ((∀ entry ∈ e.observers, Executor.Quiet entry) →
        ∀ ceiling, e.stage.state.maxIters = .int ceiling → k < ceiling →
          ∃ w, (Executor.step (q.trusting sub settings)).run e = (.ok (), w)) := by
  obtain ⟨Δ', b', hnext, hfalls, hworking', hadjusted, hle, hbound'⟩ :=
    run_next hsettings h.stands h.moving h.pos h.working h.bound hprepare hsolve hpromised
  set y := x + p with hy
  set d := q.arrival y [("radius", .real (real Δ')), ("rho", .real (real 1))] with hd
  set t : Stage Exact (Vec n) (Mat n) Unit (Memory Exact (Vec n) (Mat n)) :=
    ⟨.trust b'.memory.working b'.memory.sub, e.stage.state, b'.session⟩ with ht
  set s := e.stage.state.lowered d (real (q.value y)) k with hs
  -- the model is the cost itself, so the promised fall is the one that is found
  have hlower : real (q.value y) < real (q.value x) := real_lt.mpr hfalls
  have hterminate : (q.trusting sub settings).terminate.run (t.withState s) =
      (.ok (settings.judgement (q.gradient y)), t.withState s) := by
    have hanswer : TrustRegion.terminate settings s =
        .ok (settings.judgement (q.gradient y)) := TrustRegion.terminate_eq settings rfl
    exact Method.run_within_onStage (Memory.trusted settings.radius)
      (fun m => .trust m.working m.sub) (fun s => lift (TrustRegion.terminate settings s))
      (run_lift_eq.mpr ⟨hanswer, rfl⟩)
  -- whether the target is met decides nothing here: either way the merge is of a lower cost
  obtain ⟨met, hmet⟩ := htarget (q.value y)
  obtain ⟨reason, hiterate, hreason, hfinal⟩ := Executor.iterate_of_lower hgoing hcounter h.bestCost
    (Method.run_next_widen hnext) rfl rfl hlower rfl hterminate hmet
  have hafter : q.Stands y { s with reason := reason } := ⟨rfl, rfl, rfl, rfl⟩
  refine ⟨Δ', _, hiterate, ?_, fun hstill => ?_, fun hshort => ?_,
    fun hquiet ceiling hceiling hbelow => ?_⟩
  · exact ⟨h.stands, hafter, hfalls, rfl, h.working, hworking', hadjusted, hle⟩
  · -- the verdict leaves the run going only if the gradient is not short
    have hmoving : ¬ real ‖q.gradient y‖ ≤ settings.tolerance :=
      TrustRegion.not_le_of_judgement (hreason hstill)
    exact ⟨hafter, rfl, hmoving, hworking', h.pos.trans_le hle, hbound'⟩
  · have hjudged : settings.judgement (q.gradient y) = .converged := if_pos hshort
    rw [hjudged] at hfinal
    exact hfinal rfl
  · exact Executor.step_of_lower hiterate hcounter (Int.natCast_nonneg k) h.bestCost hlower rfl
      hceiling hbelow hquiet

/-- An iteration that is due is made and its model is exact, and the run goes on from where it led
unless a reason was recorded.  It is completed below an integer ceiling, beside observers that do
not interrupt. -/
theorem Going.iterate (hsettings : settings.Valid) (hsub : sub.Reduces q.operator)
    (h : q.Going settings x Δ e) (hgoing : e.stage.state.reason = .notTerminated) {k : ℕ}
    (hcounter : e.stage.state.curIter = .int k)
    (htarget : ∀ c : ℝ, ∃ met, (Value.real (real c)).le e.stage.state.targetCost = .ok met) :
    ∃ y Δ' v, (Executor.iterate (q.trusting sub settings)).run e = (.ok true, v) ∧
      q.Moves settings x y Δ Δ' e v ∧
      (v.stage.state.reason = .notTerminated → q.Going settings y Δ' v) ∧
      ((∀ entry ∈ e.observers, Executor.Quiet entry) →
        ∀ ceiling, e.stage.state.maxIters = .int ceiling → k < ceiling →
          ∃ w, (Executor.step (q.trusting sub settings)).run e = (.ok (), w)) := by
  have hnorm : 0 < ‖q.gradient x‖ :=
    lt_trans (by norm_num) (TrustRegion.lt_norm_of_not_stationary hsettings h.moving)
  obtain ⟨p, b₁, b₂, hprepare, hsolve, hpromised⟩ := hsub (norm_pos_iff.mp hnorm) h.pos
    ⟨e.stage.memory.trusted settings.radius, e.stage.session⟩
  obtain ⟨Δ', v, hiterate, hmoves, hgoes, -, hstep⟩ :=
    h.iterate_of_solved hsettings hgoing hcounter htarget hprepare hsolve hpromised
  exact ⟨x + p, Δ', v, hiterate, hmoves, hgoes, hstep⟩

/-! ### A whole run -/

section

variable {Δ₀ : ℝ} {x₀ : Vec n} {memory : Memory Exact (Vec n) (Mat n)}
  {session : Session Exact Unit} {config : Config Exact (Vec n)}
  {observers : List (ObserverEntry Exact (Vec n) (Mat n))} {k : ℕ}

/-- The preparation leads to the start, with the first working radius. -/
theorem reached_of_ready (q : Quadric n)
    (sub : Subproblem Exact (Vec n) (Mat n) Unit (Memory Exact (Vec n) (Mat n)))
    (settings : TrustRegion.Settings Exact) (memory : Memory Exact (Vec n) (Mat n))
    (session : Session Exact Unit) (observers : List (ObserverEntry Exact (Vec n) (Mat n)))
    (hparam : config.param = some x₀) :
    ∃ u kv, Executor.Reached (q.trusting sub settings)
        (.ready memory session config observers) 0 u ∧
      (u.stage.memory.trusted settings.radius).working = settings.radius ∧
      ∃ s, s.param = some x₀ ∧ u.stage.state = q.opened settings s x₀ kv := by
  obtain ⟨kv, m, b, hprepare⟩ := q.run_prepare sub settings
    (e := Executor.begun (q.trusting sub settings) (.ready memory session config observers))
    hparam rfl rfl
  exact ⟨_, kv, Executor.reached_zero.mpr hprepare, rfl, _, hparam, rfl⟩

/-- A run that starts where the gradient does not count as zero goes on from there, with the first
working radius. -/
theorem going_of_ready (sub : Subproblem Exact (Vec n) (Mat n) Unit (Memory Exact (Vec n) (Mat n)))
    (hsettings : settings.Valid) (hparam : config.param = some x₀)
    (hmoving : ¬ real ‖q.gradient x₀‖ ≤ settings.tolerance)
    (h : Executor.Reached (q.trusting sub settings) (.ready memory session config observers) 0 u) :
    u.stage.state.reason = .notTerminated ∧
      ∃ Δ₀, settings.radius = real Δ₀ ∧ q.Going settings x₀ Δ₀ u := by
  obtain ⟨Δ₀, hradius⟩ := exists_real hsettings.finite
  have hpos : 0 < Δ₀ := zero_lt_real.mp (hradius ▸ hsettings.radius)
  obtain ⟨u', kv, hreached, hworking, s, hs, hstate⟩ :=
    reached_of_ready q sub settings memory session observers hparam
  obtain rfl := h.unique hreached
  refine ⟨?_, Δ₀, hradius, ?_, ?_, hmoving, hworking.trans hradius, hpos,
    hradius ▸ hsettings.bound⟩
  · rw [hstate]
    exact if_neg hmoving
  · exact hstate ▸ stands_opened hs hmoving kv
  · rw [hstate]
    rfl

/-- Wherever a run has been without a reason recorded, it goes on from a point with a working
radius. -/
theorem going_of_reached (hsettings : settings.Valid) (hsub : sub.Reduces q.operator)
    (hparam : config.param = some x₀) (hvalid : config.validate = .ok ())
    (h : Executor.Reached (q.trusting sub settings) (.ready memory session config observers) k u)
    (hgoing : u.stage.state.reason = .notTerminated) : ∃ x Δ, q.Going settings x Δ u := by
  induction k generalizing u with
  | zero =>
    have hmoving : ¬ real ‖q.gradient x₀‖ ≤ settings.tolerance := by
      obtain ⟨u', kv, hreached, -, s, -, hstate⟩ :=
        reached_of_ready q sub settings memory session observers hparam
      obtain rfl := h.unique hreached
      rw [hstate] at hgoing
      exact TrustRegion.not_le_of_judgement hgoing
    obtain ⟨-, Δ₀, -, hu⟩ := going_of_ready sub hsettings hparam hmoving h
    exact ⟨x₀, Δ₀, hu⟩
  | succ k ih =>
    -- the last iteration was due, so the run was going on from a point before it
    obtain ⟨v, hv, hdue, hstep⟩ := h.before
    have hstill := Executor.reason_of_due hdue
    obtain ⟨x, Δ, hv'⟩ := ih hv hstill
    obtain ⟨y, Δ', w, hiterate, -, hgoes, -⟩ := hv'.iterate hsettings hsub hstill
      (Executor.standsAt_of_reached (q.abstains_trusting sub settings) hv).counter
      fun c => Executor.decides_target (q.abstains_trusting sub settings) hvalid hv (real c)
    have huntold : u.untold = w.untold := Executor.untold_of_step hiterate hstep
    have hstate : u.stage.state = w.stage.state := congrArg (fun e => e.stage.state) huntold
    exact ⟨y, Δ', (hgoes (hstate ▸ hgoing)).of_untold huntold⟩

end

/-- **The trust-region model is exact on quadratics.**  In exact arithmetic, whatever the curvature
of a quadratic, every iteration of every run of the trust-region method with the Cauchy point on it
moves from a point to another one with a ratio of one: the step is taken, the objective falls, and
the working radius is kept or replaced by the lesser of its double and its bound.  So no step is
rejected and the radius never shrinks.  The run begins at the given point with the given radius, and
with an integer ceiling and observers that do not interrupt it has an outcome. -/
theorem run_exact (q : Quadric n) (x₀ : Vec n) {settings : TrustRegion.Settings Exact}
    (hsettings : settings.Valid)
    {solver : Solver Exact (Vec n) (Mat n) Unit (Memory Exact (Vec n) (Mat n))}
    (hsolver : (Method.trustRegion .cauchy settings).solver q.operator = some solver)
    (memory : Memory Exact (Vec n) (Mat n)) (session : Session Exact Unit)
    (config : Config Exact (Vec n)) (hparam : config.param = some x₀)
    (hvalid : config.validate = .ok ())
    (observers : List (ObserverEntry Exact (Vec n) (Mat n))) :
    (∃ u, Executor.Reached solver (.ready memory session config observers) 0 u ∧
      u.stage.state.param = some x₀ ∧
      u.stage.state.reason = settings.judgement (q.gradient x₀) ∧
      (u.stage.memory.trusted settings.radius).working = settings.radius) ∧
    (∀ k u, Executor.Reached solver (.ready memory session config observers) k u →
      Executor.continues u.stage.state = .ok true →
      ∃ x y Δ Δ' v, (Executor.iterate solver).run u = (.ok true, v) ∧
        q.Moves settings x y Δ Δ' u v ∧
        ∀ w, (Executor.step solver).run u = (.ok (), w) → q.Moves settings x y Δ Δ' u w) ∧
    ((∀ entry ∈ observers, Executor.Quiet entry) →
      ∀ ceiling, config.maxIters = .int ceiling →
        ∃ outcome e', (Executor.run solver).run (.ready memory session config observers) =
          (.ok outcome, e')) := by
  have hsub : (Method.cauchy : Method Exact (Vec n) (Mat n)).subproblem.Reduces q.operator :=
    Method.reduces_cauchy rfl
  obtain rfl : q.trusting Method.cauchy.subproblem settings = solver := Option.some.inj hsolver
  have habstains := q.abstains_trusting Method.cauchy.subproblem settings
  obtain ⟨u₀, kv, hreached, hworking, s, hs, hstate⟩ :=
    reached_of_ready q Method.cauchy.subproblem settings memory session observers hparam
  -- what an iteration that is due does
  have hdo : ∀ k u, Executor.Reached (q.trusting Method.cauchy.subproblem settings)
      (.ready memory session config observers) k u → Executor.continues u.stage.state = .ok true →
      ∃ x Δ, q.Going settings x Δ u ∧ u.stage.state.reason = .notTerminated ∧
        u.stage.state.curIter = .int k ∧
        ∀ c : ℝ, ∃ met, (Value.real (real c)).le u.stage.state.targetCost = .ok met := by
    intro k u hu hdue
    have hgoing := Executor.reason_of_due hdue
    obtain ⟨x, Δ, hx⟩ := going_of_reached hsettings hsub hparam hvalid hu hgoing
    exact ⟨x, Δ, hx, hgoing, (Executor.standsAt_of_reached habstains hu).counter,
      fun c => Executor.decides_target habstains hvalid hu (real c)⟩
  refine ⟨⟨u₀, hreached, ?_, ?_, hworking⟩, fun k u hu hdue => ?_,
    fun hquiet ceiling hceiling => ?_⟩
  · rw [hstate]
    exact hs
  · rw [hstate]
    rfl
  · obtain ⟨x, Δ, hx, hgoing, hcounter, htarget⟩ := hdo k u hu hdue
    obtain ⟨y, Δ', v, hiterate, hmoves, -⟩ := hx.iterate hsettings hsub hgoing hcounter htarget
    refine ⟨x, y, Δ, Δ', v, hiterate, hmoves, fun w hstep => ?_⟩
    exact hmoves.of_untold (Executor.untold_of_step hiterate hstep)
  · have hnumber := congrArg Value.number? hceiling
    refine Executor.run_of_steps habstains hvalid hnumber hreached fun k u hu hdue => ?_
    obtain ⟨x, Δ, hx, hgoing, hcounter, htarget⟩ := hdo k u hu hdue
    obtain ⟨y, Δ', v, -, -, -, hstep⟩ := hx.iterate hsettings hsub hgoing hcounter htarget
    have hmax : u.stage.state.maxIters = .int ceiling :=
      (Executor.maxIters_of_reached habstains hu).trans hceiling
    have hbelow : (k : Int) < ceiling :=
      Executor.lt_of_due hcounter (congrArg Value.number? hmax) hdue
    have hobserved := (Executor.standsAt_of_reached habstains hu).observed
    exact hstep (hobserved ▸ hquiet) ceiling hmax hbelow

/-- A ridge over the line: the objective falls without bound on both sides. -/
noncomputable def ridge : Quadric 1 := ⟨-1, 0, 0, by simp [Matrix.IsSymm]⟩

/-- The default trust-region method goes down the ridge from one: the first iteration is due, and
its model is exact. -/
theorem run_exact_ridge :
    ∃ solver, (Method.trustRegion .cauchy Quadratic.usual).solver ridge.operator = some solver ∧
      (∃ outcome e', (Executor.run solver).run
        (.ready (.region Region.unset) { world := (), elapsed := 0.0 }
          (Quadratic.configured (EuclideanSpace.single 0 1) 3) []) = (.ok outcome, e')) ∧
      ∃ u v, Executor.Reached solver (.ready (.region Region.unset) { world := (), elapsed := 0.0 }
          (Quadratic.configured (EuclideanSpace.single 0 1) 3) []) 0 u ∧
        (Executor.iterate solver).run u = (.ok true, v) ∧
        ∃ x y Δ Δ', ridge.Moves Quadratic.usual x y Δ Δ' u v := by
  obtain ⟨⟨u, hreached, hparam, hreason, -⟩, hiterations, hcompletes⟩ :=
    run_exact ridge (EuclideanSpace.single 0 1) Quadratic.valid_usual rfl (.region Region.unset)
      { world := (), elapsed := 0.0 } (Quadratic.configured (EuclideanSpace.single 0 1) 3) rfl
      (Quadratic.validate_configured _ 3) []
  have hquiet : ∀ entry ∈ ([] : List (ObserverEntry Exact (Vec 1) (Mat 1))), Executor.Quiet entry :=
    fun _ h => absurd h List.not_mem_nil
  refine ⟨_, rfl, hcompletes hquiet 3 rfl, ?_⟩
  have hslope : ridge.gradient (EuclideanSpace.single 0 1) = -EuclideanSpace.single 0 1 := by
    unfold gradient image ridge
    rw [map_neg, LinearMap.neg_apply, Matrix.toLpLin_one, LinearMap.id_apply, sub_zero]
  -- the slope at the start has norm `1`, above the tolerance of `1e-8`
  have hgoing : u.stage.state.reason = .notTerminated := by
    rw [hreason, hslope]
    refine if_neg fun hshort => ?_
    have htolerance : Quadratic.usual.tolerance = real 1e-8 := by
      show Scalar.greatest (real 1e-8) (real 1e-10) = _
      rw [greatest_real]
      norm_num
    rw [htolerance, real_le, norm_neg, PiLp.norm_single] at hshort
    norm_num at hshort
  have habstains := ridge.abstains_trusting Method.cauchy.subproblem Quadratic.usual
  have hdue : Executor.continues u.stage.state = .ok true := by
    have hnot : u.stage.state.terminated = false := congrArg Reason.isTerminal hgoing
    exact Executor.continues_of_reached habstains rfl hreached hnot
  obtain ⟨x, y, Δ, Δ', v, hiterate, hmoves, -⟩ := hiterations 0 u hreached hdue
  exact ⟨u, v, hreached, hiterate, x, y, Δ, Δ', hmoves⟩

end Quadric

end Descent
