import Descent.Proofs.Exact.Space
import Descent.Proofs.Quadratic.Model
import Descent.Proofs.Quadratic.Subproblem
import Descent.Proofs.Run.Lower

/-!
# A trust-region iteration on a quadratic

On a quadratic `½ xᵀAx - bᵀx + c` the model of a trust-region method is the objective itself
(`Quadric.value_add`).  So the reduction that a step promises is the one that it makes: the ratio
of the two is one, the step is taken, and the working radius is kept or doubled up to its bound
(`Quadric.run_next`).  On a strictly convex one the step reduces the objective sufficiently
(`Quadratic.run_next`).
-/

open scoped RealInnerProductSpace

namespace Descent

open Act Exact

variable {n : ℕ}

/-- A strictly convex quadratic objective `½ xᵀAx - bᵀx + c`. -/
structure Quadratic (n : ℕ) extends Quadric n where
  posDef : hessian.PosDef
  symmetric := isSymm_of_posDef posDef

namespace Quadratic

/-- The objective is bounded from below. -/
theorem exists_le_value (q : Quadratic n) : ∃ m, ∀ x, m ≤ q.value x := by
  obtain ⟨y, hy⟩ := exists_image q.posDef q.linear
  refine ⟨q.value y, fun x => ?_⟩
  have hgradient : q.gradient y = 0 := by
    unfold Quadric.gradient
    rw [hy, sub_self]
  have hvalue := q.value_add y (x - y)
  have hcurved := inner_nonneg q.posDef (x - y)
  rw [add_sub_cancel, hgradient] at hvalue
  unfold reduction form at hvalue
  rw [inner_zero_left] at hvalue
  linarith

end Quadratic

/-- A gradient that does not count as zero under a tolerance is longer than the least tolerance. -/
theorem lt_norm_of_not_le_greatest {tol : Exact} (htol : Scalar.isNaN tol = false) {g : Vec n}
    (hg : ¬ real ‖g‖ ≤ Scalar.greatest tol absoluteTolerance) : 1e-10 < ‖g‖ := by
  by_contra hle
  have habsolute : real ‖g‖ ≤ (absoluteTolerance : Exact) := real_le.mpr (not_lt.mp hle)
  refine hg ?_
  unfold Scalar.greatest
  by_cases hshort : tol < absoluteTolerance
  · rwa [if_pos hshort]
  · rw [if_neg hshort]
    exact OrderedScalar.le_trans habsolute (OrderedScalar.le_of_not_lt htol rfl hshort)

/-! ### The constants of the method -/

namespace TrustRegion

/-- The constants pass the checks of the method's constructor. -/
structure Settings.Admitted (settings : Settings Exact) : Prop where
  radius : (0.0 : Exact) < settings.radius
  finite : Scalar.isFinite settings.radius = true
  bound : ¬ settings.maxRadius < settings.radius
  threshold : (0.0 : Exact) ≤ settings.eta
  quarter : settings.eta < (0.25 : Exact)

/-- The constants pass the checks of the method's constructor, and the tolerance is a number. -/
structure Settings.Valid (settings : Settings Exact) : Prop extends Settings.Admitted settings where
  gradTol : Scalar.isNaN settings.gradTol = false

/-- The length at which a gradient counts as zero. -/
noncomputable def Settings.tolerance (settings : Settings Exact) : Exact :=
  Scalar.greatest settings.gradTol absoluteTolerance

variable {settings : Settings Exact}

theorem stationary_eq (settings : Settings Exact) (g : Vec n) :
    stationary settings (some g) = .ok (decide (real ‖g‖ ≤ settings.tolerance)) := rfl

/-- What a gradient says of whether to stop. -/
noncomputable def Settings.judgement (settings : Settings Exact) (g : Vec n) : Reason :=
  if real ‖g‖ ≤ settings.tolerance then .converged else .notTerminated

theorem not_le_of_judgement {g : Vec n} (h : settings.judgement g = .notTerminated) :
    ¬ real ‖g‖ ≤ settings.tolerance := by
  intro hshort
  unfold Settings.judgement at h
  rw [if_pos hshort] at h
  cases h

theorem terminate_eq (settings : Settings Exact) {s : State Exact (Vec n) (Mat n)} {g : Vec n}
    (hgrad : s.grad = some g) : terminate settings s = .ok (settings.judgement g) := by
  unfold terminate Settings.judgement
  rw [hgrad, stationary_eq]
  by_cases h : real ‖g‖ ≤ settings.tolerance
  · rw [if_pos h, decide_eq_true h]
    rfl
  · rw [if_neg h, decide_eq_false h]
    rfl

/-- A gradient that does not count as zero has a length that does not depend on it. -/
theorem lt_norm_of_not_stationary (h : settings.Valid) {g : Vec n}
    (hg : ¬ real ‖g‖ ≤ settings.tolerance) : 1e-10 < ‖g‖ :=
  lt_norm_of_not_le_greatest h.gradTol hg

/-- A step that does what the model promises is taken. -/
theorem Settings.Valid.lt_one (h : settings.Valid) : settings.eta < real 1 := by
  refine OrderedScalar.lt_of_lt_of_le h.quarter ?_
  rw [ofScientific_eq, real_le]
  norm_num

/-- A step that does what the model promises keeps the radius, or has it doubled up to its bound,
and so does not shrink it. -/
theorem adjust_one (settings : Settings Exact) {Δ : ℝ} (hΔ : 0 < Δ)
    (hbound : ¬ settings.maxRadius < real Δ) (length : Exact) :
    ∃ Δ', adjust settings (real Δ) (real 1) length = real Δ' ∧
      (Δ' = Δ ∨ real Δ' = Scalar.least (real (2 * Δ)) settings.maxRadius) ∧ Δ ≤ Δ' ∧
      ¬ settings.maxRadius < real Δ' := by
  -- a ratio of `1` never shrinks the radius
  have hgood : ¬ real 1 < (0.25 : Exact) := by
    rw [ofScientific_eq, real_lt]
    norm_num
  have htwice : (2.0 : Exact) * real Δ = real (2 * Δ) := by
    rw [ofScientific_eq, real_mul]
    norm_num
  unfold adjust
  rw [if_neg hgood, htwice]
  split
  · unfold Scalar.least
    split
    · -- the bound lies between two values of the radius, so it is finite
      rename_i hlt
      obtain ⟨y, _, hy, ⟨⟩, hylt⟩ := hlt
      have hle : (Δ : EReal) ≤ y := by
        rw [hy] at hbound
        exact not_lt.mp fun h => hbound (known_lt.mpr h)
      lift y to ℝ using ⟨hylt.ne_top, ((EReal.bot_lt_coe Δ).trans_le hle).ne'⟩
      refine ⟨y, hy, .inr hy.symm, EReal.coe_le_coe_iff.mp hle, ?_⟩
      rw [hy]
      exact OrderedScalar.lt_irrefl _
    · rename_i hnot
      exact ⟨2 * Δ, rfl, .inr rfl, by linarith, hnot⟩
  · exact ⟨Δ, rfl, .inl rfl, le_rfl, hbound⟩

/-- The reduction that a step promises, in whatever representation the Hessian is. -/
theorem predicted_of_acts {M : Type} [LinearAction Exact (Vec n) M] {h : M} {A : Mat n}
    (hh : Acts h A) (g p : Vec n) : predicted g p (some h) = .ok (real (reduction A g p)) := by
  unfold predicted reduction form
  simp only [dot_eq, hh.weightedDot_eq, ofScientific_eq, real_mul, real_add, neg_real, bind,
    Except.bind, pure, Except.pure]

theorem predicted_eq (A : Mat n) (g p : Vec n) :
    predicted g p (some A) = .ok (real (reduction A g p)) :=
  predicted_of_acts (acts_matrix A) g p

/-- The ratio of the actual to a predicted reduction. -/
theorem reductionRatio_real (before after : ℝ) {promised : ℝ} (hpromised : 0 < promised) :
    reductionRatio (.real (real before)) (real after) (real promised) =
      .ok (real ((before - after) / promised)) := by
  have hpositive : (0.0 : Exact) < real promised := zero_lt_real.mpr hpromised
  have hsub : (Value.real (real before)).sub (.real (real after)) =
      .ok (.real (real (before - after))) := by
    show Except.ok (Value.real (real before - real after)) = _
    rw [real_sub]
  unfold reductionRatio
  rw [if_pos ⟨hpositive, isFinite_real⟩, hsub]
  show Scalar.quotient (real (before - after)) (real promised) = _
  rw [quotient_real hpromised.ne']

/-- Where the objective falls by what was promised the ratio is one. -/
theorem reductionRatio_eq (before after : ℝ) {promised : ℝ} (hpromised : 0 < promised)
    (h : before - after = promised) :
    reductionRatio (.real (real before)) (real after) (real promised) = .ok (real 1) := by
  rw [reductionRatio_real before after hpromised, h, div_self hpromised.ne']

/-- No ratio is formed where no reduction was promised, or the new value is not finite. -/
theorem reductionRatio_zero (before : Value Exact) {after : Exact} {promised : ℝ}
    (h : ¬ (0 < promised ∧ Scalar.isFinite after = true)) :
    reductionRatio before after (real promised) = .ok (real 0) := by
  have hnone : ¬ ((0.0 : Exact) < real promised ∧ Scalar.isFinite after = true) := by
    rw [zero_lt_real]
    exact h
  unfold reductionRatio
  rw [if_neg hnone, zero_eq]
  rfl

end TrustRegion

/-- An iteration whose step is promised to reduce the model takes it. -/
theorem Quadric.run_next {q : Quadric n} {settings : TrustRegion.Settings Exact} {μ : Type}
    {sub : Subproblem Exact (Vec n) (Mat n) Unit μ} {x p : Vec n} {Δ : ℝ}
    (hsettings : settings.Valid) {s : State Exact (Vec n) (Mat n)} (hs : q.Stands x s)
    (hmoving : ¬ real ‖q.gradient x‖ ≤ settings.tolerance) (hΔ : 0 < Δ)
    {b b₁ b₂ : Bench Exact Unit (TrustRegion.Memory Exact μ)}
    (hworking : b.memory.working = real Δ) (hbound : ¬ settings.maxRadius < real Δ)
    (hprepare : (TrustRegion.prepare sub (real Δ) (q.gradient x) (some q.hessian)).run b =
      (.ok (), b₁))
    (hsolve : (TrustRegion.solveModel q.operator sub (q.gradient x)).run b₁ = (.ok p, b₂))
    (hpromised : 0 < reduction q.hessian (q.gradient x) p) :
    ∃ Δ' b', (TrustRegion.next q.operator sub settings s).run b =
        (.ok (q.arrival (x + p) [("radius", .real (real Δ')), ("rho", .real (real 1))]), b') ∧
      q.value (x + p) < q.value x ∧ b'.memory.working = real Δ' ∧
      (Δ' = Δ ∨ real Δ' = Scalar.least (real (2 * Δ)) settings.maxRadius) ∧ Δ ≤ Δ' ∧
      ¬ settings.maxRadius < real Δ' := by
  set g := q.gradient x with hg
  have hfall := q.value_add x p
  -- the model is the objective, so the ratio of the two reductions is one
  have hratio := TrustRegion.reductionRatio_eq (q.value x) (q.value (x + p)) hpromised
    (by linarith)
  obtain ⟨Δ', hadjust, hcases, hle, hbound'⟩ :=
    TrustRegion.adjust_one settings hΔ hbound (Space.norm p)
  have hstationary : TrustRegion.stationary settings s.grad = .ok false := by
    rw [hs.grad, TrustRegion.stationary_eq, decide_eq_false hmoving]
  have hgrad : (Space.require s.grad : Except (Fault Exact) _) = .ok g := by
    rw [hs.grad]
    rfl
  have hy : (do Space.add (← Space.require s.param) p) = .ok (x + p) := by
    rw [hs.param]
    rfl
  have hpredicted := TrustRegion.predicted_eq q.hessian g p
  have hrun : (TrustRegion.next q.operator sub settings s).run b =
      (.ok (q.arrival (x + p) [("radius", .real (real Δ')), ("rho", .real (real 1))]),
        ⟨⟨real Δ', b₂.memory.sub⟩,
          ((b₂.session.charged .cost ()).charged .gradient ()).charged .hessian ()⟩) := by
    unfold TrustRegion.next
    rw [run_bind_of_ok (run_lift_eq.mpr ⟨hstationary, rfl⟩), if_neg Bool.false_ne_true,
      run_bind_of_ok (run_lift_eq.mpr ⟨hgrad, rfl⟩)]
    unfold TrustRegion.iterate
    rw [run_bind_of_ok (run_get b)]
    dsimp only
    rw [hworking, hs.hessian, run_bind_of_ok hprepare, run_bind_of_ok hsolve,
      run_bind_of_ok (run_lift_eq.mpr ⟨hy, rfl⟩), run_bind_of_ok (run_costValue _ _),
      run_bind_of_ok (run_lift_eq.mpr ⟨hpredicted, rfl⟩), hs.cost,
      run_bind_of_ok (run_lift_eq.mpr ⟨hratio, rfl⟩), hadjust, if_pos hsettings.lt_one]
    rfl
  exact ⟨Δ', _, hrun, by linarith, rfl, hcases, hle, hbound'⟩

/-- What the preparation answers at a point. -/
noncomputable def Quadric.opening (q : Quadric n) (settings : TrustRegion.Settings Exact)
    (x : Vec n) (kv : List (String × Value Exact)) : Delta Exact (Vec n) (Mat n) where
  cost := some (.real (real (q.value x)))
  grad := some (q.gradient x)
  hessian := if real ‖q.gradient x‖ ≤ settings.tolerance then none else some q.hessian
  termination := if real ‖q.gradient x‖ ≤ settings.tolerance then some .converged else none
  kv := kv

theorem Quadric.run_init {q : Quadric n} {μ : Type} {x : Vec n}
    (settings : TrustRegion.Settings Exact) {s : State Exact (Vec n) (Mat n)}
    (hparam : s.param = some x) (b : Bench Exact Unit (TrustRegion.Memory Exact μ)) :
    ∃ kv b', (TrustRegion.init q.operator settings s).run b =
      (.ok (some (q.opening settings x kv)), b') ∧ b'.memory.working = settings.radius := by
  have hset : (TrustRegion.setWorking settings.radius).run b =
      (.ok (), ⟨⟨settings.radius, b.memory.sub⟩, b.session⟩) := rfl
  have hfinite : checkFinite (real (q.value x)) "Initial cost" = .ok () := if_pos isFinite_real
  have hstationary := TrustRegion.stationary_eq settings (q.gradient x)
  unfold TrustRegion.init opening
  rw [run_bind_of_ok hset, hparam, run_bind_of_ok (run_costValue x _),
    run_bind_of_ok (run_lift_eq.mpr ⟨hfinite, rfl⟩), run_bind_of_ok (run_gradient x _),
    run_bind_of_ok (run_lift_eq.mpr ⟨hstationary, rfl⟩)]
  by_cases hstill : real ‖q.gradient x‖ ≤ settings.tolerance
  · rw [decide_eq_true hstill, if_pos rfl, if_pos hstill, if_pos hstill]
    exact ⟨_, _, rfl, rfl⟩
  · rw [decide_eq_false hstill, if_neg Bool.false_ne_true, if_neg hstill, if_neg hstill,
      run_bind_of_ok (run_hessian x _)]
    exact ⟨_, _, rfl, rfl⟩

/-- The trust-region method on a quadratic, with its memory in that of methods. -/
noncomputable def Quadric.trusting (q : Quadric n)
    (sub : Subproblem Exact (Vec n) (Mat n) Unit (Memory Exact (Vec n) (Mat n)))
    (settings : TrustRegion.Settings Exact) :
    Solver Exact (Vec n) (Mat n) Unit (Memory Exact (Vec n) (Mat n)) :=
  Method.widen (Memory.trusted settings.radius) (fun m => .trust m.working m.sub)
    (TrustRegion.algorithm q.operator sub settings).toSolver

/-- The state after the preparation: its answer is merged as the best point so far, and the run has
converged if the gradient counts as zero. -/
noncomputable def Quadric.opened (q : Quadric n) (settings : TrustRegion.Settings Exact)
    (s : State Exact (Vec n) (Mat n)) (x : Vec n) (kv : List (String × Value Exact)) :
    State Exact (Vec n) (Mat n) :=
  { { s.facing (q.opening settings x kv) with cost := .real (real (q.value x)) }.improve with
    reason := settings.judgement (q.gradient x) }

/-- Where the gradient does not count as zero the preparation tells all of the point. -/
theorem Quadric.stands_opened {q : Quadric n} {settings : TrustRegion.Settings Exact} {x : Vec n}
    {s : State Exact (Vec n) (Mat n)} (hparam : s.param = some x)
    (hmoving : ¬ real ‖q.gradient x‖ ≤ settings.tolerance) (kv : List (String × Value Exact)) :
    q.Stands x (q.opened settings s x kv) := by
  have hhessian : (q.opening settings x kv).hessian = some q.hessian := if_neg hmoving
  refine ⟨hparam, rfl, rfl, ?_⟩
  show (q.opening settings x kv).hessian.or s.hessian = _
  rw [hhessian]
  rfl

theorem Quadric.run_prepare (q : Quadric n) {x : Vec n}
    (sub : Subproblem Exact (Vec n) (Mat n) Unit (Memory Exact (Vec n) (Mat n)))
    (settings : TrustRegion.Settings Exact)
    {e : Executor Exact (Vec n) (Mat n) Unit (Memory Exact (Vec n) (Mat n))}
    (hparam : e.stage.state.param = some x)
    (hbest : e.stage.state.bestCost = .real Scalar.inf)
    (hgoing : e.stage.state.reason = .notTerminated) :
    ∃ kv m session, (Executor.prepare (q.trusting sub settings)).run e =
      (.ok (), e.withStage
        ⟨.trust settings.radius m, q.opened settings e.stage.state x kv, session⟩) := by
  obtain ⟨kv, b, hrun, hworking⟩ := run_init (q := q) settings hparam
    ⟨e.stage.memory.trusted settings.radius, e.stage.session⟩
  set d := q.opening settings x kv with hd
  have hinit : (q.trusting sub settings).init.run e.stage =
      (.ok (some d), ⟨.trust settings.radius b.memory.sub, e.stage.state, b.session⟩) := by
    rw [← hworking]
    exact Method.run_within_onStage (Memory.trusted settings.radius)
      (fun m => .trust m.working m.sub) (TrustRegion.init q.operator settings) hrun
  -- the first cost is finite, so the start is merged as the best point so far
  have hfirst : real (q.value x) < (Scalar.inf : Exact) := known_lt.mpr (EReal.coe_lt_top _)
  have hreason : d.termination.getD .notTerminated = settings.judgement (q.gradient x) := by
    unfold TrustRegion.Settings.judgement
    by_cases hshort : real ‖q.gradient x‖ ≤ settings.tolerance
    · have hend : d.termination = some .converged := if_pos hshort
      rw [hend, if_pos hshort]
      rfl
    · have hgoes : d.termination = none := if_neg hshort
      rw [hgoes, if_neg hshort]
      rfl
  refine ⟨kv, b.memory.sub, b.session, ?_⟩
  rw [Executor.prepare_of_lower hgoing hbest hinit rfl rfl hfirst, hreason]
  rfl

namespace Quadratic

variable {q : Quadratic n} {settings : TrustRegion.Settings Exact} {μ : Type}
  {sub : Subproblem Exact (Vec n) (Mat n) Unit μ} {x : Vec n} {Δ Λ : ℝ}

theorem decrease_pos (hΛ : 0 < Λ) {g : Vec n} (hg : 0 < ‖g‖) (hΔ : 0 < Δ) : 0 < decrease Λ g Δ := by
  unfold decrease
  positivity

/-- Away from the minimiser an iteration takes a step that reduces the objective sufficiently, and
does not shrink the working radius. -/
theorem run_next (hsettings : settings.Valid) (hsub : sub.Sufficient q.operator)
    (hΛ : CurvatureBound q.hessian Λ) {s : State Exact (Vec n) (Mat n)} (hs : q.Stands x s)
    (hmoving : ¬ real ‖q.gradient x‖ ≤ settings.tolerance) (hΔ : 0 < Δ)
    {b : Bench Exact Unit (TrustRegion.Memory Exact μ)} (hworking : b.memory.working = real Δ)
    (hbound : ¬ settings.maxRadius < real Δ) :
    ∃ y Δ' kv b', (TrustRegion.next q.operator sub settings s).run b =
        (.ok (q.arrival y kv), b') ∧
      q.value y + decrease Λ (q.gradient x) Δ ≤ q.value x ∧
      b'.memory.working = real Δ' ∧ Δ ≤ Δ' ∧ ¬ settings.maxRadius < real Δ' := by
  have hnorm : 0 < ‖q.gradient x‖ :=
    lt_trans (by norm_num) (TrustRegion.lt_norm_of_not_stationary hsettings hmoving)
  obtain ⟨p, b₁, b₂, hprepare, hsolve, hdecrease⟩ :=
    hsub q.posDef hΛ (norm_pos_iff.mp hnorm) hΔ b
  have hpromised : 0 < reduction q.hessian (q.gradient x) p :=
    (decrease_pos hΛ.pos hnorm hΔ).trans_le hdecrease
  obtain ⟨Δ', b', hrun, -, hworking', -, hle, hbound'⟩ :=
    Quadric.run_next hsettings hs hmoving hΔ hworking hbound hprepare hsolve hpromised
  have hfall := q.value_add x p
  exact ⟨x + p, Δ', _, b', hrun, by linarith, hworking', hle, hbound'⟩

end Quadratic

end Descent
