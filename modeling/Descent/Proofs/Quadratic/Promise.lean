import Descent.Proofs.Quadratic.Boundary
import Descent.Proofs.Quadratic.Iteration
import Descent.Proofs.Solver.Trial

/-!
# What the steps promise

The Cauchy point promises a reduction of the model whatever its curvature.  The dogleg looks at the
curvature along the gradient only.  Where that is positive its step may be on the way from the
bottom along the gradient to the Newton step, and what is promised there is the mean of what these
two promise, with the weights `(1 - t)²` and `2t - t²` after a part `t` of the way
(`reduction_toward_mean`).  The bottom promises a reduction, and the Newton step one half of
`gᵀA⁻¹g`, which is negative for some matrices that are not positive definite
(`Dogleg.breaks_promise_saddle`).  All other steps of the dogleg promise a reduction
(`Dogleg.Leads.promises`).

So a trust-region iteration forms the ratio of the actual to the predicted reduction unless the cost
it met is not finite, or the step is such a one of the dogleg (`TrustRegion.next_promises`).
-/

open scoped RealInnerProductSpace

namespace Descent

open Act Exact

variable {n : ℕ} {A : Mat n} {g s p : Vec n} {Δ t : ℝ}

/-! ### On the way to a solution -/

/-- What a solution of the linear system promises. -/
theorem reduction_solution (hs : image A s = -g) : reduction A g s = -⟪g, s⟫ / 2 := by
  unfold reduction form
  rw [hs, inner_neg_right, real_inner_comm]
  ring

/-- What the bottom along the gradient promises. -/
theorem reduction_bottom (h : 0 < curvature A g) :
    reduction A g (bottom A g) = ‖g‖ ^ 4 / (2 * curvature A g) := by
  unfold bottom
  rw [neg_div, reduction_smul]
  unfold curvature at h ⊢
  field_simp
  ring

/-- On the way from any step to a solution the promise is a mean of those at its ends. -/
theorem reduction_toward_mean (hA : A.IsSymm) (hs : image A s = -g) (u : Vec n) (t : ℝ) :
    reduction A g (u + t • (s - u)) =
      (1 - t) ^ 2 * reduction A g u + (2 * t - t ^ 2) * reduction A g s := by
  have hend := reduction_toward hA hs u 1
  rw [one_smul, add_sub_cancel] at hend
  rw [reduction_toward hA hs, hend]
  ring

namespace Dogleg

/-- The step is a part `t` of the way from the bottom along the gradient to the solution of the
linear system, where the model curves upwards along the gradient, and what it promises is the mean
of what the ends promise. -/
structure Partway (A : Mat n) (g p : Vec n) (t : ℝ) : Prop where
  curved : 0 < curvature A g
  pos : 0 < t
  le_one : t ≤ 1
  step : p = bottom A g + t • (-image A⁻¹ g - bottom A g)
  promise : reduction A g p = (1 - t) ^ 2 * (‖g‖ ^ 4 / (2 * curvature A g)) +
    (2 * t - t ^ 2) * (⟪g, image A⁻¹ g⟫ / 2)

theorem partway_of_toward (hA : A.IsSymm) (hunit : IsUnit A) (hcurved : 0 < curvature A g)
    (hpos : 0 < t) (hone : t ≤ 1) :
    Partway A g (bottom A g + t • (-image A⁻¹ g - bottom A g)) t where
  curved := hcurved
  pos := hpos
  le_one := hone
  step := rfl
  promise := by
    have hs : image A (-image A⁻¹ g) = -g := by rw [map_neg, image_image_inv hunit]
    rw [reduction_toward_mean hA hs, reduction_bottom hcurved, reduction_solution hs,
      inner_neg_right, neg_neg]

/-- Partway to a solution that promises a reduction, a reduction is promised too. -/
theorem Partway.reduction_pos (h : Partway A g p t) (hsolution : 0 < ⟪g, image A⁻¹ g⟫) :
    0 < reduction A g p := by
  have hpos := h.pos
  have hcurved := h.curved
  have hweight : 0 < 2 * t - t ^ 2 := by nlinarith [h.le_one]
  rw [h.promise]
  positivity

/-- A step of the dogleg promises a reduction, or it is partway to a solution that promises none. -/
theorem Leads.promises (h : Leads A g (-image A⁻¹ g) Δ p) (hA : A.IsSymm) (hunit : IsUnit A)
    (hg : g ≠ 0) (hΔ : 0 < Δ) :
    0 < reduction A g p ∨ ⟪g, image A⁻¹ g⟫ ≤ 0 ∧ ∃ t, Partway A g p t := by
  -- a step on the way to the solution promises a fall if the solution does
  have hpartway : ∀ t, Partway A g p t →
      0 < reduction A g p ∨ ⟪g, image A⁻¹ g⟫ ≤ 0 ∧ ∃ t, Partway A g p t := fun t ht => by
    rcases lt_or_ge 0 ⟪g, image A⁻¹ g⟫ with hsolution | hnone
    · exact .inl (ht.reduction_pos hsolution)
    · exact .inr ⟨hnone, t, ht⟩
  have hboundary := reduction_reach_pos A hg hΔ
  -- every other step of the dogleg promises what the boundary along the slope does
  cases h with
  | rest hzero => exact absurd hzero hg
  | straight _ hflat =>
    unfold reach at hboundary
    rw [if_pos hflat] at hboundary
    exact .inl hboundary
  | whole hcurved =>
    have hwhole := partway_of_toward hA hunit hcurved one_pos le_rfl
    rw [one_smul, add_sub_cancel] at hwhole
    exact hpartway 1 hwhole
  | short hcurved _ hfar =>
    rw [reach_of_far hcurved hfar] at hboundary
    exact .inl hboundary
  | between hcurved hout hnear =>
    have hleaves : Δ < ‖bottom A g + (-image A⁻¹ g - bottom A g)‖ := by rwa [add_sub_cancel]
    exact hpartway _ (partway_of_toward hA hunit hcurved (leave_pos hnear hleaves)
      (leave_lt_one hnear hleaves).le)

/-! ### A saddle -/

/-- A saddle: it curves downwards along the second axis and by `a` along the first. -/
def saddle (a : ℝ) : Mat 2 := !![a, 0; 0, -1]

theorem saddle_symm (a : ℝ) : (saddle a).IsSymm := by
  unfold saddle
  ext i j
  fin_cases i <;> fin_cases j <;> rfl

theorem isUnit_saddle {a : ℝ} (ha : a ≠ 0) : IsUnit (saddle a) := by
  rw [Matrix.isUnit_iff_isUnit_det, saddle, Matrix.det_fin_two_of, isUnit_iff_ne_zero]
  simpa using ha

theorem image_saddle (a x y : ℝ) : image (saddle a) !₂[x, y] = !₂[a * x, -y] := by
  unfold image saddle
  ext i
  fin_cases i <;> simp [Matrix.toLpLin_apply, mul_comm]

/-- The linear system is solved along each axis for itself. -/
theorem image_inv_saddle {a : ℝ} (ha : a ≠ 0) (x y : ℝ) :
    -image (saddle a)⁻¹ !₂[x, y] = !₂[-(x / a), y] := by
  refine (eq_inv_of_image (isUnit_saddle ha) ?_).symm
  rw [image_saddle, mul_neg, mul_div_cancel₀ _ ha]
  ext i
  fin_cases i <;> rfl

/-- **A dogleg step may promise that the model rises.**  On a saddle that curves by two along the
first axis, with the gradient one along both axes, the curvature along the gradient is positive and
the Newton step is within a region of radius two, so the step is the Newton step, which goes up to
the saddle point: the promise is minus a quarter, and no ratio is formed, whatever the costs are. -/
theorem breaks_promise_saddle :
    (saddle 2).IsSymm ∧ IsUnit (saddle 2) ∧ (!₂[1, 1] : Vec 2) ≠ 0 ∧
    LinearAction.newtonStep (saddle 2) !₂[1, 1] = .ok (-image (saddle 2)⁻¹ !₂[1, 1]) ∧
    ∃ (t : Stage Exact (Vec 2) (Mat 2) Unit (Region Exact (Vec 2) (Mat 2))) (p : Vec 2),
      t.memory = ⟨real 2, some !₂[1, 1], some (saddle 2)⟩ ∧
      subproblem.solver.next.run t = (.ok (some { param := some p }), t) ∧
      TrustRegion.predicted !₂[1, 1] p (some (saddle 2)) = .ok (real (-1 / 4)) ∧
      ∀ before after : ℝ, TrustRegion.reductionRatio (.real (real before)) (real after)
        (real (-1 / 4)) = .ok (real 0) := by
  have hunit : IsUnit (saddle 2) := isUnit_saddle two_ne_zero
  set g : Vec 2 := !₂[1, 1] with hg
  have hslope : g ≠ 0 := by
    intro h
    have hentry := congrFun (congrArg WithLp.ofLp h) 0
    simp [hg] at hentry
  have hsolve := newtonStep_eq_inv hunit g
  have hcurved : curvature (saddle 2) g = 1 := by
    unfold curvature
    rw [hg, image_saddle]
    simp [PiLp.inner_apply, Fin.sum_univ_two]
    norm_num
  -- the solution `(-1/2, 1)` lies within the radius
  have hin : ‖-image (saddle 2)⁻¹ g‖ ≤ 2 := by
    rw [hg, image_inv_saddle two_ne_zero, EuclideanSpace.norm_eq, Real.sqrt_le_left (by norm_num)]
    simp [Fin.sum_univ_two]
    norm_num
  let t : Stage Exact (Vec 2) (Mat 2) Unit (Region Exact (Vec 2) (Mat 2)) :=
    ⟨⟨real 2, some g, some (saddle 2)⟩, {}, ⟨{}, (), [], false, real 0⟩⟩
  obtain ⟨p, hrun, hleads⟩ :=
    run_next (t := t) (acts_matrix (saddle 2)) (fun _ => hsolve) two_pos rfl
  obtain rfl : p = -image (saddle 2)⁻¹ g := hleads.eq_whole (by rw [hcurved]; exact one_pos) hin
  have hpromise : reduction (saddle 2) g (-image (saddle 2)⁻¹ g) = -1 / 4 := by
    have hs : image (saddle 2) (-image (saddle 2)⁻¹ g) = -g := by
      rw [map_neg, image_image_inv hunit]
    rw [reduction_solution hs, hg, image_inv_saddle two_ne_zero]
    simp [PiLp.inner_apply, Fin.sum_univ_two]
    norm_num
  refine ⟨saddle_symm 2, hunit, hslope, hsolve, t, _, rfl, hrun, ?_, fun before after => ?_⟩
  · rw [TrustRegion.predicted_eq, hpromise]
  · exact TrustRegion.reductionRatio_zero _ fun h => absurd h.1 (by norm_num)

end Dogleg

/-! ### What a trust-region iteration is handed -/

section

variable {M σ : Type} [LinearAction Exact (Vec n) M] {h : M} {sub : Method Exact (Vec n) M}
  {op : Operator Exact (Vec n) M σ}

/-- Both methods that are subproblem solvers hand back a step that promises a reduction, but for a
dogleg step that is partway to a solution that promises none. -/
theorem Method.hands_promise (hsub : sub = .cauchy ∨ sub = .dogleg) (hop : op.provides .cost = true)
    (hA : A.IsSymm) (hunit : IsUnit A) (hh : Acts h A)
    (hsolve : sub = .dogleg → LinearAction.newtonStep h g = .ok (-image A⁻¹ g)) (hg : g ≠ 0)
    (hΔ : 0 < Δ) (b : Bench Exact σ (TrustRegion.Memory Exact (Memory Exact (Vec n) M))) :
    ∃ p b₁ b₂, (TrustRegion.prepare sub.subproblem (real Δ) g (some h)).run b = (.ok (), b₁) ∧
      (TrustRegion.solveModel op sub.subproblem g).run b₁ = (.ok p, b₂) ∧
      (0 < reduction A g p ∨
        sub = .dogleg ∧ ⟪g, image A⁻¹ g⟫ ≤ 0 ∧ ∃ t, Dogleg.Partway A g p t) := by
  rcases hsub with rfl | rfl
  · obtain ⟨kv, hstep⟩ := Cauchy.step_eq A hg hΔ
    obtain ⟨b₁, b₂, hprepare, hrun⟩ := Subproblem.solveModel_of_step hop "Cauchy point"
      "CauchyPoint" hΔ (Cauchy.step_of_acts hh hstep) b
    exact ⟨_, b₁, b₂, hprepare, hrun, .inl (reduction_reach_pos A hg hΔ)⟩
  · obtain ⟨p, hstep, hleads⟩ := Dogleg.step_leads hh (fun _ => hsolve rfl) hΔ
    obtain ⟨b₁, b₂, hprepare, hrun⟩ :=
      Subproblem.solveModel_of_step hop "Dogleg" "Dogleg" hΔ hstep b
    exact ⟨p, b₁, b₂, hprepare, hrun, (hleads.promises hA hunit hg hΔ).imp_right fun h => ⟨rfl, h⟩⟩

variable {x : Vec n} {before : ℝ}
  {b : Bench Exact σ (TrustRegion.Memory Exact (Descent.Memory Exact (Vec n) M))}

/-- **Every step but some of the dogleg predicts progress.**  With a symmetric and nonsingular
Hessian, definite or not, and a Newton step that solves the linear system, the step handed back to a
trust-region method promises a reduction of the model.  The one exception is a dogleg step that is
partway from the bottom along the gradient to a solution `-A⁻¹g` with `gᵀA⁻¹g ≤ 0`, whose promise is
the mean of what these two promise.  If the iteration answers, what it tells is the ratio of the
actual to the predicted reduction wherever a reduction was promised and the cost is finite, and zero
otherwise. -/
theorem TrustRegion.next_promises (hsub : sub = .cauchy ∨ sub = .dogleg)
    (hop : op.provides .cost = true) (hA : A.IsSymm) (hunit : IsUnit A) (hh : Acts h A)
    (hsolve : sub = .dogleg → LinearAction.newtonStep h g = .ok (-image A⁻¹ g)) (hg : g ≠ 0)
    (hΔ : 0 < Δ) (settings : Settings Exact) {st : State Exact (Vec n) M}
    (hparam : st.param = some x) (hcost : st.cost = .real (real before)) (hgrad : st.grad = some g)
    (hhessian : st.hessian = some h) (hworking : b.memory.working = real Δ) :
    ∃ p b₁ b₂, (prepare sub.subproblem (real Δ) g (some h)).run b = (.ok (), b₁) ∧
      (solveModel op sub.subproblem g).run b₁ = (.ok p, b₂) ∧
      predicted g p (some h) = .ok (real (reduction A g p)) ∧
      (0 < reduction A g p ∨
        sub = .dogleg ∧ ⟪g, image A⁻¹ g⟫ ≤ 0 ∧ ∃ t, Dogleg.Partway A g p t) ∧
      ∀ d b', stationary settings (some g) = .ok false →
        (next op sub.subproblem settings st).run b = (.ok d, b') →
        ∃ c b₃ radius ratio,
          (Bench.inSession (Session.costValue op (some (x + p)))).run b₂ = (.ok c, b₃) ∧
          d.kv = [("radius", .real radius), ("rho", .real (real ratio))] ∧
          (0 < reduction A g p → Scalar.isFinite c = true →
            ratio = (before - c.toReal) / reduction A g p) ∧
          (¬ (0 < reduction A g p ∧ Scalar.isFinite c = true) → ratio = 0) := by
  obtain ⟨p, b₁, b₂, hprepare, hrun, hpromise⟩ :=
    Method.hands_promise hsub hop hA hunit hh hsolve hg hΔ b
  have hmodel := predicted_of_acts hh g p
  refine ⟨p, b₁, b₂, hprepare, hrun, hmodel, hpromise, fun d b' hmoving hnext => ?_⟩
  -- the iteration is made, with the step that was handed back
  obtain ⟨g', hg', hiterate⟩ : ∃ g', st.grad = some g' ∧
      (iterate op sub.subproblem settings st g').run b = (.ok d, b') := by
    rcases next_eq_ok.mp hnext with ⟨hstationary, -, -⟩ | ⟨-, hmade⟩
    · rw [hgrad, hmoving] at hstationary
      cases hstationary
    · exact hmade
  obtain rfl : g = g' := Option.some.inj (hgrad.symm.trans hg')
  obtain ⟨x', step, y, cost, promised, ratio, after, htrial, -, hanswer⟩ :=
    trial_of_iterate hiterate
  obtain ⟨c₁, c₂, hprepare', hrun', hcosts⟩ := htrial.handed
  rw [hworking, hhessian, hprepare] at hprepare'
  cases hprepare'
  rw [hrun] at hrun'
  cases hrun'
  obtain rfl : x = x' := Option.some.inj (hparam.symm.trans htrial.point)
  obtain rfl : x + p = y := Except.ok.inj htrial.leads
  have hpromised := htrial.model
  rw [hhessian, hmodel] at hpromised
  cases hpromised
  have hmeasured := htrial.measured
  rw [hcost] at hmeasured
  have hkv : d.kv = told b'.memory.working ratio := by
    rcases hanswer with ⟨-, g', h', -, -, rfl⟩ | ⟨-, rfl⟩ <;> rfl
  by_cases hformed : 0 < reduction A g p ∧ Scalar.isFinite cost = true
  · obtain ⟨value, rfl⟩ := exists_real hformed.2
    rw [reductionRatio_real before value hformed.1] at hmeasured
    cases hmeasured
    refine ⟨_, after, _, _, hcosts, hkv, fun _ _ => ?_, fun hnot => absurd hformed hnot⟩
    rw [toReal_real]
  · rw [reductionRatio_zero _ hformed] at hmeasured
    cases hmeasured
    exact ⟨_, after, _, _, hcosts, hkv, fun hpos hfinite => absurd ⟨hpos, hfinite⟩ hformed,
      fun _ => rfl⟩

end

/-- The saddle as an objective. -/
noncomputable def Dogleg.saddled (a : ℝ) : Quadric 2 := ⟨saddle a, 0, 0, saddle_symm a⟩

/-- From a point of the axis along which the saddle curves upwards, the dogleg hands back a step
that promises a reduction. -/
theorem TrustRegion.next_promises_saddle :
    ∃ p b₁ b₂,
      (prepare (Method.dogleg : Method Exact (Vec 2) (Mat 2)).subproblem (real 2) !₂[1, 0]
        (some (Dogleg.saddle 2))).run ⟨⟨real 2, .plain⟩, { world := (), elapsed := 0.0 }⟩ =
          (.ok (), b₁) ∧
      (solveModel (Dogleg.saddled 2).operator
        (Method.dogleg : Method Exact (Vec 2) (Mat 2)).subproblem !₂[1, 0]).run b₁ =
          (.ok p, b₂) ∧
      0 < reduction (Dogleg.saddle 2) !₂[1, 0] p := by
  let st : State Exact (Vec 2) (Mat 2) := {
    param := some !₂[1 / 2, 0]
    cost := .real (real (1 / 4))
    grad := some !₂[1, 0]
    hessian := some (Dogleg.saddle 2) }
  let b : Bench Exact Unit (TrustRegion.Memory Exact (Descent.Memory Exact (Vec 2) (Mat 2))) :=
    ⟨⟨real 2, .plain⟩, { world := (), elapsed := 0.0 }⟩
  have hunit : IsUnit (Dogleg.saddle 2) := Dogleg.isUnit_saddle two_ne_zero
  have hsub : (Method.dogleg : Method Exact (Vec 2) (Mat 2)) = .cauchy ∨
      (Method.dogleg : Method Exact (Vec 2) (Mat 2)) = .dogleg := .inr rfl
  have hgradient : (!₂[1, 0] : Vec 2) ≠ 0 := by
    intro h
    have hentry := congrFun (congrArg WithLp.ofLp h) 0
    simp at hentry
  obtain ⟨p, b₁, b₂, hprepare, hrun, -, hpromise, -⟩ := next_promises hsub
    (rfl : (Dogleg.saddled 2).operator.provides .cost = true) (Dogleg.saddle_symm 2) hunit
    (acts_matrix _) (fun _ => newtonStep_eq_inv hunit _) hgradient two_pos
    ⟨1.0, 100.0, 0.125, 1e-8⟩ (rfl : st.param = some !₂[1 / 2, 0])
    (rfl : st.cost = .real (real (1 / 4))) rfl rfl (rfl : b.memory.working = real 2)
  refine ⟨p, b₁, b₂, hprepare, hrun, hpromise.resolve_right ?_⟩
  rintro ⟨-, hnone, -⟩
  -- along the first axis the saddle bends upwards, and the solution lies on it
  have hsolution : ⟪(!₂[1, 0] : Vec 2), image (Dogleg.saddle 2)⁻¹ !₂[1, 0]⟫ = 1 / 2 := by
    rw [← neg_neg (image (Dogleg.saddle 2)⁻¹ !₂[1, 0]), Dogleg.image_inv_saddle two_ne_zero]
    simp [PiLp.inner_apply, Fin.sum_univ_two]
  rw [hsolution] at hnone
  norm_num at hnone

end Descent
