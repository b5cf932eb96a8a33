import Descent.Proofs.Act.Result
import Descent.Proofs.Exact.Space
import Descent.Proofs.Quadratic.Subproblem

/-!
# The minimiser along the negative gradient

Along the negative gradient the model `gᵀp + ½ pᵀAp` is a parabola in the distance, and the region
leaves of it an interval that begins at the origin.  The Cauchy point is where the parabola is
lowest there (`reduction_le_reach`), be it that the parabola opens downwards, is a line, or has its
bottom within the region or outside.  The matrix need not be symmetric, and it may be given as a
function that computes its products (`Cauchy.step_of_acts`).

So a subproblem solver that was given a radius, a gradient and a Hessian answers with the best step
along the negative gradient that the region has (`Cauchy.next_minimises`).  The bound on what the
step reduces the model by is that of one other step along the gradient, which goes to the boundary
or stops where a curvature of `K` would have the bottom.
-/

open scoped RealInnerProductSpace

namespace Descent

open Act Exact

variable {n : ℕ} {A : Mat n} {g : Vec n} {Δ : ℝ}

/-! ### Within the region -/

theorem reach_nonneg (A : Mat n) (g : Vec n) (hΔ : 0 < Δ) : 0 ≤ reach A g Δ := by
  unfold reach
  by_cases hflat : curvature A g ≤ 0
  · rw [if_pos hflat]
    positivity
  · rw [if_neg hflat]
    rw [not_le] at hflat
    apply le_min <;> positivity

/-- The Cauchy point does not leave the region. -/
theorem reach_mul_le (A : Mat n) (hg : g ≠ 0) (Δ : ℝ) : reach A g Δ * ‖g‖ ≤ Δ := by
  have hnorm : 0 < ‖g‖ := norm_pos_iff.mpr hg
  have hle : reach A g Δ ≤ Δ / ‖g‖ := by
    unfold reach
    by_cases hflat : curvature A g ≤ 0
    · rw [if_pos hflat]
    · rw [if_neg hflat]
      exact min_le_left _ _
  exact (le_div_iff₀ hnorm).mp hle

/-! ### The best step -/

/-- How two steps along the negative gradient compare. -/
theorem reduction_sub_reduction (A : Mat n) (g : Vec n) (s t : ℝ) :
    reduction A g (-s • g) - reduction A g (-t • g) =
      (s - t) * (‖g‖ ^ 2 - curvature A g * (s + t) / 2) := by
  rw [reduction_smul, reduction_smul]
  unfold curvature
  ring

/-- No step along the negative gradient within the region reduces the model by more than the Cauchy
point. -/
theorem reduction_le_reach (hg : g ≠ 0) {t : ℝ} (ht : 0 ≤ t) (hwithin : t * ‖g‖ ≤ Δ) :
    reduction A g (-t • g) ≤ reduction A g (-reach A g Δ • g) := by
  have hnorm : 0 < ‖g‖ := norm_pos_iff.mpr hg
  have hboundary : t ≤ Δ / ‖g‖ := (le_div_iff₀ hnorm).mpr hwithin
  apply sub_nonneg.mp
  rw [reduction_sub_reduction]
  unfold reach
  set κ := curvature A g
  by_cases hflat : κ ≤ 0
  · -- the model falls all the way to the boundary
    rw [if_pos hflat]
    have hbend : κ * (Δ / ‖g‖ + t) ≤ 0 :=
      mul_nonpos_of_nonpos_of_nonneg hflat (add_nonneg (ht.trans hboundary) ht)
    apply mul_nonneg (sub_nonneg.mpr hboundary)
    linarith [sq_nonneg ‖g‖]
  · rw [if_neg hflat]
    rw [not_le] at hflat
    have hbottom : κ * (‖g‖ ^ 2 / κ) = ‖g‖ ^ 2 := mul_div_cancel₀ _ hflat.ne'
    rcases le_total (Δ / ‖g‖) (‖g‖ ^ 2 / κ) with hfar | hnear
    · -- the bottom is outside, and up to the boundary the model falls
      rw [min_eq_left hfar]
      have hbend : κ * (Δ / ‖g‖) ≤ ‖g‖ ^ 2 := by
        rw [← hbottom]
        exact mul_le_mul_of_nonneg_left hfar hflat.le
      have hbend' : κ * t ≤ κ * (Δ / ‖g‖) := mul_le_mul_of_nonneg_left hboundary hflat.le
      apply mul_nonneg (sub_nonneg.mpr hboundary)
      linarith
    · -- the bottom is within the region: what is left is a square
      rw [min_eq_right hnear]
      set b := ‖g‖ ^ 2 / κ
      have hsquare : (b - t) * (‖g‖ ^ 2 - κ * (b + t) / 2) = κ * (b - t) ^ 2 / 2 := by
        rw [← hbottom]
        ring
      rw [hsquare]
      positivity

/-- If the curvature along the gradient is at most `K`, the Cauchy point is as good as a step that
stops where the bottom would be for `K`. -/
theorem decrease_le_reach (hg : g ≠ 0) (hΔ : 0 < Δ) {K : ℝ} (hK : 0 < K)
    (hbound : |curvature A g| ≤ K * ‖g‖ ^ 2) :
    decrease K g Δ ≤ reduction A g (-reach A g Δ • g) := by
  have hnorm : 0 < ‖g‖ := norm_pos_iff.mpr hg
  set t := min (Δ / ‖g‖) (1 / K) with ht
  have hpos : 0 ≤ t := by
    rw [ht]
    positivity
  have hlength : t * ‖g‖ = min Δ (‖g‖ / K) := by
    rw [ht, min_mul_of_nonneg _ _ hnorm.le, div_mul_cancel₀ _ hnorm.ne', one_div_mul_eq_div]
  -- the step `t` along the gradient is one the region and the curvature bound both allow
  have hshort : t * K ≤ 1 := (le_div_iff₀ hK).mp (min_le_right _ _)
  have hbend : t * curvature A g ≤ ‖g‖ ^ 2 :=
    calc t * curvature A g ≤ t * (K * ‖g‖ ^ 2) :=
          mul_le_mul_of_nonneg_left ((le_abs_self _).trans hbound) hpos
      _ = t * K * ‖g‖ ^ 2 := by ring
      _ ≤ 1 * ‖g‖ ^ 2 := mul_le_mul_of_nonneg_right hshort (sq_nonneg _)
      _ = ‖g‖ ^ 2 := one_mul _
  calc decrease K g Δ = t / 2 * ‖g‖ ^ 2 := by
        unfold decrease
        rw [← hlength]
        ring
    _ ≤ t * ‖g‖ ^ 2 - t / 2 * (t * curvature A g) := by
        have hbend' := mul_le_mul_of_nonneg_left hbend (div_nonneg hpos zero_le_two)
        linarith
    _ = reduction A g (-t • g) := by
        rw [reduction_smul]
        unfold curvature
        ring
    _ ≤ reduction A g (-reach A g Δ • g) :=
        reduction_le_reach hg hpos (hlength.trans_le (min_le_left _ _))

/-! ### Representations -/

namespace Cauchy

variable {M σ : Type} [LinearAction Exact (Vec n) M] {h : M}

/-- The step asks for one product with the Hessian. -/
theorem step_of_acts (hh : Acts h A) {r : Exact} {p : Vec n} {kv : List (String × Value Exact)}
    (hstep : step g A r = .ok { param := some p, kv := kv }) :
    step g h r = .ok { param := some p, kv := kv } := by
  -- a matrix is met in one product only
  have hproduct : Space.weightedDot g h g = Space.weightedDot g A g := by
    unfold Space.weightedDot
    rw [hh g]
    rfl
  unfold step at hstep ⊢
  rw [hproduct]
  by_cases hzero : Scalar.isZero (Space.norm g) = true
  · rw [if_pos hzero] at hstep ⊢
    cases hstep
    rfl
  · rw [if_neg hzero] at hstep ⊢
    -- the rest is arithmetic on that product
    obtain ⟨κ, hκ, hstep⟩ := bind_eq_ok.mp hstep
    obtain ⟨τ, hτ, hstep⟩ := bind_eq_ok.mp hstep
    obtain ⟨factor, hfactor, hstep⟩ := bind_eq_ok.mp hstep
    cases hstep
    rw [hκ]
    show (fraction _ κ r >>= _) = _
    rw [hτ]
    show (Scalar.quotient _ _ >>= _) = _
    rw [hfactor]
    rfl

/-- Without a gradient there is nowhere to go. -/
theorem step_zero (h : M) (r : Exact) : step (0 : Vec n) h r = .ok { param := some 0 } := by
  have hzero : Scalar.isZero (Space.norm (0 : Vec n)) = true := by
    rw [norm_eq, norm_zero, isZero_real, decide_eq_true rfl]
  exact if_pos hzero

/-- **The Cauchy point is the best step along the negative gradient.**  A solver that was given a
radius, a gradient and a Hessian, which acts as any real matrix in whatever representation, answers
with a step along the negative gradient within the region, and the model is nowhere lower along the
negative gradient within the region.  Away from a stationary point the step lowers the model by half
of the length of the gradient times the radius, or times the length of the gradient by any bound on
the curvature along it, whichever is less.  Nothing else changes: no evaluation is made. -/
theorem next_minimises (hh : Acts h A) (g : Vec n) (hΔ : 0 < Δ)
    {t : Stage Exact (Vec n) M σ (Region Exact (Vec n) M)}
    (ht : t.memory = ⟨real Δ, some g, some h⟩) :
    ∃ p kv,
      (subproblem (σ := σ)).solver.next.run t = (.ok (some { param := some p, kv := kv }), t) ∧
      (∃ c : ℝ, c ≤ 0 ∧ p = c • g) ∧ ‖p‖ ≤ Δ ∧
      (∀ s, 0 ≤ s → s * ‖g‖ ≤ Δ → form A g p ≤ form A g (-s • g)) ∧
      (g ≠ 0 → ∀ K, 0 < K → |curvature A g| ≤ K * ‖g‖ ^ 2 →
        form A g p ≤ -(0.5 * ‖g‖ * min Δ (‖g‖ / K))) := by
  have hparts : t.memory.parts "CauchyPoint" = .ok (g, h, real Δ) := by
    rw [ht]
    rfl
  have hanswer : ∀ {p kv}, step g h (real Δ) = .ok { param := some p, kv := kv } →
      (subproblem (σ := σ)).solver.next.run t = (.ok (some { param := some p, kv := kv }), t) := by
    intro p kv hstep
    have hnext : ((Region.algorithm "Cauchy point" "CauchyPoint" step).next t.state).run
        ⟨t.memory, t.session⟩ = _ := Region.run_next hparts hstep t.state
    exact Algorithm.run_onStage
      (fun s => some <$> (Region.algorithm "Cauchy point" "CauchyPoint" step).next s)
      (run_bind_of_ok hnext)
  -- at a stationary point the step is zero, and every multiple of the gradient is
  by_cases hg : g = 0
  · subst hg
    refine ⟨0, [], hanswer (step_zero h _), ⟨0, le_rfl, (zero_smul ℝ _).symm⟩, ?_, ?_, ?_⟩
    · rw [norm_zero]
      exact hΔ.le
    · intro s _ _
      rw [smul_zero]
    · intro hne
      exact absurd rfl hne
  · obtain ⟨kv, hstep⟩ := step_eq A hg hΔ
    have hreach := reach_nonneg A g hΔ
    refine ⟨-reach A g Δ • g, kv, hanswer (step_of_acts hh hstep),
      ⟨-reach A g Δ, neg_nonpos.mpr hreach, rfl⟩, ?_, ?_, ?_⟩
    · rw [norm_smul, Real.norm_eq_abs, abs_neg, abs_of_nonneg hreach]
      exact reach_mul_le A hg Δ
    · intro s hs hwithin
      exact neg_le_neg_iff.mp (reduction_le_reach hg hs hwithin)
    · intro _ K hK hbound
      exact le_neg.mp (decrease_le_reach hg hΔ hK hbound)

/-- A shear, which is not symmetric. -/
def shear : Mat 2 := !![1, 1; 0, 1]

/-- With a radius of a half the step for the shear stops at the boundary, and is better than one
that goes half as far. -/
theorem next_minimises_shear :
    ∃ (t : Stage Exact (Vec 2) (Products 2) Unit (Region Exact (Vec 2) (Products 2)))
      (p : Vec 2) (kv : List (String × Value Exact)),
      subproblem.solver.next.run t = (.ok (some { param := some p, kv := kv }), t) ∧
      (∃ c : ℝ, c ≤ 0 ∧ p = c • EuclideanSpace.single 0 1) ∧ ‖p‖ ≤ 1 / 2 ∧
      form shear (EuclideanSpace.single 0 1) p ≤
        form shear (EuclideanSpace.single 0 1) (-(1 / 4 : ℝ) • EuclideanSpace.single 0 1) ∧
      form shear (EuclideanSpace.single 0 1) p ≤
        -(0.5 * ‖(EuclideanSpace.single 0 1 : Vec 2)‖ *
          min (1 / 2) (‖(EuclideanSpace.single 0 1 : Vec 2)‖ / 1)) := by
  let t : Stage Exact (Vec 2) (Products 2) Unit (Region Exact (Vec 2) (Products 2)) :=
    ⟨⟨real (1 / 2), some (EuclideanSpace.single 0 1), some ⟨fun x => .ok (image shear x)⟩⟩, {},
      ⟨{}, (), [], false, real 0⟩⟩
  have hcurvature : |curvature shear (EuclideanSpace.single 0 1)| ≤
      1 * ‖(EuclideanSpace.single 0 1 : Vec 2)‖ ^ 2 := by
    unfold curvature image shear
    simp [EuclideanSpace.inner_single_left]
  obtain ⟨p, kv, hrun, halong, hwithin, hbest, hdecrease⟩ := next_minimises
    (acts_products shear) (EuclideanSpace.single 0 1) (by norm_num : (0 : ℝ) < 1 / 2) (t := t) rfl
  have hne : (EuclideanSpace.single 0 1 : Vec 2) ≠ 0 := by simp
  refine ⟨t, p, kv, hrun, halong, hwithin, hbest (1 / 4) (by norm_num) ?_,
    hdecrease hne 1 one_pos hcurvature⟩
  rw [PiLp.norm_single]
  norm_num

end Cauchy

end Descent
