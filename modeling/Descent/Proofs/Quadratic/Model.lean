import Descent.Proofs.Exact.Space
import Descent.Proofs.Operator.Transcript
import Descent.Subproblem.Cauchy

/-!
# Quadratic models and objectives

Within a region of radius `Δ` around a point with gradient `g` the model `gᵀp + ½ pᵀAp` of a
positive definite `A` is reduced along the negative gradient by at least `½ ‖g‖ min(Δ, ‖g‖/Λ)`,
where `Λ` bounds the curvature (Nocedal & Wright, Lemma 4.3).  A subproblem solver is to answer with
a step that is as good (`SolvesModel`), as the Cauchy point is (`Cauchy.solves`).

A `Quadric` is an objective `½ xᵀAx - bᵀx + c` of a symmetric matrix, which may curve upwards,
downwards or both.  The quadratic model at any of its points is the objective itself
(`Quadric.value_add`), so what a step promises there is what it makes.
-/

open scoped RealInnerProductSpace

namespace Descent

open Exact

variable {n : ℕ}

/-- The reduction of the model with a gradient and a Hessian that a step promises. -/
noncomputable def reduction (A : Mat n) (g p : Vec n) : ℝ := -form A g p

/-- The curvature of a matrix in any direction is at most `Λ`. -/
structure CurvatureBound (A : Mat n) (Λ : ℝ) : Prop where
  pos : 0 < Λ
  bound : ∀ x, ⟪x, image A x⟫ ≤ Λ * ‖x‖ ^ 2

/-- Every matrix has a bound on its curvature. -/
theorem exists_curvatureBound (A : Mat n) : ∃ Λ, CurvatureBound A Λ := by
  obtain ⟨C, hC, hbound⟩ := (image A).toContinuousLinearMap.bound
  refine ⟨C, hC, fun x => ?_⟩
  calc ⟪x, image A x⟫ ≤ ‖x‖ * ‖image A x‖ := real_inner_le_norm _ _
    _ ≤ ‖x‖ * (C * ‖x‖) := by
      gcongr
      exact hbound x
    _ = C * ‖x‖ ^ 2 := by ring

/-- What a sufficient step reduces the model by. -/
noncomputable def decrease (Λ : ℝ) (g : Vec n) (Δ : ℝ) : ℝ :=
  0.5 * ‖g‖ * min Δ (‖g‖ / Λ)

/-- A way to solve the model of a positive definite Hessian: away from a stationary point it
answers with a step that reduces the model sufficiently. -/
def SolvesModel
    (step : Vec n → Mat n → Exact → Except (Fault Exact) (Delta Exact (Vec n) (Mat n))) : Prop :=
  ∀ ⦃A : Mat n⦄, A.PosDef → ∀ ⦃Λ⦄, CurvatureBound A Λ →
    ∀ ⦃g : Vec n⦄, g ≠ 0 → ∀ ⦃Δ : ℝ⦄, 0 < Δ →
      ∃ p kv, step g A (real Δ) = .ok { param := some p, kv := kv } ∧
        decrease Λ g Δ ≤ reduction A g p

section

variable {A : Mat n} {Λ Δ : ℝ} {g : Vec n}

/-! ### Along the negative gradient -/

theorem reduction_smul (A : Mat n) (g : Vec n) (α : ℝ) :
    reduction A g (-α • g) = α * ‖g‖ ^ 2 - α ^ 2 / 2 * ⟪g, image A g⟫ := by
  unfold reduction form
  rw [map_smul, inner_smul_left, inner_smul_right, inner_smul_right, real_inner_self_eq_norm_sq]
  simp only [conj_trivial]
  ring

/-- A step along the negative gradient that stops short of the minimiser and goes to the boundary,
or to the minimiser, is sufficient. -/
theorem decrease_le_of_along (hΛ : CurvatureBound A Λ) (hg : g ≠ 0)
    (hcurvature : 0 < ⟪g, image A g⟫) (hΔ : 0 < Δ) {α : ℝ}
    (hα : α = min (Δ / ‖g‖) (‖g‖ ^ 2 / ⟪g, image A g⟫)) :
    decrease Λ g Δ ≤ reduction A g (-α • g) := by
  have hnorm : 0 < ‖g‖ := norm_pos_iff.mpr hg
  set κ := ⟪g, image A g⟫ with hκ
  have hpos : 0 < α := by
    rw [hα]
    positivity
  have hshort : α * κ ≤ ‖g‖ ^ 2 := by
    rw [← le_div_iff₀ hcurvature, hα]
    exact min_le_right _ _
  have hlong : min Δ (‖g‖ / Λ) ≤ α * ‖g‖ := by
    -- the minimiser along the gradient is at least as far as the bound on the curvature says
    have hκ' : ‖g‖ / Λ ≤ ‖g‖ ^ 2 / κ * ‖g‖ := by
      rw [div_mul_eq_mul_div, div_le_div_iff₀ hΛ.pos hcurvature]
      nlinarith [hΛ.bound g]
    rw [hα, min_mul_of_nonneg _ _ hnorm.le, div_mul_cancel₀ _ hnorm.ne']
    exact min_le_min_left Δ hκ'
  rw [reduction_smul]
  calc decrease Λ g Δ ≤ 0.5 * ‖g‖ * (α * ‖g‖) := by
        unfold decrease
        gcongr
    _ ≤ α * ‖g‖ ^ 2 - α ^ 2 / 2 * κ := by nlinarith

/-- How far the Cauchy point goes along the negative gradient, in lengths of the gradient: to the
boundary, or to the minimiser where the curvature is positive and that is closer. -/
noncomputable def reach (A : Mat n) (g : Vec n) (Δ : ℝ) : ℝ :=
  if curvature A g ≤ 0 then Δ / ‖g‖ else min (Δ / ‖g‖) (‖g‖ ^ 2 / curvature A g)

theorem reach_of_curved (h : 0 < curvature A g) :
    reach A g Δ = min (Δ / ‖g‖) (‖g‖ ^ 2 / curvature A g) :=
  if_neg h.not_ge

/-- The Cauchy point lies along the negative gradient, whatever the curvature. -/
theorem Cauchy.step_eq (A : Mat n) (hg : g ≠ 0) (hΔ : 0 < Δ) :
    ∃ kv, Cauchy.step g A (real Δ) =
      .ok { param := some (-reach A g Δ • g), kv := kv } := by
  have hnorm : 0 < ‖g‖ := norm_pos_iff.mpr hg
  set κ := ⟪g, image A g⟫ with hκ
  -- the fraction of the radius is the reach along the unit slope
  obtain ⟨τ, hfraction, hτ⟩ : ∃ τ, Cauchy.fraction (real ‖g‖) (real κ) (real Δ) = .ok (real τ) ∧
      τ * Δ / ‖g‖ = reach A g Δ := by
    unfold Cauchy.fraction reach curvature
    rw [← hκ]
    by_cases hcurvature : κ ≤ 0
    · refine ⟨1, ?_, ?_⟩
      · rw [if_pos (real_le_zero.mpr hcurvature), ofScientific_eq]
        norm_num
      · rw [if_pos hcurvature, one_mul]
    · have hquotient := quotient_real (x := ‖g‖ ^ 3) (mul_pos hΔ (not_le.mp hcurvature)).ne'
      refine ⟨min 1 (‖g‖ ^ 3 / (Δ * κ)), ?_, ?_⟩
      · rw [if_neg (real_le_zero.not.mpr hcurvature)]
        simp only [cube_real, real_mul, hquotient, bind, Except.bind, pure, Except.pure,
          ofScientific_eq, least_real]
        norm_num
      · rw [if_neg hcurvature, min_mul_of_nonneg _ _ hΔ.le, ← min_div_div_right hnorm.le, one_mul]
        -- `‖g‖³ / (Δκ)` of the radius is `‖g‖² / κ` times the slope
        congr 1
        field_simp
  have hfactor := quotient_real (x := -τ * Δ) hnorm.ne'
  refine ⟨[("tau", .real (real τ))], ?_⟩
  unfold Cauchy.step
  simp only [norm_eq, isZero_real, hnorm.ne', decide_false, Bool.false_eq_true, if_false,
    weightedDot_eq, ← hκ, hfraction, neg_real, real_mul, hfactor, scale_real, bind, Except.bind,
    pure, Except.pure]
  rw [neg_mul, neg_div, hτ]

/-- Away from a stationary point the Cauchy point reduces the model, whatever the curvature. -/
theorem reduction_reach_pos (A : Mat n) (hg : g ≠ 0) (hΔ : 0 < Δ) :
    0 < reduction A g (-reach A g Δ • g) := by
  have hnorm : 0 < ‖g‖ := norm_pos_iff.mpr hg
  rw [reduction_smul]
  unfold reach curvature
  set κ := ⟪g, image A g⟫ with hκ
  by_cases hcurvature : κ ≤ 0
  · -- without curvature upwards the model falls all the way to the boundary
    rw [if_pos hcurvature]
    have hlinear : 0 < Δ / ‖g‖ * ‖g‖ ^ 2 := by positivity
    have hbend : (Δ / ‖g‖) ^ 2 / 2 * κ ≤ 0 :=
      mul_nonpos_of_nonneg_of_nonpos (by positivity) hcurvature
    linarith
  · rw [if_neg hcurvature]
    have hpositive : 0 < κ := not_le.mp hcurvature
    set α := min (Δ / ‖g‖) (‖g‖ ^ 2 / κ) with hα
    have hpos : 0 < α := lt_min (by positivity) (by positivity)
    -- at most the way to the bottom, where the bend takes half of what the slope gives
    have hshort : α * κ ≤ ‖g‖ ^ 2 := by
      rw [← le_div_iff₀ hpositive]
      exact min_le_right _ _
    have hlinear : 0 < α * ‖g‖ ^ 2 := by positivity
    have hbend : α ^ 2 / 2 * κ ≤ α / 2 * ‖g‖ ^ 2 :=
      calc α ^ 2 / 2 * κ = α / 2 * (α * κ) := by ring
        _ ≤ α / 2 * ‖g‖ ^ 2 := by gcongr
    linarith

/-- Where the model curves upwards along the gradient, the Cauchy point is a sufficient step. -/
theorem decrease_le_of_curved (hΛ : CurvatureBound A Λ) (hg : g ≠ 0) (h : 0 < curvature A g)
    (hΔ : 0 < Δ) : decrease Λ g Δ ≤ reduction A g (-reach A g Δ • g) :=
  decrease_le_of_along hΛ hg h hΔ (reach_of_curved h)

/-- The Cauchy point is sufficient. -/
theorem Cauchy.solves : SolvesModel (Cauchy.step : Vec n → Mat n → Exact → _) := by
  intro A hA Λ hΛ g hg Δ hΔ
  obtain ⟨kv, hstep⟩ := Cauchy.step_eq A hg hΔ
  exact ⟨_, kv, hstep, decrease_le_of_curved hΛ hg (inner_pos hA hg) hΔ⟩

end

/-! ### Quadratic objectives -/

/-- A quadratic objective `½ xᵀAx - bᵀx + c`, convex or not. -/
structure Quadric (n : ℕ) where
  hessian : Mat n
  linear : Vec n
  constant : ℝ
  symmetric : hessian.IsSymm

namespace Quadric

variable (q : Quadric n)

/-- The objective at a point. -/
noncomputable def value (x : Vec n) : ℝ := form q.hessian (-q.linear) x + q.constant

/-- The gradient at a point. -/
noncomputable def gradient (x : Vec n) : Vec n := image q.hessian x - q.linear

/-- The operator that evaluates the objective and its derivatives. -/
noncomputable def operator : Operator Exact (Vec n) (Mat n) Unit where
  label := "Quadratic"
  cost := some fun x => Act.lift (.ok (.real (real (q.value x))))
  gradient := some fun x => Act.lift (.ok (some (q.gradient x)))
  hessian := some fun _ => Act.lift (.ok (some q.hessian))

theorem value_eq (x : Vec n) :
    q.value x = 1 / 2 * ⟪x, image q.hessian x⟫ - ⟪q.linear, x⟫ + q.constant := by
  unfold value form
  rw [inner_neg_left]
  ring

/-- The model at a point is the objective itself. -/
theorem value_add (x p : Vec n) :
    q.value (x + p) = q.value x - reduction q.hessian (q.gradient x) p := by
  have hsymm : ⟪p, image q.hessian x⟫ = ⟪x, image q.hessian p⟫ := by
    rw [← inner_image q.symmetric, real_inner_comm]
  rw [value_eq, value_eq]
  unfold reduction form gradient
  simp only [map_add, inner_add_left, inner_add_right, inner_sub_left, inner_image q.symmetric,
    hsymm]
  ring

variable {q} {μ : Type} (x : Vec n) (b : Bench Exact Unit μ)

/-! ### Evaluations -/

theorem run_costValue :
    (Bench.inSession (Session.costValue q.operator (some x))).run b =
      (.ok (real (q.value x)), ⟨b.memory, b.session.charged .cost ()⟩) := rfl

theorem run_gradient :
    (Bench.inSession (Session.gradient q.operator (some x))).run b =
      (.ok (some (q.gradient x)), ⟨b.memory, b.session.charged .gradient ()⟩) := rfl

theorem run_hessian :
    (Bench.inSession (Session.hessian q.operator (some x))).run b =
      (.ok (some q.hessian), ⟨b.memory, b.session.charged .hessian ()⟩) := rfl

/-! ### States -/

/-- What a state of a run says of the point where it stands. -/
structure Stands (q : Quadric n) (x : Vec n) (s : State Exact (Vec n) (Mat n)) : Prop where
  param : s.param = some x
  cost : s.cost = .real (real (q.value x))
  grad : s.grad = some (q.gradient x)
  hessian : s.hessian = some q.hessian

/-- The answer of an iteration that takes a step to a point. -/
noncomputable def arrival (q : Quadric n) (y : Vec n) (kv : List (String × Value Exact)) :
    Delta Exact (Vec n) (Mat n) where
  param := some y
  cost := some (.real (real (q.value y)))
  grad := some (q.gradient y)
  hessian := some q.hessian
  kv := kv

end Quadric

end Descent
