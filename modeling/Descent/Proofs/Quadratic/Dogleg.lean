import Descent.Proofs.Exact.Space
import Descent.Proofs.Quadratic.Model
import Descent.Subproblem.Dogleg

/-!
# The path of the dogleg

Where the model curves upwards along the negative gradient, the path of the dogleg goes down the
gradient to the bottom of the model there (`bottom`) and on to the Newton step.  `Dogleg.Leads` says
which step each branch answers with, whatever vector the Newton step is: the matrix need not be
symmetric, nor the step solve a linear system (`Dogleg.step_leads`).  The last branch asks for the
larger root of a quadratic.  The bottom lies inside the region and the Newton step outside, so the
quadratic has one root on the way, and that is where the boundary is met
(`Dogleg.norm_leave`, `Dogleg.leave_pos`, `Dogleg.leave_lt_one`).

If the matrix is symmetric and takes the step to the negative gradient, the model on the way from
any step to that one is a parabola in the distance gone (`reduction_toward`).  For a positive
definite matrix it falls all the way, so the dogleg step is sufficient (`Dogleg.solves`).
-/

open scoped RealInnerProductSpace

namespace Descent

open Exact

variable {n : ℕ} {A : Mat n} {g s u d p : Vec n} {Δ : ℝ}

/-! ### The bottom along the negative gradient -/

/-- Where the model is lowest along the negative gradient, if it curves upwards there. -/
noncomputable def bottom (A : Mat n) (g : Vec n) : Vec n :=
  (-‖g‖ ^ 2 / curvature A g) • g

/-- Without a gradient there is no curvature along it. -/
theorem ne_zero_of_curvature_pos (h : 0 < curvature A g) : g ≠ 0 := by
  rintro rfl
  unfold curvature at h
  rw [inner_zero_left] at h
  exact lt_irrefl 0 h

theorem norm_bottom (h : 0 < curvature A g) : ‖bottom A g‖ = ‖g‖ ^ 2 / curvature A g * ‖g‖ := by
  unfold bottom
  rw [norm_smul, norm_div, norm_neg, norm_pow, norm_norm, Real.norm_of_nonneg h.le]

/-- A region that does not reach to the bottom is left on the way there. -/
theorem smul_bottom (h : 0 < curvature A g) :
    (Δ / ‖bottom A g‖) • bottom A g = -(Δ / ‖g‖) • g := by
  have hnorm : 0 < ‖g‖ := norm_pos_iff.mpr (ne_zero_of_curvature_pos h)
  rw [norm_bottom h]
  unfold bottom
  rw [smul_smul]
  congr 1
  field_simp

/-- Where the bottom is outside, the Cauchy point is on the boundary. -/
theorem reach_of_far (h : 0 < curvature A g) (hfar : Δ ≤ ‖bottom A g‖) :
    reach A g Δ = Δ / ‖g‖ := by
  have hnorm : 0 < ‖g‖ := norm_pos_iff.mpr (ne_zero_of_curvature_pos h)
  have hle : Δ / ‖g‖ ≤ ‖g‖ ^ 2 / curvature A g := by
    rw [div_le_iff₀ hnorm, ← norm_bottom h]
    exact hfar
  rw [reach_of_curved h, min_eq_left hle]

/-- Where the bottom is inside, it is the Cauchy point. -/
theorem reach_of_near (h : 0 < curvature A g) (hnear : ‖bottom A g‖ ≤ Δ) :
    -reach A g Δ • g = bottom A g := by
  have hnorm : 0 < ‖g‖ := norm_pos_iff.mpr (ne_zero_of_curvature_pos h)
  have hle : ‖g‖ ^ 2 / curvature A g ≤ Δ / ‖g‖ := by
    rw [le_div_iff₀ hnorm, ← norm_bottom h]
    exact hnear
  unfold bottom
  rw [reach_of_curved h, min_eq_right hle, neg_div]

/-! ### The way to the Newton step -/

/-- The model on the way from any step to one that the matrix takes to the negative gradient. -/
theorem reduction_toward (hA : A.IsSymm) (hs : image A s = -g) (u : Vec n) (t : ℝ) :
    reduction A g (u + t • (s - u)) =
      reduction A g u + (t - t ^ 2 / 2) * curvature A (s - u) := by
  set d := s - u with hd
  have hg : g = -image A (u + d) := by
    rw [hd, add_sub_cancel, hs, neg_neg]
  have hsymm : ⟪d, image A u⟫ = ⟪u, image A d⟫ := by
    rw [← inner_image hA, real_inner_comm]
  unfold reduction form curvature
  rw [hg]
  simp only [map_add, map_smul, inner_add_left, inner_add_right, inner_smul_left, inner_smul_right,
    inner_neg_left, conj_trivial, inner_image hA, hsymm]
  ring

/-- A positive definite model falls on the way from any step to the Newton step. -/
theorem reduction_le_toward (hA : A.PosDef) (hs : image A s = -g) (u : Vec n) {t : ℝ}
    (hzero : 0 ≤ t) (hone : t ≤ 1) : reduction A g u ≤ reduction A g (u + t • (s - u)) := by
  have hcurved : 0 ≤ curvature A (s - u) := inner_nonneg hA (s - u)
  have ht : 0 ≤ t - t ^ 2 / 2 := by nlinarith
  rw [reduction_toward (isSymm_of_posDef hA) hs]
  linarith [mul_nonneg ht hcurved]

namespace Dogleg

/-! ### Leaving the region -/

/-- The larger root of `a t² + 2 b t + c`. -/
noncomputable def root (a b c : ℝ) : ℝ := (-b + √(b ^ 2 - a * c)) / a

/-- The formula for the roots of `a t² + (2 b) t + c`. -/
theorem formula_eq (a b c : ℝ) :
    (-(2 * b) + √(2 * b * (2 * b) - 4 * a * c)) / (2 * a) = root a b c := by
  have hdiscriminant : 2 * b * (2 * b) - 4 * a * c = 2 ^ 2 * (b ^ 2 - a * c) := by ring
  rw [hdiscriminant, Real.sqrt_mul (by norm_num), Real.sqrt_sq zero_le_two, ← mul_neg, ← mul_add,
    mul_div_mul_left _ _ two_ne_zero]
  rfl

section

variable {a b c : ℝ} (ha : 0 < a) (hc : c < 0)

include ha hc

theorem discriminant_pos : 0 < b ^ 2 - a * c := by
  have hproduct : a * c < 0 := mul_neg_of_pos_of_neg ha hc
  linarith [sq_nonneg b]

/-- A quadratic that opens upwards and is negative at zero has its larger root above zero. -/
theorem root_pos : 0 < root a b c := by
  have hroot : b < √(b ^ 2 - a * c) := by
    have hproduct : a * c < 0 := mul_neg_of_pos_of_neg ha hc
    exact Real.lt_sqrt_of_sq_lt (by linarith)
  exact div_pos (by linarith) ha

/-- If it is positive at one, the root is below one. -/
theorem root_lt_one (habc : 0 < a + 2 * b + c) : root a b c < 1 := by
  have hroot : √(b ^ 2 - a * c) < a + b := by
    rw [Real.sqrt_lt' (by linarith)]
    have hsquare : (a + b) ^ 2 = a * (a + 2 * b + c) + (b ^ 2 - a * c) := by ring
    linarith [mul_pos ha habc]
  unfold root
  rw [div_lt_one ha]
  linarith

theorem root_spec : a * (root a b c * root a b c) + 2 * b * root a b c + c = 0 := by
  have hsquare : √(b ^ 2 - a * c) ^ 2 = b ^ 2 - a * c := Real.sq_sqrt (discriminant_pos ha hc).le
  have hroot : a * root a b c = -b + √(b ^ 2 - a * c) := mul_div_cancel₀ _ ha.ne'
  -- completing the square
  have hscaled : a * (a * (root a b c * root a b c) + 2 * b * root a b c + c) = 0 := by
    calc a * (a * (root a b c * root a b c) + 2 * b * root a b c + c)
        = (a * root a b c + b) ^ 2 - (b ^ 2 - a * c) := by ring
      _ = 0 := by rw [hroot, neg_add_eq_sub, sub_add_cancel, hsquare, sub_self]
  exact (mul_eq_zero.mp hscaled).resolve_left ha.ne'

end

section

variable {E : Type} [NormedAddCommGroup E] [InnerProductSpace ℝ E]

/-- How far from `u` in the direction `d` the boundary is. -/
noncomputable def leave (u d : E) (Δ : ℝ) : ℝ :=
  root ⟪d, d⟫ ⟪u, d⟫ (⟪u, u⟫ - Δ ^ 2)

/-- The squared distance on the way is a quadratic in how far it has gone. -/
theorem norm_sq_toward (u d : E) (t : ℝ) :
    ‖u + t • d‖ ^ 2 = ⟪d, d⟫ * (t * t) + 2 * ⟪u, d⟫ * t + ⟪u, u⟫ := by
  rw [norm_add_sq_real, norm_smul, mul_pow, inner_smul_right, real_inner_self_eq_norm_sq,
    real_inner_self_eq_norm_sq, Real.norm_eq_abs, sq_abs]
  ring

variable {u d : E} (hu : ‖u‖ < Δ) (hd : Δ < ‖u + d‖)

include hu

theorem offset_neg : ⟪u, u⟫ - Δ ^ 2 < 0 := by
  rw [real_inner_self_eq_norm_sq, sub_neg]
  exact pow_lt_pow_left₀ hu (norm_nonneg u) two_ne_zero

include hd

theorem leading_pos : 0 < ⟪d, d⟫ := by
  refine real_inner_self_pos.mpr ?_
  rintro rfl
  rw [add_zero] at hd
  exact lt_asymm hu hd

theorem sum_pos : 0 < ⟪d, d⟫ + 2 * ⟪u, d⟫ + (⟪u, u⟫ - Δ ^ 2) := by
  have hsquare : Δ ^ 2 < ‖u + d‖ ^ 2 :=
    pow_lt_pow_left₀ hd ((norm_nonneg u).trans hu.le) two_ne_zero
  have hend := norm_sq_toward u d 1
  rw [one_smul] at hend
  linarith

theorem discriminant_nonneg :
    0 ≤ 2 * ⟪u, d⟫ * (2 * ⟪u, d⟫) - 4 * ⟪d, d⟫ * (⟪u, u⟫ - Δ ^ 2) := by
  have hpos := discriminant_pos (leading_pos hu hd) (b := ⟪u, d⟫) (offset_neg hu)
  linarith

theorem leave_pos : 0 < leave u d Δ := root_pos (leading_pos hu hd) (offset_neg hu)

theorem leave_lt_one : leave u d Δ < 1 :=
  root_lt_one (leading_pos hu hd) (offset_neg hu) (sum_pos hu hd)

/-- The root is where the boundary is met. -/
theorem norm_leave : ‖u + leave u d Δ • d‖ = Δ := by
  have hspec := root_spec (leading_pos hu hd) (b := ⟪u, d⟫) (offset_neg hu)
  have hsquare : ‖u + leave u d Δ • d‖ ^ 2 = Δ ^ 2 := by
    rw [norm_sq_toward]
    exact sub_eq_zero.mp (Eq.trans (by unfold leave; ring) hspec)
  exact (sq_eq_sq₀ (norm_nonneg _) ((norm_nonneg u).trans hu.le)).mp hsquare

end

/-- The discriminant is positive, so that it is not cut off, and so is what the root is divided
by. -/
theorem crossing_eq (hu : ‖u‖ < Δ) (hd : Δ < ‖u + d‖) :
    crossing u d (real Δ) = .ok (real (leave u d Δ)) := by
  have ha := leading_pos hu hd
  have hdiscriminant := discriminant_nonneg hu hd
  have hquotient := quotient_real (x := -(2 * ⟪u, d⟫) +
    √(2 * ⟪u, d⟫ * (2 * ⟪u, d⟫) - 4 * ⟪d, d⟫ * (⟪u, u⟫ - Δ ^ 2))) (mul_pos two_pos ha).ne'
  have htwo : (2.0 : Exact) = real 2 := by
    rw [ofScientific_eq]
    norm_num
  have hfour : (4.0 : Exact) = real 4 := by
    rw [ofScientific_eq]
    norm_num
  unfold crossing
  simp only [dot_eq, square_real, htwo, hfour, zero_eq, real_mul, real_sub, greatest_real,
    max_eq_left hdiscriminant, sqrt_real hdiscriminant, neg_real, real_add, hquotient, formula_eq,
    bind, Except.bind]
  rfl

/-! ### The branches -/

/-- The dogleg step in a region of radius `Δ`, where the Newton step is `s`. -/
inductive Leads (A : Mat n) (g s : Vec n) (Δ : ℝ) : Vec n → Prop where
  | rest (hg : g = 0) : Leads A g s Δ 0
  | straight (hg : g ≠ 0) (hflat : curvature A g ≤ 0) : Leads A g s Δ (-(Δ / ‖g‖) • g)
  | whole (hcurved : 0 < curvature A g) (hin : ‖s‖ ≤ Δ) : Leads A g s Δ s
  | short (hcurved : 0 < curvature A g) (hout : Δ < ‖s‖) (hfar : Δ ≤ ‖bottom A g‖) :
    Leads A g s Δ (-(Δ / ‖g‖) • g)
  | between (hcurved : 0 < curvature A g) (hout : Δ < ‖s‖) (hnear : ‖bottom A g‖ < Δ) :
    Leads A g s Δ (bottom A g + leave (bottom A g) (s - bottom A g) Δ • (s - bottom A g))

variable {M : Type} [LinearAction Exact (Vec n) M] {h : M}

/-- Where the model curves upwards along the gradient, the step is the point of the path. -/
theorem path_leads (hs : LinearAction.newtonStep h g = .ok s)
    (hcurved : 0 < curvature A g) (hΔ : 0 < Δ) :
    ∃ p, path g h (real Δ) (real ‖g‖) (real (curvature A g)) = .ok p ∧ Leads A g s Δ p := by
  have hfactor := quotient_real (x := -‖g‖ ^ 2) hcurved.ne'
  -- the solution is inside, or the bottom along the gradient is outside, or the path crosses
  -- between
  by_cases hin : ‖s‖ ≤ Δ
  · refine ⟨s, ?_, .whole hcurved hin⟩
    unfold path
    simp only [hs, norm_eq, real_le, hin, if_true, bind, Except.bind, pure, Except.pure]
  · have hout : Δ < ‖s‖ := not_le.mp hin
    by_cases hfar : Δ ≤ ‖bottom A g‖
    · have hquotient := quotient_real (x := Δ) (hΔ.trans_le hfar).ne'
      refine ⟨-(Δ / ‖g‖) • g, ?_, .short hcurved hout hfar⟩
      rw [← smul_bottom hcurved]
      unfold bottom at hfar hquotient ⊢
      unfold path
      simp only [hs, norm_eq, real_le, hin, if_false, square_real, neg_real, hfactor, scale_real,
        hfar, if_true, hquotient, bind, Except.bind, pure, Except.pure]
    · have hnear : ‖bottom A g‖ < Δ := not_le.mp hfar
      have hcross : crossing (bottom A g) (s - bottom A g) (real Δ) = _ :=
        crossing_eq hnear (by rwa [add_sub_cancel])
      refine ⟨_, ?_, .between hcurved hout hnear⟩
      unfold bottom at hfar hcross ⊢
      unfold path
      simp only [hs, norm_eq, real_le, hin, if_false, square_real, neg_real, hfactor, scale_real,
        hfar, sub_eq, hcross, add_eq, bind, Except.bind, pure, Except.pure]

/-- The Hessian is asked for one product, and for the Newton step where the model curves upwards
along the gradient. -/
theorem step_leads (hh : Acts h A)
    (hs : 0 < curvature A g → LinearAction.newtonStep h g = .ok s) (hΔ : 0 < Δ) :
    ∃ p, step g h (real Δ) = .ok { param := some p } ∧ Leads A g s Δ p := by
  by_cases hg : g = 0
  · subst hg
    have hzero : Scalar.isZero (Space.norm (0 : Vec n)) = true := by
      rw [norm_eq, norm_zero, isZero_real, decide_eq_true rfl]
    exact ⟨0, if_pos hzero, .rest rfl⟩
  · have hnorm : ‖g‖ ≠ 0 := norm_ne_zero_iff.mpr hg
    have hbend : Space.weightedDot g h g = .ok (real (curvature A g)) := hh.weightedDot_eq g g
    unfold step
    -- without curvature the step goes straight to the boundary
    by_cases hflat : curvature A g ≤ 0
    · have hquotient := quotient_real (x := -Δ) hnorm
      refine ⟨-(Δ / ‖g‖) • g, ?_, .straight hg hflat⟩
      simp only [norm_eq, isZero_real, hnorm, decide_false, Bool.false_eq_true, if_false, hbend,
        if_pos (real_le_zero.mpr hflat), neg_real, hquotient, scale_real, neg_div, bind,
        Except.bind, pure, Except.pure]
    · have hcurved : 0 < curvature A g := not_le.mp hflat
      obtain ⟨p, hp, hleads⟩ := path_leads (hs hcurved) hcurved hΔ
      refine ⟨p, ?_, hleads⟩
      simp only [norm_eq, isZero_real, hnorm, decide_false, Bool.false_eq_true, if_false, hbend,
        if_neg (real_le_zero.not.mpr hflat), hp, bind, Except.bind, pure, Except.pure]

/-- On a positive definite model the dogleg step is at least as good as the Cauchy point. -/
theorem reduction_le_of_leads (hA : A.PosDef) (hs : image A s = -g) (hg : g ≠ 0)
    (hp : Leads A g s Δ p) : reduction A g (-reach A g Δ • g) ≤ reduction A g p := by
  cases hp with
  | rest hzero => exact absurd hzero hg
  | straight _ hflat => exact absurd (inner_pos hA hg) hflat.not_gt
  | whole =>
    have hbetter := reduction_le_toward hA hs (-reach A g Δ • g) zero_le_one le_rfl
    rwa [one_smul, add_sub_cancel] at hbetter
  | short hcurved _ hfar => rw [reach_of_far hcurved hfar]
  | between hcurved hout hnear =>
    have hleaves : Δ < ‖bottom A g + (s - bottom A g)‖ := by rwa [add_sub_cancel]
    rw [reach_of_near hcurved hnear.le]
    exact reduction_le_toward hA hs _ (leave_pos hnear hleaves).le (leave_lt_one hnear hleaves).le

/-- The dogleg step is sufficient. -/
theorem solves : SolvesModel (step : Vec n → Mat n → Exact → _) := by
  intro A hA Λ hΛ g hg Δ hΔ
  obtain ⟨p, hstep, hleads⟩ := step_leads (acts_matrix A) (fun _ => newtonStep_eq g A) hΔ
  refine ⟨p, [], hstep, ?_⟩
  calc decrease Λ g Δ ≤ reduction A g (-reach A g Δ • g) :=
        decrease_le_of_curved hΛ hg (inner_pos hA hg) hΔ
    _ ≤ reduction A g p := reduction_le_of_leads hA (newton_spec hA g) hg hleads

end Dogleg

end Descent
