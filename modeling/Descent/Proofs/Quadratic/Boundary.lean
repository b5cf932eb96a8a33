import Descent.Proofs.Quadratic.Cauchy
import Mathlib.Algebra.Order.Star.Real

/-!
# The dogleg step and the boundary

The dogleg step lies within the region whatever the Newton step is, and on its boundary unless it is
the Newton step or there is no gradient (`Dogleg.next_within`).  Where the step is on the way to the
Newton step, the quadratic that is solved for the boundary opens upwards and has a discriminant that
is not negative, and the root that is taken lies strictly between the ends (`Dogleg.Meets`).

On a positive definite model, if the Newton step solves the linear system, the step is at least as
good as the Cauchy point in the same region, and it is the minimiser of the model wherever the
region has it (`Dogleg.next_le_cauchy`).  The two steps come from different cases.  Where the Newton
step is outside and the bottom along the gradient too, they are the same; where the bottom is
inside, it is the Cauchy point, and from there the model falls on the way to the Newton step.
-/

open scoped RealInnerProductSpace

namespace Descent

open Act Exact

variable {n : ℕ} {A : Mat n} {g s u d p q : Vec n} {Δ : ℝ}

/-- A subproblem solver that was given a model answers with the step for it and changes nothing. -/
theorem Region.run_ofRegion {R V M σ : Type} [Scalar R] {name label : String}
    {step : V → M → R → Except (Fault R) (Delta R V M)} {t : Stage R V M σ (Region R V M)}
    {g : V} {h : M} {r : R} {d : Delta R V M} (hparts : t.memory.parts label = .ok (g, h, r))
    (hstep : step g h r = .ok d) :
    (Subproblem.ofRegion (Region.algorithm name label step)).solver.next.run t =
      (.ok (some d), t) :=
  Algorithm.run_onStage (fun s => some <$> (Region.algorithm name label step).next s)
    (run_bind_of_ok (Region.run_next (b := ⟨t.memory, t.session⟩) hparts hstep t.state))

/-- A step that the matrix takes to the negative gradient is the only minimiser of a positive
definite model. -/
theorem form_lt_of_ne (hA : A.PosDef) (hs : image A s = -g) (hq : q ≠ s) :
    form A g s < form A g q := by
  have htoward := reduction_toward (isSymm_of_posDef hA) hs q 1
  rw [one_smul, add_sub_cancel] at htoward
  have hcurved : 0 < curvature A (s - q) := inner_pos hA (sub_ne_zero.mpr hq.symm)
  unfold reduction at htoward
  linarith

namespace Dogleg

/-! ### Within the region -/

/-- A step along the gradient that goes to the boundary. -/
theorem norm_straight (hg : g ≠ 0) (hΔ : 0 < Δ) : ‖-(Δ / ‖g‖) • g‖ = Δ := by
  have hnorm : ‖g‖ ≠ 0 := norm_ne_zero_iff.mpr hg
  rw [norm_smul, norm_neg, norm_div, norm_norm, Real.norm_of_nonneg hΔ.le, div_mul_cancel₀ _ hnorm]

/-- The step is on the boundary unless it is the Newton step. -/
theorem Leads.on_boundary (h : Leads A g s Δ p) (hΔ : 0 < Δ) (hg : g ≠ 0) (hp : p ≠ s) :
    ‖p‖ = Δ := by
  cases h with
  | rest hzero => exact absurd hzero hg
  | straight => exact norm_straight hg hΔ
  | whole => exact absurd rfl hp
  | short => exact norm_straight hg hΔ
  | between _ hout hnear => exact norm_leave hnear (by rwa [add_sub_cancel])

theorem Leads.within (h : Leads A g s Δ p) (hΔ : 0 < Δ) : ‖p‖ ≤ Δ := by
  cases h with
  | rest =>
    rw [norm_zero]
    exact hΔ.le
  | straight hg => exact (norm_straight hg hΔ).le
  | whole _ hin => exact hin
  | short hcurved => exact (norm_straight (ne_zero_of_curvature_pos hcurved) hΔ).le
  | between _ hout hnear => exact (norm_leave hnear (by rwa [add_sub_cancel])).le

/-- The way from `u` in the direction `d` meets the boundary strictly between its ends, where the
quadratic that is solved has its larger root. -/
structure Meets (u d : Vec n) (Δ τ : ℝ) : Prop where
  divisor : 0 < 2 * ⟪d, d⟫
  discriminant : 0 ≤ 2 * ⟪u, d⟫ * (2 * ⟪u, d⟫) - 4 * ⟪d, d⟫ * (⟪u, u⟫ - Δ ^ 2)
  crossing : crossing u d (real Δ) = .ok (real τ)
  pos : 0 < τ
  lt_one : τ < 1

theorem meets_leave (hu : ‖u‖ < Δ) (hd : Δ < ‖u + d‖) : Meets u d Δ (leave u d Δ) where
  divisor := mul_pos two_pos (leading_pos hu hd)
  discriminant := discriminant_nonneg hu hd
  crossing := crossing_eq hu hd
  pos := leave_pos hu hd
  lt_one := leave_lt_one hu hd

/-- Where the bottom along the gradient is inside and the Newton step outside, the step is between
them. -/
theorem Leads.eq_between (h : Leads A g s Δ p) (hcurved : 0 < curvature A g) (hout : Δ < ‖s‖)
    (hnear : ‖bottom A g‖ < Δ) :
    p = bottom A g + leave (bottom A g) (s - bottom A g) Δ • (s - bottom A g) := by
  cases h with
  | rest hzero => exact absurd hzero (ne_zero_of_curvature_pos hcurved)
  | straight _ hflat => exact absurd hcurved hflat.not_gt
  | whole _ hin => exact absurd hout hin.not_gt
  | short _ _ hfar => exact absurd hnear hfar.not_gt
  | between => rfl

variable {M σ : Type} [LinearAction Exact (Vec n) M] {h : M}
  {t : Stage Exact (Vec n) M σ (Region Exact (Vec n) M)}

/-- A solver that was given a model answers with the step that its branches lead to. -/
theorem run_next (hh : Acts h A) (hs : 0 < curvature A g → LinearAction.newtonStep h g = .ok s)
    (hΔ : 0 < Δ) (ht : t.memory = ⟨real Δ, some g, some h⟩) :
    ∃ p, (subproblem (σ := σ)).solver.next.run t = (.ok (some { param := some p }), t) ∧
      Leads A g s Δ p := by
  have hparts : t.memory.parts "Dogleg" = .ok (g, h, real Δ) := by
    rw [ht]
    rfl
  obtain ⟨p, hstep, hleads⟩ := step_leads hh hs hΔ
  exact ⟨p, Region.run_ofRegion hparts hstep, hleads⟩

/-- **The dogleg step never leaves the trust region.**  For a Hessian that acts as any real matrix,
symmetric or not, and answers a request for the Newton step with any vector, the step lies within
the region, and on its boundary if there is a gradient and the step is not that vector.  Where the
bottom of the model along the gradient is inside and that vector outside, the step lies strictly
between them: the root is formed without cutting off the discriminant and without a division by
zero. -/
theorem next_within (hh : Acts h A) (g : Vec n)
    (hs : 0 < curvature A g → LinearAction.newtonStep h g = .ok s) (hΔ : 0 < Δ)
    (ht : t.memory = ⟨real Δ, some g, some h⟩) :
    ∃ p, (subproblem (σ := σ)).solver.next.run t = (.ok (some { param := some p }), t) ∧
      ‖p‖ ≤ Δ ∧ (g ≠ 0 → p ≠ s → ‖p‖ = Δ) ∧
      (0 < curvature A g → Δ < ‖s‖ → ‖bottom A g‖ < Δ →
        ∃ τ, Meets (bottom A g) (s - bottom A g) Δ τ ∧
          p = bottom A g + τ • (s - bottom A g)) := by
  obtain ⟨p, hrun, hleads⟩ := run_next hh hs hΔ ht
  refine ⟨p, hrun, hleads.within hΔ, hleads.on_boundary hΔ, fun hcurved hout hnear => ?_⟩
  exact ⟨_, meets_leave hnear (by rwa [add_sub_cancel]), hleads.eq_between hcurved hout hnear⟩

/-- For the shear, with a solve that answers with three steps aside, the step for a radius of two is
on the boundary, between the bottom along the gradient and that answer. -/
theorem next_within_shear :
    ∃ (t : Stage Exact (Vec 2) (Solved 2) Unit (Region Exact (Vec 2) (Solved 2))) (p : Vec 2),
      subproblem.solver.next.run t = (.ok (some { param := some p }), t) ∧ ‖p‖ = 2 ∧
      ∃ τ, Meets (-EuclideanSpace.single 0 1 : Vec 2)
        (EuclideanSpace.single 1 3 - -EuclideanSpace.single 0 1) 2 τ := by
  let t : Stage Exact (Vec 2) (Solved 2) Unit (Region Exact (Vec 2) (Solved 2)) :=
    ⟨⟨real 2, some (EuclideanSpace.single 0 1),
      some ⟨Cauchy.shear, fun _ => EuclideanSpace.single 1 3⟩⟩, {}, ⟨{}, (), [], false, real 0⟩⟩
  have hcurvature : curvature Cauchy.shear (EuclideanSpace.single 0 1) = 1 := by
    unfold curvature image Cauchy.shear
    simp [EuclideanSpace.inner_single_left]
  have hbottom : bottom Cauchy.shear (EuclideanSpace.single 0 1) = -EuclideanSpace.single 0 1 := by
    unfold bottom
    rw [hcurvature, PiLp.norm_single]
    norm_num
  have hlength : ‖(EuclideanSpace.single 1 3 : Vec 2)‖ = 3 := by
    rw [PiLp.norm_single]
    norm_num
  obtain ⟨p, hrun, hwithin, hboundary, hbetween⟩ := next_within
    (acts_solved Cauchy.shear fun _ => EuclideanSpace.single 1 3) (EuclideanSpace.single 0 1)
    (fun _ => rfl) two_pos (t := t) rfl
  -- the solution is too long, so the step ends on the boundary
  have hne : p ≠ EuclideanSpace.single 1 3 := by
    rintro rfl
    rw [hlength] at hwithin
    norm_num at hwithin
  obtain ⟨τ, hmeets, -⟩ := hbetween (by rw [hcurvature]; exact one_pos)
    (by rw [hlength]; norm_num) (by rw [hbottom, norm_neg, PiLp.norm_single]; norm_num)
  rw [hbottom] at hmeets
  exact ⟨t, p, hrun, hboundary (by simp) hne, τ, hmeets⟩

/-! ### As good as the Cauchy point -/

/-- The Newton step is taken wherever the region has it. -/
theorem Leads.eq_whole (h : Leads A g s Δ p) (hcurved : 0 < curvature A g) (hin : ‖s‖ ≤ Δ) :
    p = s := by
  cases h with
  | rest hzero => exact absurd hzero (ne_zero_of_curvature_pos hcurved)
  | straight _ hflat => exact absurd hcurved hflat.not_gt
  | whole => rfl
  | short _ hout => exact absurd hout hin.not_gt
  | between _ hout => exact absurd hout hin.not_gt

/-- **The dogleg step is at least as good as the Cauchy point on convex models.**  For a Hessian
that acts as a positive definite matrix and whose Newton step solves the linear system, both solvers
given the same radius, gradient and Hessian answer with steps that lower the model, the dogleg step
at least as far.  If the minimiser of the model lies within the region, the dogleg step is that
minimiser, and the model is higher at any other step. -/
theorem next_le_cauchy (hA : A.PosDef) (hh : Acts h A)
    (hs : LinearAction.newtonStep h g = .ok s) (hsolve : image A s = -g) (hg : g ≠ 0)
    (hΔ : 0 < Δ) (ht : t.memory = ⟨real Δ, some g, some h⟩) :
    ∃ p c kv, (subproblem (σ := σ)).solver.next.run t = (.ok (some { param := some p }), t) ∧
      (Cauchy.subproblem (σ := σ)).solver.next.run t =
        (.ok (some { param := some c, kv := kv }), t) ∧
      form A g p ≤ form A g c ∧ form A g c < 0 ∧
      (‖image A⁻¹ g‖ ≤ Δ →
        p = -image A⁻¹ g ∧ ∀ q, q ≠ p → form A g p < form A g q) := by
  obtain ⟨p, hrun, hleads⟩ := run_next hh (fun _ => hs) hΔ ht
  obtain ⟨kv, hstep⟩ := Cauchy.step_eq A hg hΔ
  have hparts : t.memory.parts "CauchyPoint" = .ok (g, h, real Δ) := by
    rw [ht]
    rfl
  -- the solve has one answer only
  have hinverse : s = -image A⁻¹ g := eq_inv_of_image hA.isUnit hsolve
  refine ⟨p, -reach A g Δ • g, kv, hrun,
    Region.run_ofRegion hparts (Cauchy.step_of_acts hh hstep), ?_, ?_, fun hin => ?_⟩
  · exact neg_le_neg_iff.mp (reduction_le_of_leads hA hsolve hg hleads)
  · exact neg_pos.mp (reduction_reach_pos A hg hΔ)
  · -- the minimiser is inside, so it is the step
    have hwhole : p = s := by
      refine hleads.eq_whole (inner_pos hA hg) ?_
      rwa [hinverse, norm_neg]
    subst hwhole
    exact ⟨hinverse, fun q hq => form_lt_of_ne hA hsolve hq⟩

/-- In the bowl over the line, from a gradient of one and with a radius of two, the dogleg step is
the minimiser. -/
theorem next_le_cauchy_unit :
    ∃ (t : Stage Exact (Vec 1) (Mat 1) Unit (Region Exact (Vec 1) (Mat 1))) (p c : Vec 1)
      (kv : List (String × Value Exact)),
      subproblem.solver.next.run t = (.ok (some { param := some p }), t) ∧
      Cauchy.subproblem.solver.next.run t = (.ok (some { param := some c, kv := kv }), t) ∧
      form 1 (EuclideanSpace.single 0 1) p ≤ form 1 (EuclideanSpace.single 0 1) c ∧
      form 1 (EuclideanSpace.single 0 1) c < 0 ∧ p = -EuclideanSpace.single 0 1 := by
  let t : Stage Exact (Vec 1) (Mat 1) Unit (Region Exact (Vec 1) (Mat 1)) :=
    ⟨⟨real 2, some (EuclideanSpace.single 0 1), some 1⟩, {}, ⟨{}, (), [], false, real 0⟩⟩
  have hone : image (1 : Mat 1)⁻¹ (EuclideanSpace.single 0 1) = EuclideanSpace.single 0 1 := by
    unfold image
    rw [inv_one, Matrix.toLpLin_one, LinearMap.id_apply]
  obtain ⟨p, c, kv, hrun, hcauchy, hle, hneg, hwhole⟩ := next_le_cauchy Matrix.PosDef.one
    (acts_matrix 1) (newtonStep_eq (EuclideanSpace.single 0 1) 1)
    (newton_spec Matrix.PosDef.one _) (by simp) two_pos (t := t) rfl
  -- the minimiser has norm `1`, within a radius of `2`
  have hin : ‖image (1 : Mat 1)⁻¹ (EuclideanSpace.single 0 1)‖ ≤ 2 := by
    rw [hone, PiLp.norm_single]
    norm_num
  refine ⟨t, p, c, kv, hrun, hcauchy, hle, hneg, ?_⟩
  rw [(hwhole hin).1, hone]

end Dogleg

end Descent
