import Descent.Proofs.Exact.Space
import Descent.Solver.ConjugateGradient
import Mathlib.LinearAlgebra.Span.Basic

/-!
# Truncated conjugate gradients

On a positive definite matrix the passes of the inner solve go along conjugate directions.  What
they keep of the subspace that the directions so far span is `Conjugate`: the iterate lies in it,
its residual is orthogonal to it, and the direction to go on along is conjugate to it.  One pass
keeps this for the subspace that its direction enlarges (`Conjugate.after`).  So wherever the passes
are cut off, the residual is orthogonal to the iterate and the iterate is not zero (`Truncated`),
and this is what the solve answers with (`ConjugateGradient.direction_truncated`).

All that a pass needs is a symmetric matrix that curves upwards along its direction.  On any other
one a pass along which it does not curve upwards ends the solve, and by then the model falls towards
the iterate (`ConjugateGradient.direction_falls`).  A pass asks for a product with the Hessian only,
so Hessians with the same products have the same solution, whatever their representation
(`ConjugateGradient.direction_congr`).
-/

open scoped RealInnerProductSpace

namespace Descent

open Exact

variable {n : ℕ}

namespace Exact

theorem neg_eq (x : Vec n) : Space.neg x = -x := by
  have hone : (-1.0 : Exact) = real (-1) := by
    rw [ofScientific_eq, neg_real]
    norm_num
  unfold Space.neg
  rw [hone, scale_real, neg_one_smul]

end Exact

namespace ConjugateGradient

/-! ### Representations -/

section

variable {R V M M' : Type} [Scalar R] [Space R V] [LinearAction R V M] [LinearAction R V M']
  {hess : Option M} {hess' : Option M'}
  (himage : ∀ x : V, Space.imageUnder hess x = Space.imageUnder hess' x)

include himage

theorem pass_congr (tol : R) (first : Bool) (grad : V) (it : Iterate R V) :
    pass hess tol first grad it = pass hess' tol first grad it := by
  unfold pass
  rw [himage]

theorem loop_congr (tol : R) (grad : V) (left : ℕ) (first : Bool) (it : Iterate R V) :
    loop hess tol grad left first it = loop hess' tol grad left first it := by
  induction left generalizing first it with
  | zero => rfl
  | succ left ih =>
    unfold loop
    rw [pass_congr himage]
    congr 1
    funext r
    cases r with
    | inl p => rfl
    | inr it => exact ih false it

/-- Hessians with the same products have the same solution. -/
theorem direction_congr (grad : V) (limit : Option Int) :
    direction grad hess limit = direction grad hess' limit := by
  refine bind_congr fun it => ?_
  exact loop_congr himage _ grad _ true it

end

/-! ### Truncated solutions -/

variable {A : Mat n} {g z v d : Vec n} {S : Submodule ℝ (Vec n)} {it : Iterate Exact (Vec n)}
  {tol : ℝ}

/-- A step that is not zero, and to which the gradient that the model has there is orthogonal. -/
structure Truncated (A : Mat n) (g z : Vec n) : Prop where
  ne_zero : z ≠ 0
  orthogonal : ⟪g + image A z, z⟫ = 0

/-- The slope along such a step is that of the curvature along it. -/
theorem Truncated.slope_eq (h : Truncated A g z) : ⟪g, z⟫ = -⟪z, image A z⟫ := by
  have horthogonal := h.orthogonal
  rw [inner_add_left, real_inner_comm z (image A z)] at horthogonal
  linarith

theorem Truncated.slope_neg (hA : A.PosDef) (h : Truncated A g z) : ⟪g, z⟫ < 0 := by
  rw [h.slope_eq]
  exact neg_neg_of_pos (inner_pos hA h.ne_zero)

/-! ### One pass -/

/-- What the passes keep of the subspace that the directions so far span. -/
structure Conjugate (A : Mat n) (g : Vec n) (S : Submodule ℝ (Vec n))
    (it : Iterate Exact (Vec n)) : Prop where
  residual : it.residual = g + image A it.z
  mem : it.z ∈ S
  orthogonal : ∀ s ∈ S, ⟪it.residual, s⟫ = 0
  conjugate : ∀ s ∈ S, ⟪image A it.along, s⟫ = 0
  image_mem : ∀ s ∈ S, image A s ∈ S ⊔ ℝ ∙ it.along
  along : it.along + it.residual ∈ S
  squared : it.squared = real (‖it.residual‖ ^ 2)
  ne_zero : it.residual ≠ 0

/-- How far a pass goes along its direction. -/
noncomputable def stride (A : Mat n) (it : Iterate Exact (Vec n)) : ℝ :=
  ‖it.residual‖ ^ 2 / curvature A it.along

/-- The residual after a pass. -/
noncomputable def remainder (A : Mat n) (it : Iterate Exact (Vec n)) : Vec n :=
  it.residual + stride A it • image A it.along

/-- How much of the direction of a pass the next one keeps. -/
noncomputable def turn (A : Mat n) (it : Iterate Exact (Vec n)) : ℝ :=
  ‖remainder A it‖ ^ 2 / ‖it.residual‖ ^ 2

/-- The iterate after a pass. -/
noncomputable def Iterate.after (A : Mat n) (it : Iterate Exact (Vec n)) :
    Iterate Exact (Vec n) where
  z := it.z + stride A it • it.along
  residual := remainder A it
  along := -remainder A it + turn A it • it.along
  squared := real (‖remainder A it‖ ^ 2)

/-- What is orthogonal to a subspace and to a direction is so to the subspace that it enlarges. -/
theorem inner_eq_zero_of_mem_sup (hS : ∀ s ∈ S, ⟪v, s⟫ = 0) (hd : ⟪v, d⟫ = 0) :
    ∀ s ∈ S ⊔ ℝ ∙ d, ⟪v, s⟫ = 0 := by
  intro s hs
  obtain ⟨s₀, hs₀, t, ht, rfl⟩ := Submodule.mem_sup.mp hs
  obtain ⟨c, rfl⟩ := Submodule.mem_span_singleton.mp ht
  rw [inner_add_right, inner_smul_right, hS s₀ hs₀, hd, mul_zero, add_zero]

theorem mem_sup_span (S : Submodule ℝ (Vec n)) (d : Vec n) : d ∈ S ⊔ ℝ ∙ d :=
  Submodule.mem_sup_right (Submodule.mem_span_singleton_self d)

section

variable (hA : A.IsSymm) (hcurved : 0 < ⟪it.along, image A it.along⟫) (h : Conjugate A g S it)

include h

theorem Conjugate.sq_pos : 0 < ‖it.residual‖ ^ 2 := pow_pos (norm_pos_iff.mpr h.ne_zero) 2

/-- The direction is the negative residual up to the subspace, so the residual falls along it. -/
theorem Conjugate.inner_along : ⟪it.residual, it.along⟫ = -‖it.residual‖ ^ 2 := by
  have hsum := h.orthogonal _ h.along
  rw [inner_add_right, real_inner_self_eq_norm_sq] at hsum
  linarith

/-- So does the model, as the direction is conjugate to the iterate. -/
theorem Conjugate.slope_along (hA : A.IsSymm) : ⟪g, it.along⟫ = -‖it.residual‖ ^ 2 := by
  have hconjugate : ⟪image A it.z, it.along⟫ = 0 := by
    rw [inner_image hA, real_inner_comm]
    exact h.conjugate _ h.mem
  rw [← h.inner_along, h.residual, inner_add_left, hconjugate, add_zero]

theorem Conjugate.along_ne_zero : it.along ≠ 0 := by
  intro hzero
  have hfalls := h.inner_along
  rw [hzero, inner_zero_right] at hfalls
  linarith [h.sq_pos]

theorem Conjugate.residual_mem : it.residual ∈ S ⊔ ℝ ∙ it.along := by
  have hsplit : it.residual = it.along + it.residual - it.along := (add_sub_cancel_left _ _).symm
  rw [hsplit]
  exact Submodule.sub_mem _ (Submodule.mem_sup_left h.along) (mem_sup_span S it.along)

theorem Conjugate.mem_after : (it.after A).z ∈ S ⊔ ℝ ∙ it.along :=
  Submodule.add_mem _ (Submodule.mem_sup_left h.mem)
    (Submodule.smul_mem _ _ (mem_sup_span S it.along))

/-- The remainder is the residual of the iterate after the pass. -/
theorem Conjugate.remainder_eq : remainder A it = g + image A (it.after A).z := by
  unfold Iterate.after remainder
  dsimp only
  rw [map_add, map_smul, h.residual, add_assoc]

theorem Conjugate.curvature_pos (hA : A.PosDef) : 0 < ⟪it.along, image A it.along⟫ :=
  Exact.inner_pos hA h.along_ne_zero

include hcurved

theorem Conjugate.stride_pos : 0 < stride A it := div_pos h.sq_pos hcurved

omit h in
theorem stride_mul : stride A it * ⟪it.along, image A it.along⟫ = ‖it.residual‖ ^ 2 :=
  div_mul_cancel₀ _ hcurved.ne'

include hA

/-- The residual after a pass is orthogonal to all directions so far, that of the pass included. -/
theorem Conjugate.remainder_orthogonal : ∀ s ∈ S ⊔ ℝ ∙ it.along, ⟪remainder A it, s⟫ = 0 := by
  refine inner_eq_zero_of_mem_sup (fun s hs => ?_) ?_
  · unfold remainder
    rw [inner_add_left, inner_smul_left, h.orthogonal s hs, h.conjugate s hs, mul_zero, add_zero]
  · unfold remainder
    rw [inner_add_left, inner_smul_left, h.inner_along, inner_image hA, conj_trivial,
      stride_mul hcurved, neg_add_cancel]

/-- The model falls towards the iterate that a pass leads to, if it does not rise towards the one
before. -/
theorem Conjugate.slope_after (hz : ⟪g, it.z⟫ ≤ 0) : ⟪g, (it.after A).z⟫ < 0 := by
  have hfalls : 0 < stride A it * ‖it.residual‖ ^ 2 := mul_pos (h.stride_pos hcurved) h.sq_pos
  unfold Iterate.after
  dsimp only
  rw [inner_add_right, inner_smul_right, h.slope_along hA, mul_neg]
  linarith

/-- An iterate after a pass is a truncated solution. -/
theorem Conjugate.truncated : Truncated A g (it.after A).z := by
  refine ⟨fun hzero => ?_, ?_⟩
  · -- the new part of the iterate is conjugate to the old one
    have hnew : ⟪image A it.along, (it.after A).z⟫ = ‖it.residual‖ ^ 2 := by
      unfold Iterate.after
      dsimp only
      rw [inner_add_right, h.conjugate _ h.mem, inner_smul_right, zero_add, real_inner_comm,
        stride_mul hcurved]
    rw [hzero, inner_zero_right] at hnew
    linarith [h.sq_pos]
  · rw [← h.remainder_eq]
    exact h.remainder_orthogonal hA hcurved _ h.mem_after

/-- The direction after a pass is conjugate to all directions so far. -/
theorem Conjugate.conjugate_after :
    ∀ s ∈ S ⊔ ℝ ∙ it.along, ⟪image A (it.after A).along, s⟫ = 0 := by
  have hnext : ∀ s, ⟪image A (it.after A).along, s⟫ =
      -⟪remainder A it, image A s⟫ + turn A it * ⟪image A it.along, s⟫ := by
    intro s
    unfold Iterate.after
    dsimp only
    rw [map_add, map_neg, map_smul, inner_add_left, inner_neg_left, inner_smul_left, conj_trivial,
      inner_image hA]
  -- the earlier directions, and the last one
  refine inner_eq_zero_of_mem_sup (fun s hs => ?_) ?_
  · rw [hnext, h.remainder_orthogonal hA hcurved _ (h.image_mem s hs), h.conjugate s hs, mul_zero,
      neg_zero, add_zero]
  · -- the residuals before and after the pass differ by the image of its direction
    have hself : ‖remainder A it‖ ^ 2 = stride A it * ⟪remainder A it, image A it.along⟫ := by
      have hbefore := h.remainder_orthogonal hA hcurved _ h.residual_mem
      calc ‖remainder A it‖ ^ 2
          = ⟪remainder A it, it.residual + stride A it • image A it.along⟫ :=
            (real_inner_self_eq_norm_sq _).symm
        _ = stride A it * ⟪remainder A it, image A it.along⟫ := by
          rw [inner_add_right, hbefore, zero_add, inner_smul_right]
    unfold turn at hnext
    rw [hnext, hself, real_inner_comm it.along, div_mul_eq_mul_div, mul_right_comm,
      stride_mul hcurved, mul_div_cancel_left₀ _ h.sq_pos.ne', neg_add_cancel]

/-- A pass keeps all of this, for the subspace that its direction enlarges. -/
theorem Conjugate.after (hleft : remainder A it ≠ 0) :
    Conjugate A g (S ⊔ ℝ ∙ it.along) (it.after A) where
  residual := h.remainder_eq
  mem := h.mem_after
  orthogonal := h.remainder_orthogonal hA hcurved
  conjugate := h.conjugate_after hA hcurved
  image_mem := by
    set T := S ⊔ ℝ ∙ it.along with hT
    intro s hs
    obtain ⟨s₀, hs₀, t, ht, rfl⟩ := Submodule.mem_sup.mp hs
    obtain ⟨c, rfl⟩ := Submodule.mem_span_singleton.mp ht
    rw [map_add, map_smul]
    refine Submodule.add_mem _ (Submodule.mem_sup_left (h.image_mem s₀ hs₀))
      (Submodule.smul_mem _ _ ?_)
    -- the image of the direction is a multiple of what the pass changed of the residual
    have himage : image A it.along = (stride A it)⁻¹ • (remainder A it - it.residual) := by
      unfold remainder
      rw [add_sub_cancel_left, inv_smul_smul₀ (h.stride_pos hcurved).ne']
    have hremainder : remainder A it = turn A it • it.along - (it.after A).along := by
      unfold Iterate.after
      dsimp only
      rw [sub_add_cancel_right, neg_neg]
    have hmem : remainder A it ∈ T ⊔ ℝ ∙ (it.after A).along := by
      rw [hremainder]
      exact Submodule.sub_mem _
        (Submodule.mem_sup_left (Submodule.smul_mem _ _ (mem_sup_span S it.along)))
        (mem_sup_span T (it.after A).along)
    rw [himage]
    exact Submodule.smul_mem _ _ (Submodule.sub_mem _ hmem (Submodule.mem_sup_left h.residual_mem))
  along := by
    unfold Iterate.after
    dsimp only
    rw [neg_add_cancel_comm]
    exact Submodule.smul_mem _ _ (mem_sup_span S it.along)
  squared := rfl
  ne_zero := hleft

omit hA in
/-- A pass leads to the next iterate, and ends the solve once the residual is short. -/
theorem Conjugate.pass_eq (tol : ℝ) (first : Bool) :
    pass (some A) (real tol) first g it =
      .ok (if ‖remainder A it‖ < tol then .inl (it.after A).z else .inr (it.after A)) := by
  -- the curvature is positive, so the pass does not break off
  have hpositive : ¬ real ⟪it.along, image A it.along⟫ ≤ (0.0 : Exact) :=
    real_le_zero.not.mpr hcurved.not_ge
  have hstride : Scalar.quotient it.squared (real ⟪it.along, image A it.along⟫) =
      .ok (real (stride A it)) := by
    rw [h.squared]
    exact quotient_real hcurved.ne'
  have hsquared : ⟪remainder A it, remainder A it⟫ = ‖remainder A it‖ ^ 2 :=
    real_inner_self_eq_norm_sq _
  have hturn : Scalar.quotient (real (‖remainder A it‖ ^ 2)) it.squared =
      .ok (real (turn A it)) := by
    rw [h.squared]
    exact quotient_real h.sq_pos.ne'
  -- the root of a square is the norm
  have hroot : root (real (‖remainder A it‖ ^ 2)) = .ok (real ‖remainder A it‖) := by
    have hnonneg : 0 ≤ ‖remainder A it‖ ^ 2 := sq_nonneg _
    unfold root
    rw [zero_eq, if_neg (real_lt.not.mpr hnonneg.not_gt), sqrt_real hnonneg,
      Real.sqrt_sq (norm_nonneg _)]
  have hz : Space.add it.z (Space.scale it.along (real (stride A it))) = .ok (it.after A).z := by
    rw [scale_real]
    rfl
  have hresidual : Space.add it.residual (Space.scale (image A it.along) (real (stride A it))) =
      .ok (remainder A it) := by
    rw [scale_real]
    rfl
  have halong : Space.add (Space.neg (remainder A it)) (Space.scale it.along
      (real (turn A it))) = .ok (it.after A).along := by
    rw [scale_real, neg_eq]
    rfl
  have himage : Space.imageUnder (some A) it.along = .ok (image A it.along) := rfl
  unfold pass
  simp only [himage, dot_eq, hsquared, hpositive, if_false, hstride, hz, hresidual, hroot, real_lt,
    hturn, halong, bind, Except.bind, pure, Except.pure]
  split <;> rfl

end

/-- A pass along which the curvature is not positive ends the solve with what there is, and with the
negative gradient if that is nothing yet. -/
theorem pass_of_flat (hflat : ⟪it.along, image A it.along⟫ ≤ 0) (tol : Exact) (first : Bool) :
    pass (some A) tol first g it = .ok (.inl (if first then -g else it.z)) := by
  have himage : Space.imageUnder (some A) it.along = .ok (image A it.along) := rfl
  unfold pass
  simp only [himage, dot_eq, real_le_zero.mpr hflat, if_true, neg_eq, bind, Except.bind, pure,
    Except.pure]

/-! ### The whole solve -/

theorem tolerance_eq (g : Vec n) :
    tolerance (Space.norm g) = real (min 0.5 √‖g‖ * ‖g‖) := by
  unfold tolerance
  rw [norm_eq, sqrt_real (norm_nonneg g), ofScientific_eq, least_real, real_mul]

theorem tolerance_pos (hg : g ≠ 0) : 0 < min 0.5 √‖g‖ * ‖g‖ := by
  have hnorm : 0 < ‖g‖ := norm_pos_iff.mpr hg
  exact mul_pos (lt_min (by norm_num) (Real.sqrt_pos.mpr hnorm)) hnorm

/-- A residual that is not short is not zero. -/
theorem ne_zero_of_not_short (htol : 0 < tol) (hlong : ¬ ‖v‖ < tol) : v ≠ 0 := by
  rintro rfl
  rw [norm_zero] at hlong
  exact hlong htol

/-- The passes begin along the negative gradient, with no direction so far. -/
theorem start_conjugate (A : Mat n) (hg : g ≠ 0) :
    ∃ it, start g = .ok it ∧ it.z = 0 ∧ Conjugate A g ⊥ it := by
  refine ⟨⟨0, g, -g, real (‖g‖ ^ 2)⟩, ?_, rfl, ?_⟩
  · unfold start
    rw [neg_eq, ← real_inner_self_eq_norm_sq]
    rfl
  · have hbot : ∀ {v : Vec n}, ∀ s ∈ (⊥ : Submodule ℝ (Vec n)), ⟪v, s⟫ = 0 := by
      intro v s hs
      rw [(Submodule.mem_bot ℝ).mp hs, inner_zero_right]
    refine ⟨?_, Submodule.zero_mem _, hbot, hbot, fun s hs => ?_, ?_, rfl, hg⟩
    · rw [map_zero, add_zero]
    · rw [(Submodule.mem_bot ℝ).mp hs, map_zero]
      exact Submodule.zero_mem _
    · rw [neg_add_cancel]
      exact Submodule.zero_mem _

/-- However many passes are allowed, they answer with a truncated solution, if there is one pass at
least or their iterate is one already. -/
theorem loop_truncated (hA : A.PosDef) (htol : 0 < tol) (left : ℕ) (first : Bool)
    (h : Conjugate A g S it) (hdone : left ≠ 0 ∨ Truncated A g it.z) :
    ∃ p, loop (some A) (real tol) g left first it = .ok p ∧ Truncated A g p := by
  -- a pass that does not end the solve leaves an iterate that is a truncated solution
  induction left generalizing first S it with
  | zero => exact ⟨it.z, rfl, hdone.resolve_left (fun hnot => hnot rfl)⟩
  | succ left ih =>
    have hcurved := h.curvature_pos hA
    have hsymm := isSymm_of_posDef hA
    have hpass := h.pass_eq hcurved tol first
    have hafter := h.truncated hsymm hcurved
    by_cases hshort : ‖remainder A it‖ < tol
    · rw [if_pos hshort] at hpass
      refine ⟨(it.after A).z, ?_, hafter⟩
      unfold loop
      rw [hpass]
      rfl
    · have hleft : remainder A it ≠ 0 := ne_zero_of_not_short htol hshort
      rw [if_neg hshort] at hpass
      obtain ⟨p, hp, htruncated⟩ := ih false (h.after hsymm hcurved hleft) (.inr hafter)
      refine ⟨p, ?_, htruncated⟩
      unfold loop
      rw [hpass]
      exact hp

/-- A limit that is not negative allows for one pass at least. -/
theorem passes_ne_zero {limit : Option Int} (hlimit : ∀ k, limit = some k → 0 ≤ k) (size : ℕ) :
    passes limit size ≠ 0 := by
  have hdefault : defaultPasses size ≠ 0 :=
    (Nat.lt_of_lt_of_le Nat.one_pos (le_max_left _ _)).ne'
  cases limit with
  | none => exact hdefault
  | some k =>
    have hk : 0 ≤ k := hlimit k rfl
    show (if k = 0 then _ else k.toNat) ≠ 0
    split
    · exact hdefault
    · omega

/-- On a positive definite matrix the solve answers with a truncated solution. -/
theorem direction_truncated (hA : A.PosDef) (hg : g ≠ 0) {limit : Option Int}
    (hlimit : ∀ k, limit = some k → 1 ≤ k) :
    ∃ p, direction g (some A) limit = .ok p ∧ Truncated A g p := by
  obtain ⟨it, hstart, -, hit⟩ := start_conjugate A hg
  obtain ⟨p, hp, htruncated⟩ := loop_truncated hA (tolerance_pos hg) (passes limit (Space.size g))
    true hit (.inl (passes_ne_zero (fun k hk => Int.le_of_lt (hlimit k hk)) _))
  refine ⟨p, ?_, htruncated⟩
  unfold direction
  rw [tolerance_eq, hstart]
  exact hp

/-- However many passes are allowed on a symmetric matrix, they answer with a step towards which the
model falls, if it falls towards their iterate, or if there is one pass at least and their iterate
is the origin. -/
theorem loop_descends (hA : A.IsSymm) (hg : g ≠ 0) (htol : 0 < tol) (left : ℕ) (first : Bool)
    (h : Conjugate A g S it)
    (hz : ⟪g, it.z⟫ < 0 ∨ left ≠ 0 ∧ first = true ∧ it.z = 0) :
    ∃ p, loop (some A) (real tol) g left first it = .ok p ∧ ⟪g, p⟫ < 0 := by
  -- a pass that does not end the solve leaves an iterate towards which the model falls
  induction left generalizing first S it with
  | zero => exact ⟨it.z, rfl, hz.resolve_right fun hnot => hnot.1 rfl⟩
  | succ left ih =>
    unfold loop
    rcases le_or_gt ⟪it.along, image A it.along⟫ 0 with hflat | hcurved
    · rw [pass_of_flat hflat]
      refine ⟨_, rfl, ?_⟩
      cases first with
      | true =>
        rw [if_pos rfl, inner_neg_right, neg_lt_zero, real_inner_self_eq_norm_sq]
        exact pow_pos (norm_pos_iff.mpr hg) 2
      | false =>
        rw [if_neg Bool.false_ne_true]
        exact hz.resolve_right fun hnot => Bool.false_ne_true hnot.2.1
    · have hbefore : ⟪g, it.z⟫ ≤ 0 := by
        rcases hz with hz | ⟨-, -, hz⟩
        · exact hz.le
        · rw [hz, inner_zero_right]
      have hafter := h.slope_after hA hcurved hbefore
      rw [h.pass_eq hcurved]
      by_cases hshort : ‖remainder A it‖ < tol
      · rw [if_pos hshort]
        exact ⟨_, rfl, hafter⟩
      · rw [if_neg hshort]
        have hleft : remainder A it ≠ 0 := ne_zero_of_not_short htol hshort
        exact ih false (h.after hA hcurved hleft) (.inl hafter)

/-- Without a gradient there is nothing to solve for, and the solve answers with no step. -/
theorem direction_zero (A : Mat n) (limit : Option Int) :
    direction (0 : Vec n) (some A) limit = .ok 0 := by
  let origin : Iterate Exact (Vec n) := ⟨0, 0, 0, real ⟪(0 : Vec n), 0⟫⟩
  have hstart : start (0 : Vec n) = .ok origin := by
    unfold start
    rw [neg_eq, neg_zero]
    rfl
  have hflat : ⟪origin.along, image A origin.along⟫ ≤ 0 := (inner_zero_left _).le
  unfold direction
  rw [hstart]
  show loop (some A) _ 0 (passes limit _) true origin = .ok 0
  cases passes limit (Space.size (0 : Vec n)) with
  | zero => rfl
  | succ left =>
    unfold loop
    rw [pass_of_flat hflat, if_pos rfl, neg_zero]
    rfl

/-- On a symmetric matrix, however it curves, the solve answers with a step towards which the model
falls, if there is one pass at least. -/
theorem direction_falls (hA : A.IsSymm) (hg : g ≠ 0) {limit : Option Int}
    (hlimit : passes limit n ≠ 0) :
    ∃ p, direction g (some A) limit = .ok p ∧ ⟪g, p⟫ < 0 := by
  obtain ⟨it, hstart, hz, hit⟩ := start_conjugate A hg
  obtain ⟨p, hp, hfalls⟩ := loop_descends hA hg (tolerance_pos hg) (passes limit n) true hit
    (.inr ⟨hlimit, rfl, hz⟩)
  refine ⟨p, ?_, hfalls⟩
  unfold direction
  rw [tolerance_eq, hstart]
  exact hp

/-- Without a pass it answers with no step; towards that the model does not rise. -/
theorem direction_descends (hA : A.IsSymm) (g : Vec n) (limit : Option Int) :
    ∃ p, direction g (some A) limit = .ok p ∧ ⟪g, p⟫ ≤ 0 := by
  rcases eq_or_ne g 0 with rfl | hg
  · exact ⟨0, direction_zero A limit, (inner_zero_left _).le⟩
  by_cases hlimit : passes limit n = 0
  · obtain ⟨it, hstart, hz, -⟩ := start_conjugate A hg
    refine ⟨it.z, ?_, by rw [hz, inner_zero_right]⟩
    unfold direction
    rw [hstart]
    show loop (some A) _ g (passes limit n) true it = .ok it.z
    rw [hlimit]
    rfl
  · obtain ⟨p, hp, hfalls⟩ := direction_falls hA hg hlimit
    exact ⟨p, hp, hfalls.le⟩

end ConjugateGradient

end Descent
