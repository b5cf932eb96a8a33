import Descent.Proofs.Exact.Space
import Descent.Proofs.Quadratic.Conjugate
import Mathlib.Algebra.Order.Star.Real
import Mathlib.LinearAlgebra.FiniteDimensional.Lemmas

/-!
# The forcing tolerance of the inner solve

On a positive definite matrix each pass of the conjugate gradients that leaves a residual enlarges
the subspace of the directions so far by one dimension (`Conjugate.finrank_after`), and the residual
is orthogonal to this subspace.  So there are no more than `n` passes before the residual vanishes,
and the first one that makes it shorter than the forcing tolerance ends the solve
(`ConjugateGradient.exists_short`).  If the limit allows for `n` passes, its answer is the solution
up to this tolerance (`ConjugateGradient.direction_forced`).

The iterates that the passes lead through are `ConjugateGradient.Comes`.
-/

open scoped RealInnerProductSpace

namespace Descent

open Exact
open Module (finrank)

namespace ConjugateGradient

/-! ### Iterates -/

section

variable {R V M M' : Type} [Scalar R] [Space R V] [LinearAction R V M] [LinearAction R V M']
  {hess : Option M} {hess' : Option M'} {tol : R} {grad p : V} {j k : ℕ} {it it' : Iterate R V}

/-- The solve comes to an iterate after `k` passes, none of which has ended it. -/
inductive Comes (hess : Option M) (tol : R) (grad : V) : ℕ → Iterate R V → Prop
  | outset {it : Iterate R V} (h : start grad = .ok it) : Comes hess tol grad 0 it
  | onward {k : ℕ} {it it' : Iterate R V} (h : Comes hess tol grad k it)
      (hpass : pass hess tol (k == 0) grad it = .ok (.inr it')) : Comes hess tol grad (k + 1) it'

namespace Comes

/-- There is one iterate after each number of passes. -/
theorem unique (h : Comes hess tol grad k it) (h' : Comes hess tol grad k it') : it = it' := by
  induction h generalizing it' with
  | outset hstart =>
    cases h' with
    | outset hstart' => exact Except.ok.inj (hstart.symm.trans hstart')
  | onward _ hpass ih =>
    cases h' with
    | onward h' hpass' =>
      rw [← ih h', hpass] at hpass'
      exact Sum.inr.inj (Except.ok.inj hpass')

theorem before (h : Comes hess tol grad (k + 1) it') :
    ∃ it, Comes hess tol grad k it ∧ pass hess tol (k == 0) grad it = .ok (.inr it') := by
  cases h with
  | onward h hpass => exact ⟨_, h, hpass⟩

theorem earlier (h : Comes hess tol grad k it) (hjk : j ≤ k) :
    ∃ it', Comes hess tol grad j it' := by
  induction k, hjk using Nat.le_induction generalizing it with
  | base => exact ⟨it, h⟩
  | succ k _ ih =>
    obtain ⟨it, h, -⟩ := h.before
    exact ih h

/-- The solve comes to nothing after a pass that ends it. -/
theorem le_of_ends (h : Comes hess tol grad k it)
    (hpass : pass hess tol (k == 0) grad it = .ok (.inl p)) (h' : Comes hess tol grad j it') :
    j ≤ k := by
  by_contra hlt
  obtain ⟨next, hnext⟩ := h'.earlier (Nat.lt_of_not_le hlt)
  obtain ⟨it, hit, hgoes⟩ := hnext.before
  rw [← h.unique hit, hpass] at hgoes
  cases hgoes

/-- Hessians with the same products lead through the same iterates. -/
theorem congr (himage : ∀ x : V, Space.imageUnder hess x = Space.imageUnder hess' x)
    (h : Comes hess tol grad k it) : Comes hess' tol grad k it := by
  induction h with
  | outset hstart => exact .outset hstart
  | onward _ hpass ih =>
    rw [pass_congr himage] at hpass
    exact .onward ih hpass

/-- The passes that are left go on from the iterate. -/
theorem loop_eq (h : Comes hess tol grad k it) (left : ℕ) :
    ∃ first, start grad = .ok first ∧
      loop hess tol grad (k + left) true first = loop hess tol grad left (k == 0) it := by
  induction h generalizing left with
  | outset hstart =>
    refine ⟨_, hstart, ?_⟩
    rw [Nat.zero_add]
    rfl
  | @onward k it it' _ hpass ih =>
    obtain ⟨first, hstart, hloop⟩ := ih (left + 1)
    refine ⟨first, hstart, ?_⟩
    rw [Nat.add_right_comm, Nat.add_assoc, hloop]
    conv_lhs => unfold loop
    rw [hpass]
    rfl

/-- A pass within the limit that ends the solve gives its answer. -/
theorem direction_eq (h : Comes hess (tolerance (Space.norm grad)) grad k it)
    (hpass : pass hess (tolerance (Space.norm grad)) (k == 0) grad it = .ok (.inl p))
    {limit : Option Int} (hlimit : k < passes limit (Space.size grad)) :
    direction grad hess limit = .ok p := by
  obtain ⟨left, hleft⟩ := Nat.exists_eq_add_of_lt hlimit
  obtain ⟨first, hstart, hloop⟩ := h.loop_eq (left + 1)
  unfold direction
  rw [hstart, hleft, Nat.add_assoc]
  show loop hess _ grad (k + (left + 1)) true first = _
  rw [hloop]
  unfold loop
  rw [hpass]
  rfl

end Comes

end

/-! ### The dimension of the subspace -/

variable {n : ℕ} {A : Mat n} {g : Vec n} {S : Submodule ℝ (Vec n)} {it : Iterate Exact (Vec n)}
  {tol : ℝ} {k : ℕ}

theorem Conjugate.residual_not_mem (h : Conjugate A g S it) : it.residual ∉ S := by
  intro hmem
  have hzero := h.orthogonal _ hmem
  exact h.ne_zero (inner_self_eq_zero.mp hzero)

/-- The direction leads out of the subspace, as the residual does. -/
theorem Conjugate.along_not_mem (h : Conjugate A g S it) : it.along ∉ S := by
  intro hmem
  apply h.residual_not_mem
  have hdiff := Submodule.sub_mem S h.along hmem
  rwa [add_sub_cancel_left] at hdiff

/-- A pass adds a dimension. -/
theorem Conjugate.finrank_after (h : Conjugate A g S it) :
    finrank ℝ ↥(S ⊔ ℝ ∙ it.along) = finrank ℝ S + 1 := by
  have hdisjoint : S ⊓ ℝ ∙ it.along = ⊥ :=
    ((Submodule.disjoint_span_singleton' h.along_ne_zero).mpr h.along_not_mem).eq_bot
  have hsum := Submodule.finrank_sup_add_finrank_inf_eq S (ℝ ∙ it.along)
  rw [hdisjoint, finrank_bot, finrank_span_singleton h.along_ne_zero] at hsum
  exact hsum

/-- While there is a residual, the subspace is not the whole space. -/
theorem Conjugate.finrank_lt (h : Conjugate A g S it) : finrank ℝ S < n := by
  have hproper : S ≠ ⊤ := by
    rintro rfl
    exact h.residual_not_mem Submodule.mem_top
  have hlt := Submodule.finrank_lt hproper
  rwa [finrank_euclideanSpace_fin] at hlt

section

variable (hA : A.PosDef) (hg : g ≠ 0) (htol : 0 < tol)

include hA hg htol

/-- After `k` passes the directions span a subspace of dimension `k`, with what the passes keep of
it. -/
theorem Comes.conjugate (h : Comes (some A) (real tol) g k it) :
    ∃ S : Submodule ℝ (Vec n), finrank ℝ S = k ∧ Conjugate A g S it := by
  induction h with
  | outset hstart =>
    obtain ⟨first, hfirst, -, hconjugate⟩ := start_conjugate A hg
    cases hstart.symm.trans hfirst
    exact ⟨⊥, finrank_bot ℝ _, hconjugate⟩
  | @onward k it it' _ hpass ih =>
    obtain ⟨S, hdim, hconjugate⟩ := ih
    have hcurved := hconjugate.curvature_pos hA
    rw [hconjugate.pass_eq hcurved] at hpass
    by_cases hshort : ‖remainder A it‖ < tol
    · rw [if_pos hshort] at hpass
      cases hpass
    · rw [if_neg hshort] at hpass
      cases hpass
      have hleft : remainder A it ≠ 0 := ne_zero_of_not_short htol hshort
      refine ⟨_, ?_, hconjugate.after (isSymm_of_posDef hA) hcurved hleft⟩
      rw [hconjugate.finrank_after, hdim]

/-- One of the first `n` passes makes the residual short. -/
theorem exists_short :
    ∃ k < n, ∃ it, Comes (some A) (real tol) g k it ∧ ‖remainder A it‖ < tol := by
  -- if none of them did, the solve would come to an iterate after `n` passes
  have hcomes : ∀ k ≤ n, (∃ j < k, ∃ it, Comes (some A) (real tol) g j it ∧
      ‖remainder A it‖ < tol) ∨ ∃ it, Comes (some A) (real tol) g k it := by
    intro k
    induction k with
    | zero =>
      intro _
      obtain ⟨it, hstart, -⟩ := start_conjugate A hg
      exact .inr ⟨it, .outset hstart⟩
    | succ k ih =>
      intro hk
      rcases ih (Nat.le_of_succ_le hk) with ⟨j, hj, hshort⟩ | ⟨it, hit⟩
      · exact .inl ⟨j, Nat.lt_succ_of_lt hj, hshort⟩
      · by_cases hshort : ‖remainder A it‖ < tol
        · exact .inl ⟨k, Nat.lt_succ_self k, it, hit, hshort⟩
        · obtain ⟨S, -, hconjugate⟩ := hit.conjugate hA hg htol
          have hpass := hconjugate.pass_eq (hconjugate.curvature_pos hA) tol (k == 0)
          rw [if_neg hshort] at hpass
          exact .inr ⟨_, .onward hit hpass⟩
  rcases hcomes n le_rfl with hshort | ⟨it, hit⟩
  · exact hshort
  · obtain ⟨S, hdim, hconjugate⟩ := hit.conjugate hA hg htol
    exact absurd hconjugate.finrank_lt hdim.not_lt

end

/-- None, zero and every number from `n` on allow for `n` passes. -/
theorem le_passes {limit : Option Int} {size : ℕ}
    (hlimit : ∀ k, limit = some k → k = 0 ∨ size ≤ k) :
    size ≤ passes limit size := by
  have hdefault : size ≤ defaultPasses size := by
    unfold defaultPasses
    omega
  cases limit with
  | none => exact hdefault
  | some k =>
    show size ≤ if k = 0 then _ else k.toNat
    by_cases hk : k = 0
    · rw [if_pos hk]
      exact hdefault
    · rw [if_neg hk]
      have hle := (hlimit k rfl).resolve_left hk
      omega

/-- **The inner solve meets its forcing tolerance.**  On a Hessian that acts as a positive definite
matrix, in whatever representation, from a gradient that is not zero and under a limit that is none,
zero or at least `n`, one of the first `n` passes ends the solve with a residual that is shorter
than the forcing tolerance.  No pass up to that one divides by zero: it divides by the curvature
along its direction and by the squared length of its residual, and both are positive. -/
theorem direction_forced {M : Type} [LinearAction Exact (Vec n) M] {h : M} (hA : A.PosDef)
    (hh : Acts h A) (hg : g ≠ 0) {limit : Option Int}
    (hlimit : ∀ k, limit = some k → k = 0 ∨ n ≤ k) :
    ∃ k < n, ∃ it p,
      Comes (some h) (tolerance (Space.norm g)) g k it ∧
      pass (some h) (tolerance (Space.norm g)) (k == 0) g it = .ok (.inl p) ∧
      direction g (some h) limit = .ok p ∧
      ‖image A p + g‖ < min (1 / 2) √‖g‖ * ‖g‖ ∧
      ∀ j it, Comes (some h) (tolerance (Space.norm g)) g j it →
        j ≤ k ∧ 0 < curvature A it.along ∧ ∃ r, 0 < r ∧ it.squared = real r := by
  -- the operator and the matrix give the same products, and the passes use nothing else
  have himage : ∀ x : Vec n, Space.imageUnder (some h) x = Space.imageUnder (some A) x := hh
  have htol := tolerance_pos hg
  obtain ⟨k, hk, it, hit, hshort⟩ := exists_short hA hg htol
  obtain ⟨S, -, hconjugate⟩ := hit.conjugate hA hg htol
  have hpass := hconjugate.pass_eq (hconjugate.curvature_pos hA)
    (min 0.5 √‖g‖ * ‖g‖) (k == 0)
  -- the first short residual ends the passes, before the limit can
  rw [if_pos hshort, ← pass_congr himage] at hpass
  have hcomes := hit.congr fun x => (himage x).symm
  rw [← tolerance_eq] at hpass hcomes
  refine ⟨k, hk, it, _, hcomes, hpass,
    hcomes.direction_eq hpass (hk.trans_le (le_passes hlimit)), ?_, ?_⟩
  · -- the residual that the pass has carried is that of its point
    rw [add_comm, ← hconjugate.remainder_eq]
    norm_num at hshort ⊢
    exact hshort
  · intro j it' hit'
    refine ⟨hcomes.le_of_ends hpass hit', ?_⟩
    have hexact := hit'.congr himage
    rw [tolerance_eq] at hexact
    obtain ⟨S', -, hconjugate'⟩ := hexact.conjugate hA hg htol
    exact ⟨hconjugate'.curvature_pos hA, _, hconjugate'.sq_pos, hconjugate'.squared⟩

/-- A bowl that is half as steep along one of its axes. -/
noncomputable def oval : Mat 2 := Matrix.diagonal ![1, 0.5]

/-- A gradient along neither axis of the bowl. -/
noncomputable def askew : Vec 2 := ∑ i, EuclideanSpace.single i 1

/-- With a limit of two, the products of the bowl are enough for the tolerance. -/
theorem direction_forced_oval :
    ∃ k < 2, ∃ it p,
      Comes (some (⟨fun x => .ok (image oval x)⟩ : Products 2)) (tolerance (Space.norm askew)) askew
        k it ∧
      pass (some (⟨fun x => .ok (image oval x)⟩ : Products 2)) (tolerance (Space.norm askew))
        (k == 0) askew it = .ok (.inl p) ∧
      direction askew (some (⟨fun x => .ok (image oval x)⟩ : Products 2)) (some 2) = .ok p ∧
      ‖image oval p + askew‖ < min (1 / 2) √‖askew‖ * ‖askew‖ ∧
      ∀ j it, Comes (some (⟨fun x => .ok (image oval x)⟩ : Products 2))
        (tolerance (Space.norm askew)) askew j it →
          j ≤ k ∧ 0 < curvature oval it.along ∧ ∃ r, 0 < r ∧ it.squared = real r := by
  have hoval : oval.PosDef := by
    apply Matrix.PosDef.diagonal
    intro i
    fin_cases i <;> norm_num
  have haskew : askew ≠ 0 := by
    intro hzero
    have hentry : askew 0 = 0 := by rw [hzero]; rfl
    simp [askew] at hentry
  apply direction_forced hoval (acts_products oval) haskew
  -- a limit of `2` allows for every dimension
  rintro k ⟨⟩
  exact .inr le_rfl

end ConjugateGradient

end Descent
