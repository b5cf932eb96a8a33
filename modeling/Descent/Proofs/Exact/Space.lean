import Descent.Operator.Basic
import Descent.Proofs.Exact.Scalar
import Descent.Space
import Mathlib.Analysis.Matrix.Hermitian
import Mathlib.Analysis.Matrix.PosDef

/-!
# Vectors and matrices of real numbers

In exact arithmetic the vectors are those of Euclidean space and the curvature is a real matrix.
The Newton step is the one that its specification describes; for a matrix that is one-to-one, such
as a positive definite one, it is the solution of the linear system (`newton_of_injective`).

A Hessian may be given as a matrix or as a function that computes its products
(`Exact.Products`).  What the solvers ask of it is a product with a vector, so it does not matter in
which representation it acts as a matrix (`Exact.Acts`).  Where a solver asks for the Newton step,
too, what it does with the answer can be told apart from how good the answer is: a matrix may come
with a solve of its own (`Exact.Solved`).
-/

open scoped RealInnerProductSpace

namespace Descent

namespace Exact

/-- The real number that a finite value is. -/
noncomputable def toReal : Exact → ℝ
  | known x => x.toReal
  | unknown => 0

@[simp]
theorem toReal_real (x : ℝ) : (real x).toReal = x := EReal.toReal_coe x

theorem real_injective : Function.Injective real := Function.LeftInverse.injective toReal_real

variable {n : ℕ}

/-- The vectors of real numbers. -/
abbrev Vec (n : ℕ) := EuclideanSpace ℝ (Fin n)

/-- The matrices of real numbers. -/
abbrev Mat (n : ℕ) := Matrix (Fin n) (Fin n) ℝ

/-- The linear map of a matrix. -/
noncomputable def image (A : Mat n) : Vec n →ₗ[ℝ] Vec n := A.toEuclideanLin

/-- The quadratic `gᵀx + ½ xᵀAx`. -/
noncomputable def form (A : Mat n) (g x : Vec n) : ℝ := ⟪g, x⟫ + 0.5 * ⟪x, image A x⟫

/-- The slope in a direction, where the gradient is `g`. -/
noncomputable def incline (g d : Vec n) : ℝ := ⟪g, d⟫

/-- The curvature of a matrix along a vector. -/
noncomputable def curvature (A : Mat n) (x : Vec n) : ℝ := ⟪x, image A x⟫

/-- Vectors have real entries: they are all finite, and nothing scales them that is not. -/
noncomputable instance : Space Exact (Vec n) where
  norm x := real ‖x‖
  dot x y := .ok (real ⟪x, y⟫)
  innerAbsent _ _ := .wrongType
  imageAbsent _ := .wrongType
  add x y := .ok (x + y)
  sub x y := .ok (x - y)
  scale x r := r.toReal • x
  zeros _ := 0
  blank := 0
  size _ := n
  isFinite _ := true

/-- The step is one of those whose image comes nearest to the negative of the gradient, and none of
these is shorter. -/
structure IsNewtonStep (A : Mat n) (g s : Vec n) : Prop where
  nearest : ∀ t, ‖image A s + g‖ ≤ ‖image A t + g‖
  shortest : ∀ t, ‖image A t + g‖ = ‖image A s + g‖ → ‖s‖ ≤ ‖t‖

/-- The Newton step. -/
noncomputable def newton (A : Mat n) (g : Vec n) : Vec n :=
  Classical.epsilon (IsNewtonStep A g)

noncomputable instance : LinearAction Exact (Vec n) (Mat n) where
  apply A x := .ok (image A x)
  newtonStep A g := .ok (newton A g)

/-! ### The operations -/

section

variable (x y : Vec n) (A : Mat n)

@[simp]
theorem norm_eq : Space.norm x = real ‖x‖ := rfl

@[simp]
theorem dot_eq : Space.dot x y = .ok (real ⟪x, y⟫) := rfl

@[simp]
theorem add_eq : Space.add x y = .ok (x + y) := rfl

@[simp]
theorem sub_eq : Space.sub x y = .ok (x - y) := rfl

@[simp]
theorem scale_real (r : ℝ) : Space.scale x (real r) = r • x := by
  show (real r).toReal • x = r • x
  rw [toReal_real]

@[simp]
theorem weightedDot_eq : Space.weightedDot x A y = .ok (real ⟪x, image A y⟫) := rfl

@[simp]
theorem newtonStep_eq : LinearAction.newtonStep A x = .ok (newton A x) := rfl

end

/-- A symmetric matrix acts alike on both sides of an inner product. -/
theorem inner_image {A : Mat n} (hA : A.IsSymm) (x y : Vec n) :
    ⟪image A x, y⟫ = ⟪x, image A y⟫ :=
  Matrix.isSymmetric_toEuclideanLin_iff.mpr (Matrix.isHermitian_iff_isSymm.mpr hA) x y

/-! ### Matrices that are one-to-one -/

/-- A nonsingular matrix is undone by its inverse. -/
theorem image_inv_image {A : Mat n} (hA : IsUnit A) (x : Vec n) : image A⁻¹ (image A x) = x := by
  unfold image
  rw [← LinearMap.comp_apply, ← Matrix.toLpLin_mul_same,
    Matrix.nonsing_inv_mul A ((Matrix.isUnit_iff_isUnit_det A).mp hA), Matrix.toLpLin_one,
    LinearMap.id_apply]

theorem image_image_inv {A : Mat n} (hA : IsUnit A) (x : Vec n) : image A (image A⁻¹ x) = x := by
  unfold image
  rw [← LinearMap.comp_apply, ← Matrix.toLpLin_mul_same,
    Matrix.mul_nonsing_inv A ((Matrix.isUnit_iff_isUnit_det A).mp hA), Matrix.toLpLin_one,
    LinearMap.id_apply]

theorem injective_image {A : Mat n} (hA : IsUnit A) : Function.Injective (image A) :=
  Function.LeftInverse.injective (image_inv_image hA)

/-- The Newton step solves the linear system. -/
theorem newton_of_injective {A : Mat n} (hA : Function.Injective (image A)) (g : Vec n) :
    image A (newton A g) = -g := by
  obtain ⟨s, hs⟩ := LinearMap.injective_iff_surjective.mp hA (-g)
  have hzero : ∀ t, image A t = -g ↔ ‖image A t + g‖ = 0 := fun t => by
    rw [norm_eq_zero, eq_neg_iff_add_eq_zero]
  -- there is a solution, so what comes nearest is one, and it is the only one
  have hs' : IsNewtonStep A g s := by
    have hexact := (hzero s).mp hs
    refine ⟨fun t => hexact ▸ norm_nonneg _, fun t ht => ?_⟩
    rw [hA (((hzero t).mpr (ht.trans hexact)).trans hs.symm)]
  have hnewton : IsNewtonStep A g (newton A g) := Classical.epsilon_spec ⟨s, hs'⟩
  have hle := hnewton.nearest s
  rw [(hzero s).mp hs] at hle
  exact (hzero _).mpr (le_antisymm hle (norm_nonneg _))

/-- A solution is the negative gradient under the inverse. -/
theorem eq_inv_of_image {A : Mat n} (hA : IsUnit A) {g s : Vec n} (hs : image A s = -g) :
    s = -image A⁻¹ g := by
  rw [← image_inv_image hA s, hs, map_neg]

/-- So the Newton step of a nonsingular matrix is that. -/
theorem newtonStep_eq_inv {A : Mat n} (hA : IsUnit A) (g : Vec n) :
    LinearAction.newtonStep A g = .ok (-image A⁻¹ g) := by
  rw [newtonStep_eq, eq_inv_of_image hA (newton_of_injective (injective_image hA) g)]

/-! ### Positive definite matrices -/

section

variable {A : Mat n} (hA : A.PosDef)

include hA

theorem isSymm_of_posDef : A.IsSymm := Matrix.isHermitian_iff_isSymm.mp hA.isHermitian

/-- A positive definite matrix curves upwards in every direction. -/
theorem inner_pos {x : Vec n} (hx : x ≠ 0) :
    0 < ⟪x, image A x⟫ := by
  have hpos := hA.dotProduct_mulVec_pos ((WithLp.ofLp_eq_zero 2).not.mpr hx)
  rwa [dotProduct_comm, ← Matrix.toLin'_apply, ← Matrix.ofLp_toLpLin 2 2,
    ← EuclideanSpace.inner_eq_star_dotProduct] at hpos

theorem inner_nonneg (x : Vec n) : 0 ≤ ⟪x, image A x⟫ := by
  rcases eq_or_ne x 0 with rfl | hx
  · rw [inner_zero_left]
  · exact (inner_pos hA hx).le

theorem eq_zero_of_image {x : Vec n} (hx : image A x = 0) :
    x = 0 := by
  by_contra hne
  have hpos := inner_pos hA hne
  rw [hx, inner_zero_right] at hpos
  exact lt_irrefl 0 hpos

theorem injective_of_posDef : Function.Injective (image A) :=
  (injective_iff_map_eq_zero _).mpr fun _ => eq_zero_of_image hA

theorem exists_image (y : Vec n) : ∃ x, image A x = y :=
  LinearMap.injective_iff_surjective.mp (injective_of_posDef hA) y

/-- The Newton step solves the linear system. -/
theorem newton_spec (g : Vec n) : image A (newton A g) = -g :=
  newton_of_injective (injective_of_posDef hA) g

end

/-! ### Representations of a Hessian -/

variable {M : Type}

/-- A Hessian that is given as a function computing its products. -/
structure Products (n : ℕ) where
  product : Vec n → Except (Fault Exact) (Vec n)

instance : LinearAction Exact (Vec n) (Products n) where
  apply h x := h.product x
  newtonStep _ _ := .error .wrongType

/-- A matrix with a way of its own to solve for the Newton step. -/
structure Solved (n : ℕ) where
  matrix : Mat n
  solve : Vec n → Vec n

noncomputable instance : LinearAction Exact (Vec n) (Solved n) where
  apply h x := .ok (image h.matrix x)
  newtonStep h g := .ok (h.solve g)

/-- The Hessian acts as the matrix. -/
def Acts [LinearAction Exact (Vec n) M] (h : M) (A : Mat n) : Prop :=
  ∀ x : Vec n, LinearAction.apply h x = .ok (image A x)

theorem acts_matrix (A : Mat n) : Acts A A := fun _ => rfl

theorem acts_products (A : Mat n) : Acts (⟨fun x => .ok (image A x)⟩ : Products n) A :=
  fun _ => rfl

theorem acts_solved (A : Mat n) (solve : Vec n → Vec n) : Acts (⟨A, solve⟩ : Solved n) A :=
  fun _ => rfl

/-- The product with a vector on either side asks for one product with the Hessian. -/
theorem Acts.weightedDot_eq [LinearAction Exact (Vec n) M] {h : M} {A : Mat n} (hh : Acts h A)
    (x y : Vec n) : Space.weightedDot x h y = .ok (real ⟪x, image A y⟫) := by
  unfold Space.weightedDot
  rw [hh y]
  rfl

end Exact

end Descent
