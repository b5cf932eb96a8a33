import Descent.Operator.Differences
import Descent.Proofs.Act.Triple
import Descent.Proofs.Exact.Quantity
import Descent.Proofs.Exact.Space
import Mathlib

/-!
# Central differences in exact arithmetic

An objective that answers with the values of a real function (`Differences.Measures`) is evaluated
at points displaced along the coordinates.  Whatever the function is, the gradient that is made of
its values holds the first differences (`Differences.counted_gradient`) and the Hessian the second
ones, as a symmetric matrix (`Differences.counted_hessian`), and the number of evaluations depends
on the number of coordinates alone.

For polynomials of low degree these differences are the derivatives
(`Differences.exact_of_totalDegree_le`).  Along a line a polynomial in several variables is one in a
single variable (`Exact.alongLine`), of no greater degree, whose derivatives are the values of
derivatives in the direction of the line (`Exact.derivative_alongLine`).  What a central difference
leaves out are powers of the step that degrees this low do not have, so a first difference gives the
slope exactly up to degree two (`Exact.first_difference`) and a second one the curvature up to
degree three (`Exact.second_difference`).  The difference along two coordinates is one of second
differences along their diagonals (`Exact.mixed_difference`).
-/

namespace Descent.Exact

open MvPolynomial (pderiv)

variable {σ : Type} (p : MvPolynomial σ ℝ) (x e d : σ → ℝ) {h : ℝ}

/-! ### Derivatives in a direction -/

/-- The derivative of polynomials in a direction. -/
noncomputable def directional : Derivation ℝ (MvPolynomial σ ℝ) (MvPolynomial σ ℝ) :=
  MvPolynomial.mkDerivation ℝ fun i => MvPolynomial.C (e i)

theorem directional_X (i : σ) : directional e (MvPolynomial.X i) = MvPolynomial.C (e i) :=
  MvPolynomial.mkDerivation_X _ _ _

theorem directional_add : directional (e + d) p = directional e p + directional d p := by
  have hadd : directional (e + d) = directional e + directional d :=
    MvPolynomial.derivation_ext fun i => by
      rw [Derivation.add_apply, directional_X, directional_X, directional_X, Pi.add_apply,
        MvPolynomial.C_add]
  rw [hadd, Derivation.add_apply]

theorem directional_sub : directional (e - d) p = directional e p - directional d p := by
  have hsub : directional (e - d) = directional e - directional d :=
    MvPolynomial.derivation_ext fun i => by
      rw [Derivation.sub_apply, directional_X, directional_X, directional_X, Pi.sub_apply,
        MvPolynomial.C_sub]
  rw [hsub, Derivation.sub_apply]

/-- Derivatives in two directions can be taken in either order. -/
theorem directional_comm : directional e (directional d p) = directional d (directional e p) := by
  have hzero : ⁅directional e, directional d⁆ = 0 :=
    MvPolynomial.derivation_ext fun i => by
      rw [Derivation.commutator_apply, directional_X, directional_X, MvPolynomial.derivation_C,
        MvPolynomial.derivation_C, sub_zero, Derivation.zero_apply]
  rw [← sub_eq_zero, ← Derivation.commutator_apply, hzero, Derivation.zero_apply]

theorem directional_single [DecidableEq σ] (i : σ) :
    directional (Pi.single i 1) p = pderiv i p := by
  have hsingle : directional (Pi.single i 1) = pderiv i :=
    MvPolynomial.derivation_ext fun j => by
      rw [directional_X, MvPolynomial.pderiv_X]
      rcases eq_or_ne j i with rfl | hj
      · rw [Pi.single_eq_same, Pi.single_eq_same, MvPolynomial.C_1]
      · rw [Pi.single_eq_of_ne hj, Pi.single_eq_of_ne hj, MvPolynomial.C_0]
  rw [hsingle]

/-! ### Lines -/

/-- A polynomial along the line through a point in a direction. -/
noncomputable def alongLine : Polynomial ℝ :=
  MvPolynomial.aeval (fun i => Polynomial.C (x i) + Polynomial.C (e i) * Polynomial.X) p

theorem eval_alongLine (s : ℝ) :
    (alongLine p x e).eval s = MvPolynomial.eval (x + s • e) p := by
  unfold alongLine
  induction p using MvPolynomial.induction_on with
  | C a => simp
  | add p q hp hq => simp only [map_add, Polynomial.eval_add, hp, hq]
  | mul_X p i hp =>
    simp only [map_mul, MvPolynomial.aeval_X, MvPolynomial.eval_X, Polynomial.eval_mul, hp,
      Polynomial.eval_add, Polynomial.eval_C, Polynomial.eval_X, Pi.add_apply, Pi.smul_apply,
      smul_eq_mul, mul_comm s]

theorem natDegree_alongLine_le {k : ℕ} (hp : p.totalDegree ≤ k) :
    (alongLine p x e).natDegree ≤ k := by
  have hline (i : σ) :
      (Polynomial.C (x i) + Polynomial.C (e i) * Polynomial.X).natDegree ≤ 1 := by
    rw [add_comm]
    exact Polynomial.natDegree_linear_le
  exact (MvPolynomial.aeval_natDegree_le p hp _ hline).trans_eq (mul_one k)

theorem derivative_alongLine :
    (alongLine p x e).derivative = alongLine (directional e p) x e := by
  unfold alongLine
  induction p using MvPolynomial.induction_on with
  | C a => simp
  | add p q hp hq => simp only [map_add, hp, hq]
  | mul_X p i hp =>
    rw [map_mul, Polynomial.derivative_mul, hp, Derivation.leibniz, directional_X, map_add,
      smul_eq_mul, smul_eq_mul, map_mul, map_mul, MvPolynomial.aeval_X]
    simp
    ring

theorem coeff_alongLine_zero : (alongLine p x e).coeff 0 = MvPolynomial.eval x p := by
  rw [Polynomial.coeff_zero_eq_eval_zero, eval_alongLine, zero_smul, add_zero]

/-- The coefficients beyond the first are those of the derivative, divided by their places. -/
theorem coeff_alongLine_succ (k : ℕ) :
    (alongLine p x e).coeff (k + 1) * (k + 1) = (alongLine (directional e p) x e).coeff k := by
  rw [← derivative_alongLine, Polynomial.coeff_derivative]

/-! ### Differences -/

theorem first_difference (hp : p.totalDegree ≤ 2) (hh : h ≠ 0) :
    (MvPolynomial.eval (x + h • e) p - MvPolynomial.eval (x - h • e) p) / (2 * h) =
      MvPolynomial.eval x (directional e p) := by
  have hdegree : (alongLine p x e).natDegree < 3 :=
    Nat.lt_succ_of_le (natDegree_alongLine_le p x e hp)
  have hneg : x - h • e = x + (-h) • e := by module
  have hcoeff : (alongLine p x e).coeff 1 = MvPolynomial.eval x (directional e p) := by
    have hsucc := coeff_alongLine_succ p x e 0
    rwa [coeff_alongLine_zero, Nat.cast_zero, zero_add, zero_add, mul_one] at hsucc
  rw [hneg, ← eval_alongLine, ← eval_alongLine, Polynomial.eval_eq_sum_range' hdegree,
    Polynomial.eval_eq_sum_range' hdegree, ← hcoeff]
  simp only [Finset.sum_range_succ, Finset.sum_range_zero]
  field_simp
  ring

theorem second_difference (hp : p.totalDegree ≤ 3) :
    MvPolynomial.eval (x + h • e) p + MvPolynomial.eval (x - h • e) p =
      2 * MvPolynomial.eval x p +
        h ^ 2 * MvPolynomial.eval x (directional e (directional e p)) := by
  have hdegree : (alongLine p x e).natDegree < 4 :=
    Nat.lt_succ_of_le (natDegree_alongLine_le p x e hp)
  have hneg : x - h • e = x + (-h) • e := by module
  have hcoeff : (alongLine p x e).coeff 2 * 2 =
      MvPolynomial.eval x (directional e (directional e p)) := by
    have hone := coeff_alongLine_succ (directional e p) x e 0
    have htwo := coeff_alongLine_succ p x e 1
    rw [← coeff_alongLine_zero (directional e (directional e p)) x e, ← hone, zero_add, ← htwo]
    push_cast
    ring
  rw [hneg, ← eval_alongLine, ← eval_alongLine, Polynomial.eval_eq_sum_range' hdegree,
    Polynomial.eval_eq_sum_range' hdegree, ← hcoeff,
    ← coeff_alongLine_zero p x e]
  simp only [Finset.sum_range_succ, Finset.sum_range_zero]
  ring

theorem mixed_difference (hp : p.totalDegree ≤ 3) (hh : h ≠ 0) :
    (MvPolynomial.eval (x + h • e + h • d) p - MvPolynomial.eval (x + h • e - h • d) p
        - MvPolynomial.eval (x - h • e + h • d) p + MvPolynomial.eval (x - h • e - h • d) p)
          / (4 * h ^ 2) =
      MvPolynomial.eval x (directional e (directional d p)) := by
  have hsum := second_difference p x (e + d) hp (h := h)
  have hdiff := second_difference p x (e - d) hp (h := h)
  have hpp : x + h • e + h • d = x + h • (e + d) := by module
  have hpm : x + h • e - h • d = x + h • (e - d) := by module
  have hmp : x - h • e + h • d = x - h • (e - d) := by module
  have hmm : x - h • e - h • d = x - h • (e + d) := by module
  -- the squares of the two directions drop out, and twice their product is left
  have hcross : MvPolynomial.eval x (directional (e + d) (directional (e + d) p)) -
      MvPolynomial.eval x (directional (e - d) (directional (e - d) p)) =
        4 * MvPolynomial.eval x (directional e (directional d p)) := by
    simp only [directional_add, directional_sub, map_add, map_sub, directional_comm p d e]
    ring
  rw [hpp, hpm, hmp, hmm, div_eq_iff (by positivity)]
  linear_combination hsum - hdiff + h ^ 2 * hcross

end Descent.Exact

namespace Descent

open Act (Counted)
open Exact (real)
open MvPolynomial (pderiv)

namespace Differences

variable {n : ℕ}

/-! ### Points -/

/-- The array of the coordinates of a point. -/
def point (b : Backend) (x : Fin n → ℝ) : Tensor Exact :=
  Tensor.vector b (List.ofFn fun i => real (x i))

/-- The array of the entries of a matrix. -/
def grid (A : Matrix (Fin n) (Fin n) ℝ) : Tensor Exact :=
  Tensor.matrix .numpy
    ((List.finRange n).map fun i => (List.finRange n).map fun j => real (A i j)) n

/-- A displacement along a coordinate. -/
def shift (h : ℝ) (i : Fin n) : Fin n → ℝ := h • Pi.single i 1

theorem zipWith_point {symbol : String} {f : Exact → Exact → Exact} {g : ℝ → ℝ → ℝ}
    (hf : ∀ r s, f (real r) (real s) = real (g r s)) (x y : Fin n → ℝ) :
    Tensor.zipWith symbol f (point .numpy x) (point .numpy y) =
      .ok (point .numpy fun i => g (x i) (y i)) := by
  have hcommon : Shape.common [n] [n] = some [n] := by
    simp [Shape.common, Shape.commonReversed]
  have hshape (x : Fin n → ℝ) : (point .numpy x).shape = [n] := by
    simp [point, Tensor.vector]
  have hentries : List.zipWith f (List.ofFn fun i => real (x i)) (List.ofFn fun i => real (y i)) =
      List.ofFn fun i => real (g (x i) (y i)) := by
    refine List.ext_getElem (by simp) fun i hi hi' => ?_
    simp [hf]
  unfold Tensor.zipWith
  simp only [hshape, hcommon, Shape.spread, if_true]
  show Except.ok (Tensor.mk .numpy [n] (List.zipWith f _ _)) = _
  unfold point Tensor.vector
  rw [hentries, List.length_ofFn]

theorem add_point (x y : Fin n → ℝ) :
    Space.add (point .numpy x) (point .numpy y) = .ok (point .numpy (x + y)) :=
  zipWith_point (fun _ _ => Exact.real_add) x y

theorem sub_point (x y : Fin n → ℝ) :
    Space.sub (point .numpy x) (point .numpy y) = .ok (point .numpy (x - y)) :=
  zipWith_point (fun _ _ => Exact.real_sub) x y

theorem map_range {α : Type} (g : ℕ → α) :
    (List.range n).map g = (List.finRange n).map fun i : Fin n => g i := by
  rw [← List.map_coe_finRange_eq_range, List.map_map]
  rfl

theorem displacements_eq (h : ℝ) :
    displacements n (real h) = (List.finRange n).map fun i => point .numpy (shift h i) := by
  unfold displacements Rotations.unitColumns
  rw [List.map_map, map_range]
  refine List.map_congr_left fun i _ => ?_
  have hentries : ((List.range n).map fun j => if (i : ℕ) = j then (1.0 : Exact) else 0.0).map
      (· * real h) = List.ofFn fun j => real (shift h i j) := by
    rw [List.map_map, map_range, List.ofFn_eq_map]
    refine List.map_congr_left fun j _ => ?_
    have hentry : (if (i : ℕ) = j then (1.0 : Exact) else 0.0) =
        real ((Pi.single i 1 : Fin n → ℝ) j) := by
      rcases eq_or_ne i j with rfl | hij
      · rw [if_pos rfl, Pi.single_eq_same, Exact.one_eq]
      · rw [if_neg (Fin.val_ne_of_ne hij), Pi.single_eq_of_ne hij.symm, Exact.zero_eq]
    show (if (i : ℕ) = j then (1.0 : Exact) else 0.0) * real h = _
    rw [hentry, Exact.real_mul, mul_comm]
    rfl
  exact congrArg (Tensor.vector .numpy) hentries

/-! ### Evaluations -/

variable {τ : Type} {count : τ → ℕ} {f : Tensor Exact → Act Exact τ (Value Exact)}
  {F : (Fin n → ℝ) → ℝ} {eps center : Value Exact} {h : ℝ} {x e d : Fin n → ℝ}

/-- The objective answers with the values of a real function, and each answer is counted. -/
def Measures (count : τ → ℕ) (f : Tensor Exact → Act Exact τ (Value Exact))
    (F : (Fin n → ℝ) → ℝ) : Prop :=
  ∀ x, Counted count 1 (f (point .numpy x)) fun v => v.Denotes (F x)

/-- The square of a step. -/
theorem squared_of_denotes (heps : eps.Denotes h) : squared eps = .ok (real (h ^ 2)) := by
  obtain ⟨m, hvm, hm⟩ := heps
  have hnumber : eps.toNumber = .ok m := by
    unfold Value.toNumber
    rw [hvm]
  unfold squared
  rw [hnumber]
  cases m with
  | int n =>
    have hn : (n : ℝ) = h := hm
    have hsquare : (Number.int (n * n)).Denotes (h ^ 2) := by
      show ((n * n : ℤ) : ℝ) = h ^ 2
      rw [← hn]
      push_cast
      ring
    exact hsquare.toReal
  | real x =>
    have hx : x = real h := hm
    subst hx
    exact Exact.square_real

theorem two_eq : (2.0 : Exact) = real 2 := by
  rw [Exact.ofScientific_eq]
  norm_num

theorem four_eq : (4.0 : Exact) = real 4 := by
  rw [Exact.ofScientific_eq]
  norm_num

theorem counted_value (hf : Measures count f F) {p : Except (Fault Exact) (Tensor Exact)}
    (hp : p = .ok (point .numpy x)) : Counted count 1 (value f p) fun v => v.Denotes (F x) :=
  .lift_bind hp (hf x)

/-! ### The gradient -/

/-- The first difference of a function along a vector. -/
noncomputable def first (F : (Fin n → ℝ) → ℝ) (x e : Fin n → ℝ) (h : ℝ) : ℝ :=
  (F (x + e) - F (x - e)) / (h + h)

/-- The gradient is made of first differences, with two evaluations for each. -/
theorem counted_gradient (hf : Measures count f F) (heps : eps.Denotes h) (hh : 0 < h)
    (b : Backend) (x : Fin n → ℝ) :
    Counted count (2 * n) (approximateGradient f (point b x) eps)
      (· = point .numpy fun i => first F x (shift h i) h) := by
  have hlength : (point b x).entries.length = n := by simp [point, Tensor.vector]
  -- one evaluation on either side of the point, along each coordinate
  have hentry (i : Fin n) : Counted count 2
      (do
        let above ← value f (Space.add (point .numpy x) (point .numpy (shift h i)))
        let below ← value f (Space.sub (point .numpy x) (point .numpy (shift h i)))
        Act.lift (do Scalar.quotient (← (← above.sub below).toReal) (2.0 * real h)))
      (· = real (first F x (shift h i) h)) := by
    refine (counted_value hf (add_point x _)).bind (l := 1) fun above habove => ?_
    refine (counted_value hf (sub_point x _)).bind (l := 0) fun below hbelow => ?_
    obtain ⟨difference, hsub, hdifference⟩ := habove.sub hbelow
    refine .lift ?_ rfl
    rw [hsub, two_eq, Exact.real_mul, first, ← two_mul]
    show (difference.toReal >>= fun y => Scalar.quotient y (real (2 * h))) = _
    rw [hdifference.toReal]
    exact Exact.quotient_real (by positivity)
  unfold approximateGradient
  refine .lift_bind (heps.le_zero hh) ?_
  refine .lift_bind heps.measured ?_
  dsimp only
  rw [hlength, displacements_eq, List.mapM_map, mul_comm]
  have hentries := Counted.mapM fun i (_ : i ∈ List.finRange n) => hentry i
  rw [List.length_finRange] at hentries
  refine hentries.bind (l := 0) ?_
  rintro _ rfl
  refine .pure ?_
  simp [point, Tensor.vector, List.ofFn_eq_map]

/-! ### The Hessian -/

/-- The second difference of a function along a vector. -/
noncomputable def second (F : (Fin n → ℝ) → ℝ) (x e : Fin n → ℝ) (h : ℝ) : ℝ :=
  (F (x + e) - F x - (F x - F (x - e))) / h ^ 2

/-- The second difference of a function along two vectors. -/
noncomputable def mixed (F : (Fin n → ℝ) → ℝ) (x e d : Fin n → ℝ) (h : ℝ) : ℝ :=
  (F (x + e + d) - F (x + e - d) - F (x - e + d) + F (x - e - d)) / (4 * h ^ 2)

theorem counted_straight (hf : Measures count f F) (heps : eps.Denotes h) (hh : 0 < h)
    (hcenter : center.Denotes (F x)) (e : Fin n → ℝ) :
    Counted count 2 (straight f (point .numpy x) center eps (point .numpy e))
      (· = real (second F x e h)) := by
  unfold straight
  refine (counted_value hf (add_point x e)).bind (l := 1) fun above habove => ?_
  obtain ⟨twice, hmul, htwice⟩ := (Value.denotes_real 2).mul hcenter
  obtain ⟨difference, hsub, hdifference⟩ := habove.sub htwice
  have hfirst : (do above.sub (← (Value.real 2.0).mul center)) = .ok difference := by
    rw [two_eq, hmul]
    exact hsub
  refine .lift_bind hfirst ?_
  refine (counted_value hf (sub_point x e)).bind (l := 0) fun below hbelow => ?_
  obtain ⟨total, hadd, htotal⟩ := hdifference.add hbelow
  -- the same quotient, summed up in another order
  have hsecond : second F x e h = (F (x + e) - 2 * F x + F (x - e)) / h ^ 2 := by
    unfold second
    ring
  refine .lift ?_ rfl
  rw [hadd, squared_of_denotes heps, hsecond]
  show (total.toReal >>= fun y => Scalar.quotient y (real (h ^ 2))) = _
  rw [htotal.toReal]
  exact Exact.quotient_real (by positivity)

theorem counted_crossed (hf : Measures count f F) (heps : eps.Denotes h) (hh : 0 < h)
    (x e d : Fin n → ℝ) :
    Counted count 4 (crossed f (point .numpy x) eps (point .numpy e) (point .numpy d))
      (· = real (mixed F x e d h)) := by
  have hplus {y : Fin n → ℝ} {r : Except (Fault Exact) (Tensor Exact)}
      (hr : r = .ok (point .numpy y)) :
      (do Space.add (← r) (point .numpy d)) = .ok (point .numpy (y + d)) := by
    rw [hr]
    exact add_point y d
  have hminus {y : Fin n → ℝ} {r : Except (Fault Exact) (Tensor Exact)}
      (hr : r = .ok (point .numpy y)) :
      (do Space.sub (← r) (point .numpy d)) = .ok (point .numpy (y - d)) := by
    rw [hr]
    exact sub_point y d
  unfold crossed
  -- the four corners, one evaluation each
  refine (counted_value hf (hplus (add_point x e))).bind (l := 3) fun pp hpp => ?_
  refine (counted_value hf (hminus (add_point x e))).bind (l := 2) fun pm hpm => ?_
  obtain ⟨first, hfirst, hfirst'⟩ := hpp.sub hpm
  refine .lift_bind hfirst ?_
  refine (counted_value hf (hplus (sub_point x e))).bind (l := 1) fun mp hmp => ?_
  obtain ⟨second, hsecond, hsecond'⟩ := hfirst'.sub hmp
  refine .lift_bind hsecond ?_
  refine (counted_value hf (hminus (sub_point x e))).bind (l := 0) fun mm hmm => ?_
  obtain ⟨total, hadd, htotal⟩ := hsecond'.add hmm
  refine .lift ?_ rfl
  rw [hadd, squared_of_denotes heps, four_eq]
  show (total.toReal >>= fun y => Scalar.quotient y (real 4 * real (h ^ 2))) = _
  rw [htotal.toReal, Exact.real_mul]
  exact Exact.quotient_real (by positivity)

/-- The rows of an upper triangle with given entries on the diagonal and beside it. -/
def triangle {ι R : Type} (diagonal : ι → R) (beside : ι → ι → R) : List ι → List (List R)
  | [] => []
  | i :: rest => (diagonal i :: rest.map (beside i)) :: triangle diagonal beside rest

theorem getD_triangle {ι R : Type} {diagonal : ι → R} {beside : ι → ι → R} (z : R) {is : List ι}
    {a b : ℕ} (hab : a ≤ b) (ha : a < is.length) (hb : b < is.length) :
    ((triangle diagonal beside is).getD a []).getD (b - a) z =
      if a = b then diagonal is[b] else beside is[a] is[b] := by
  induction is generalizing a b with
  | nil => exact absurd hb (Nat.not_lt_zero b)
  | cons i rest ih =>
    cases a with
    | zero =>
      cases b with
      | zero => rfl
      | succ b =>
        have hb' : b < rest.length := Nat.lt_of_succ_lt_succ hb
        simp [triangle, hb']
    | succ a =>
      cases b with
      | zero => exact absurd hab (Nat.not_succ_le_zero a)
      | succ b =>
        have hrest := ih (Nat.le_of_succ_le_succ hab) (Nat.lt_of_succ_lt_succ ha)
          (Nat.lt_of_succ_lt_succ hb)
        -- the first row is dropped and every other one is one place on
        simpa [triangle] using hrest

/-- The entries of a symmetric matrix whose upper triangle has these rows. -/
theorem symmetricEntry_triangle {R : Type} [Scalar R] (diagonal : Fin n → R)
    (beside : Fin n → Fin n → R) (i j : Fin n) :
    symmetricEntry (triangle diagonal beside (List.finRange n)) i j =
      if i = j then diagonal i else beside (min i j) (max i j) := by
  have hmax : max (i : ℕ) j < (List.finRange n).length := by
    rw [List.length_finRange]
    exact max_lt i.2 j.2
  rw [symmetricEntry, getD_triangle _ min_le_max (min_le_max.trans_lt hmax) hmax,
    List.getElem_finRange, List.getElem_finRange]
  rcases lt_trichotomy i j with hij | rfl | hij
  · have hval : (i : ℕ) < j := hij
    simp [hij.le, hij.ne, hval.le, hval.ne]
  · simp
  · have hval : (j : ℕ) < i := hij
    simp [hij.le, hij.ne', hval.le, hval.ne]

/-- Each row takes two evaluations for its first entry and four for each of the others. -/
theorem counted_upperRows (hf : Measures count f F) (heps : eps.Denotes h) (hh : 0 < h)
    (hcenter : center.Denotes (F x)) (is : List (Fin n)) :
    Counted count (2 * is.length ^ 2)
      (upperRows f (point .numpy x) center eps (is.map fun i => point .numpy (shift h i)))
      (· = triangle (fun i => real (second F x (shift h i) h))
        (fun i j => real (mixed F x (shift h i) (shift h j) h)) is) := by
  induction is with
  | nil => exact .pure rfl
  | cons i rest ih =>
    -- `2` for the diagonal entry, `4` for each one beside it, and the rows below
    have hcount : 2 * (i :: rest).length ^ 2 =
        2 + (rest.length * 4 + (2 * rest.length ^ 2 + 0)) := by
      rw [List.length_cons]
      ring
    rw [hcount]
    refine (counted_straight hf heps hh hcenter _).bind ?_
    rintro _ rfl
    rw [List.mapM_map]
    refine (Counted.mapM fun j _ => counted_crossed hf heps hh x _ (shift h j)).bind ?_
    rintro _ rfl
    refine ih.bind ?_
    rintro _ rfl
    exact .pure rfl

/-- The matrix of second differences. -/
noncomputable def secondMatrix (F : (Fin n → ℝ) → ℝ) (x : Fin n → ℝ) (h : ℝ) :
    Matrix (Fin n) (Fin n) ℝ :=
  fun i j => if i = j then second F x (shift h i) h
    else mixed F x (shift h (min i j)) (shift h (max i j)) h

theorem isSymm_secondMatrix (F : (Fin n → ℝ) → ℝ) (x : Fin n → ℝ) (h : ℝ) :
    (secondMatrix F x h).IsSymm := by
  ext i j
  rw [Matrix.transpose_apply, secondMatrix, secondMatrix, min_comm, max_comm]
  rcases eq_or_ne i j with rfl | hij
  · rfl
  · rw [if_neg hij, if_neg hij.symm]

/-- The Hessian is made of second differences, with two evaluations for each entry of the diagonal,
four for each pair of coordinates and one at the point itself. -/
theorem counted_hessian (hf : Measures count f F) (heps : eps.Denotes h) (hh : 0 < h)
    (b : Backend) (x : Fin n → ℝ) :
    Counted count (1 + 2 * n ^ 2) (approximateHessian f (point b x) eps)
      (· = grid (secondMatrix F x h)) := by
  have hlength : (point b x).entries.length = n := by simp [point, Tensor.vector]
  unfold approximateHessian
  refine .lift_bind (heps.le_zero hh) ?_
  refine .lift_bind heps.measured ?_
  dsimp only
  rw [hlength, displacements_eq]
  -- the value in the centre is asked for once, and then the rows
  refine (counted_value hf (x := x) rfl).bind (l := 2 * n ^ 2) fun center hcenter => ?_
  have hrows := counted_upperRows hf heps hh hcenter (List.finRange n)
  rw [List.length_finRange] at hrows
  refine hrows.bind (l := 0) ?_
  rintro _ rfl
  refine .pure ?_
  unfold grid
  rw [map_range]
  refine congrArg (Tensor.matrix .numpy · n) (List.map_congr_left fun i _ => ?_)
  rw [map_range]
  refine List.map_congr_left fun j _ => ?_
  rw [symmetricEntry_triangle, secondMatrix]
  rcases eq_or_ne i j with rfl | hij
  · rw [if_pos rfl, if_pos rfl]
  · rw [if_neg hij, if_neg hij]

/-! ### Polynomials of low degree -/

section Polynomials

variable {p : MvPolynomial (Fin n) ℝ}

theorem first_eq_pderiv (hp : p.totalDegree ≤ 2) (hh : h ≠ 0) (x : Fin n → ℝ) (i : Fin n) :
    first (fun y => MvPolynomial.eval y p) x (shift h i) h = MvPolynomial.eval x (pderiv i p) := by
  rw [← Exact.directional_single, first, ← two_mul]
  exact Exact.first_difference p x (Pi.single i 1) hp hh

theorem secondMatrix_eq_pderiv (hp : p.totalDegree ≤ 3) (hh : h ≠ 0) (x : Fin n → ℝ) :
    secondMatrix (fun y => MvPolynomial.eval y p) x h =
      fun i j => MvPolynomial.eval x (pderiv i (pderiv j p)) := by
  have hdirectional (i j : Fin n) : MvPolynomial.eval x (pderiv i (pderiv j p)) =
      MvPolynomial.eval x
        (Exact.directional (Pi.single i 1) (Exact.directional (Pi.single j 1) p)) := by
    rw [Exact.directional_single, Exact.directional_single]
  have hmixed (i j : Fin n) : mixed (fun y => MvPolynomial.eval y p) x (shift h i) (shift h j) h =
      MvPolynomial.eval x (pderiv i (pderiv j p)) := by
    rw [hdirectional]
    exact Exact.mixed_difference p x (Pi.single i 1) (Pi.single j 1) hp hh
  ext i j
  rw [secondMatrix]
  rcases lt_trichotomy i j with hij | rfl | hij
  · rw [if_neg hij.ne, min_eq_left hij.le, max_eq_right hij.le, hmixed]
  · rw [if_pos rfl, second, hdirectional, div_eq_iff (by positivity)]
    have hsecond := Exact.second_difference p x (Pi.single i 1) hp (h := h)
    unfold shift
    linear_combination hsecond
  · -- below the diagonal the derivatives are taken in the other order
    rw [if_neg hij.ne', min_eq_right hij.le, max_eq_left hij.le, hmixed, hdirectional, hdirectional,
      Exact.directional_comm]

end Polynomials

/-- In exact arithmetic, over the real numbers and so over the rational ones, for a point with any
number of coordinates and any positive step: the approximate gradient of a polynomial of total
degree at most two is its gradient, and takes two evaluations for each coordinate; the approximate
Hessian of a polynomial of total degree at most three is its Hessian; and that of any function
whatever is a symmetric matrix, and takes `1 + 2 n²` evaluations. -/
theorem exact_of_totalDegree_le (hf : Measures count f F) (heps : eps.Denotes h) (hh : 0 < h)
    (b : Backend) (x : Fin n → ℝ) (t : τ) :
    (∃ G t', (approximateGradient f (point b x) eps).run t = (.ok G, t') ∧
      count t' = count t + 2 * n ∧
      ∀ p : MvPolynomial (Fin n) ℝ, p.totalDegree ≤ 2 → (∀ y, F y = MvPolynomial.eval y p) →
        G = point .numpy fun i => MvPolynomial.eval x (pderiv i p)) ∧
    ∃ (A : Matrix (Fin n) (Fin n) ℝ) (t' : τ),
      (approximateHessian f (point b x) eps).run t = (.ok (grid A), t') ∧
      count t' = count t + (1 + 2 * n ^ 2) ∧ A.IsSymm ∧
      ∀ p : MvPolynomial (Fin n) ℝ, p.totalDegree ≤ 3 → (∀ y, F y = MvPolynomial.eval y p) →
        A = fun i j => MvPolynomial.eval x (pderiv i (pderiv j p)) := by
  obtain ⟨G, t₁, hgradient, hG, hcount⟩ := (counted_gradient hf heps hh b x).exists_run t
  obtain ⟨H, t₂, hhessian, rfl, hcount'⟩ := (counted_hessian hf heps hh b x).exists_run t
  refine ⟨⟨G, t₁, hgradient, hcount, fun p hp hF => ?_⟩,
    _, t₂, hhessian, hcount', isSymm_secondMatrix F x h, fun p hp hF => ?_⟩
  · obtain rfl : F = fun y => MvPolynomial.eval y p := funext hF
    rw [hG]
    exact congrArg (point .numpy) (funext fun i => first_eq_pderiv hp hh.ne' x i)
  · obtain rfl : F = fun y => MvPolynomial.eval y p := funext hF
    exact secondMatrix_eq_pderiv hp hh.ne' x

/-- An objective with the values of a function, which counts its evaluations. -/
noncomputable def sampled (F : (Fin n → ℝ) → ℝ) (x : Tensor Exact) :
    Act Exact ℕ (Value Exact) :=
  Act.of fun k => (.ok (.real (real (F fun i => (x.entries.getD i 0.0).toReal))), k + 1)

theorem measures_sampled (F : (Fin n → ℝ) → ℝ) : Measures id (sampled F) F := by
  intro x m k hk
  have hpoint : (fun i : Fin n => ((point .numpy x).entries.getD i 0.0).toReal) = x := by
    funext i
    simp [point, Tensor.vector]
  refine ⟨fun v k' hrun => ?_, fun _ _ hrun => by cases hrun⟩
  cases hrun
  rw [hpoint]
  exact ⟨Value.denotes_real _, congrArg (· + 1) hk⟩

/-- The product of two coordinates, with a whole step. -/
theorem exact_of_totalDegree_le_product :
    (approximateGradient (sampled fun y : Fin 2 → ℝ => y 0 * y 1) (point .torch ![1, 2])
      (.int 1)).run 0 = (.ok (point .numpy ![2, 1]), 4) ∧
    (approximateHessian (sampled fun y : Fin 2 → ℝ => y 0 * y 1) (point .torch ![1, 2])
      (.int 1)).run 0 = (.ok (grid !![0, 1; 1, 0]), 9) := by
  let p : MvPolynomial (Fin 2) ℝ := MvPolynomial.X 0 * MvPolynomial.X 1
  have hdegree : p.totalDegree ≤ 2 :=
    (MvPolynomial.totalDegree_mul _ _).trans_eq (by simp [MvPolynomial.totalDegree_X])
  have hF (y : Fin 2 → ℝ) : y 0 * y 1 = MvPolynomial.eval y p := by simp [p]
  have heps : (Value.int 1 : Value Exact).Denotes 1 := ⟨_, rfl, Int.cast_one⟩
  obtain ⟨⟨G, k, hgradient, hk, hG⟩, A, k', hhessian, hk', -, hA⟩ :=
    exact_of_totalDegree_le (measures_sampled fun y : Fin 2 → ℝ => y 0 * y 1) heps one_pos .torch
      ![1, 2] 0
  -- the derivatives of `xy` at `(1, 2)`
  have hslope : (fun i => MvPolynomial.eval ![1, 2] (pderiv i p)) = (![2, 1] : Fin 2 → ℝ) := by
    funext i
    fin_cases i <;> simp [p, MvPolynomial.pderiv_X]
  have hcurvature : (fun i j => MvPolynomial.eval ![1, 2] (pderiv i (pderiv j p))) =
      (!![0, 1; 1, 0] : Matrix (Fin 2) (Fin 2) ℝ) := by
    funext i j
    fin_cases i <;> fin_cases j <;> simp [p, MvPolynomial.pderiv_X]
  have hk₄ : k = 4 := hk
  have hk₉ : k' = 9 := hk'
  rw [hgradient, hhessian, hG p hdegree hF, hA p (hdegree.trans (by decide)) hF, hslope,
    hcurvature, hk₄, hk₉]
  exact ⟨rfl, rfl⟩

end Differences

end Descent
