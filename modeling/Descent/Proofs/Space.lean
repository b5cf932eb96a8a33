import Descent.Proofs.Quantity
import Descent.Tensor.Solve

/-!
# What vectors and linear maps refuse

`Space.Refuses p V` says that operations on the vectors `V` are refused with faults in `p`, and
`LinearAction.Refuses p V m` that the linear map `m` is refused its images and its Newton steps with
such faults.  Arrays are refused what they do not fit with ordinary faults (`Tensor.refuses`).  Of a
Hessian that is a function nothing is known but what its products are refused with
(`Curvature.refuses`).
-/

namespace Descent

open Act (Raises)

variable {R V M : Type} [Scalar R] {p : Fault R → Prop}

/-- Every operation on the vectors is refused with faults in `p`. -/
structure Space.Refuses (p : Fault R → Prop) (V : Type) [Space R V] : Prop where
  dot : ∀ x y : V, Raises p (Space.dot x y)
  innerAbsent : ∀ (like : Option V) (y : V), p (Space.innerAbsent like y)
  imageAbsent : ∀ x : V, p (Space.imageAbsent x)
  add : ∀ x y : V, Raises p (Space.add x y)
  sub : ∀ x y : V, Raises p (Space.sub x y)

/-- Every image and every Newton step of the linear map is refused with faults in `p`. -/
structure LinearAction.Refuses (p : Fault R → Prop) (V : Type) [LinearAction R V M] (m : M) :
    Prop where
  apply : ∀ x : V, Raises p (LinearAction.apply m x)
  newtonStep : ∀ x : V, Raises p (LinearAction.newtonStep m x)

/-! ### What is made of the operations -/

omit [Scalar R] in
theorem Space.calm_require (x : Option V) : Calm (Space.require x : Except (Fault R) V) := by
  cases x with
  | none => exact .error trivial
  | some x => exact .ok x

omit [Scalar R] in
theorem Space.calm_measurable (x : Option V) : Calm (Space.measurable x : Except (Fault R) V) := by
  cases x with
  | none => exact .error trivial
  | some x => exact .ok x

theorem calm_checkFinite (x : R) (what : String) : Calm (checkFinite x what) :=
  (Raises.ok _).ite (.error trivial)

section

variable [Space R V]

theorem calm_isStationary (tol : R) (grad : Option V) : Calm (isStationary tol grad) :=
  (Space.calm_measurable grad).bind fun _ _ => .ok _

theorem calm_checkFiniteOption (x : Option V) (what : String) :
    Calm (checkFiniteOption x what) := by
  cases x with
  | none => exact .ok _
  | some x => exact (Raises.ok _).ite (.error trivial)

theorem Space.Refuses.innerWith (hV : Space.Refuses p V) (like x : Option V) (y : V) :
    Raises p (Space.innerWith like x y) := by
  cases x with
  | none => exact .error (hV.innerAbsent like y)
  | some x => exact hV.dot x y

variable [LinearAction R V M]

theorem Space.Refuses.weightedDot (hV : Space.Refuses p V) {m : M}
    (hm : LinearAction.Refuses p V m) (x y : V) : Raises p (Space.weightedDot x m y) :=
  (hm.apply y).bind fun image _ => hV.dot x image

theorem Space.Refuses.imageUnder (hV : Space.Refuses p V) {m : Option M}
    (hm : ∀ h, m = some h → LinearAction.Refuses p V h) (x : V) :
    Raises p (Space.imageUnder m x) := by
  cases m with
  | none => exact .error (hV.imageAbsent x)
  | some h => exact (hm h rfl).apply x

end

/-! ### Arrays -/

omit [Scalar R] in
theorem Backend.ordinary_misfit (detail : Detail R) (b : Backend) :
    (b.misfit detail).Ordinary := by
  cases b <;> trivial

namespace Tensor

omit [Scalar R] in
theorem calm_zipWith (symbol : String) (f : R → R → R) (a b : Tensor R) :
    Calm (zipWith symbol f a b) := by
  unfold zipWith
  split
  · exact .error trivial
  · split
    · exact .ok _
    · exact .error (Backend.ordinary_misfit _ _)

theorem calm_dot (a b : Tensor R) : Calm (dot a b) := by
  unfold dot
  split
  · exact .error trivial
  · exact (Raises.ok _).ite (.error (Backend.ordinary_misfit _ _))

theorem calm_product (a b : Tensor R) : Calm (product a b) := by
  unfold product
  dsimp only
  split
  · exact .error trivial
  · refine (Raises.error (Backend.ordinary_misfit _ _)).ite ?_
    split
    · exact .error (Backend.ordinary_misfit _ _)
    · exact .ok _
  · exact .error (Backend.ordinary_misfit _ _)

theorem calm_eliminate (mat vec : Tensor R) : Calm (eliminate mat vec) := by
  unfold eliminate
  split
  · refine (Raises.ok _).ite ?_
    split
    · exact .error (Backend.ordinary_misfit _ _)
    · split
      · exact .error (Backend.ordinary_misfit _ _)
      · exact (Raises.error (Backend.ordinary_misfit _ _)).ite (.ok _)
  · exact .ok _

theorem calm_leastSquares (mat vec : Tensor R) : Calm (leastSquares mat vec) := by
  have hunsolved : (unsolved mat.backend : Fault R).Ordinary := by
    cases mat.backend <;> trivial
  unfold leastSquares
  split
  · refine (Raises.error hunsolved).ite ?_
    exact (Raises.error trivial).ite (.ok _)
  · exact .error hunsolved

theorem calm_safeSolve (mat vec : Tensor R) (reg : Value R) : Calm (safeSolve mat vec reg) := by
  refine (calm_eliminate mat vec).bind fun x _ => ?_
  cases x with
  | some x => exact .ok x
  | none =>
    dsimp only
    split
    · exact .error trivial
    · refine (Value.calm_measured reg).bind fun factor _ => ?_
      exact (calm_zipWith _ _ _ _).bind fun sum _ => calm_leastSquares sum vec

/-- Arrays are refused what they do not fit with ordinary faults. -/
theorem refuses (hp : ∀ f : Fault R, f.Ordinary → p f) : Space.Refuses p (Tensor R) where
  dot x y := (calm_dot x y).mono hp
  innerAbsent like y := by
    refine hp _ ?_
    show (innerAbsent like y).Ordinary
    unfold innerAbsent
    split
    · trivial
    · split <;> trivial
  imageAbsent x := by
    refine hp _ ?_
    show (imageAbsent x).Ordinary
    unfold imageAbsent
    split <;> trivial
  add x y := (calm_zipWith _ _ x y).mono hp
  sub x y := (calm_zipWith _ _ x y).mono hp

end Tensor

namespace Curvature

theorem calm_newtonStep (h : Curvature R) (grad : Tensor R) : Calm (h.newtonStep grad) := by
  unfold newtonStep
  dsimp only
  split
  · exact .error trivial
  · exact .error trivial
  · split
    · exact .error trivial
    · exact Tensor.calm_safeSolve _ _ _
    · split
      · exact .ok _
      · exact Tensor.calm_leastSquares _ _

/-- A Hessian whose products are refused with faults in `p` is refused with such faults. -/
theorem refuses (hp : ∀ f : Fault R, f.Ordinary → p f) {h : Curvature R}
    (hproduct : ∀ x, Raises p (h.apply x)) : LinearAction.Refuses p (Tensor R) h where
  apply := hproduct
  newtonStep x := (calm_newtonStep h x).mono hp

end Curvature

end Descent
