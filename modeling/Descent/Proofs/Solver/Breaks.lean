import Descent.Proofs.Run.Component
import Descent.Proofs.Solver.Stops
import Descent.Proofs.Solver.Trial
import Descent.Tensor.Solve

/-!
# Where the arithmetic of an iteration breaks

What an iteration of the trust-region method with the Cauchy point computes on its own may break in
three ways (`TrustRegion.Breaks`): the working radius is refused, the cube of the length of the
gradient leaves the range, or the product of the radius and the curvature vanishes.  The Cauchy step
fails exactly so (`Cauchy.step_eq_error`).

An operator is reliable if it always answers, with vectors and Hessians that can be computed with
(`Operator.Reliable`).  Beside such an operator nothing else in an iteration breaks
(`TrustRegion.iterate_of_breaks`, `TrustRegion.succeeds_iterate`), and nothing does in the
preparation of a run (`TrustRegion.succeeds_init`).
-/

namespace Descent

open Act

/-- A result that is there. -/
theorem Act.succeeds_lift {R τ α : Type} {I : τ → Prop} {r : Except (Fault R) α} {x : α}
    (h : r = .ok x) : Succeeds I (lift r) fun y t => y = x ∧ I t := by
  rw [h]
  exact succeeds_iff.mpr fun t ht => ⟨x, t, rfl, rfl, ht⟩

variable {R V M σ : Type} [Scalar R] [Space R V] [LinearAction R V M] {P : V → Prop}
  {Q : M → Prop}

/-! ### Reliable operators -/

/-- Vectors in `P` and Hessians in `Q` can be computed with, and what comes of it is in `P`. -/
structure Space.Closed (P : V → Prop) (Q : M → Prop) : Prop where
  dot {x y : V} : P x → P y → ∃ c, Space.dot x y = .ok c
  add {x y : V} : P x → P y → ∃ z, Space.add x y = .ok z ∧ P z
  scale {x : V} (c : R) : P x → P (Space.scale x c)
  zeros {x : V} : P x → P (Space.zeros x)
  apply {h : M} {x : V} : Q h → P x → ∃ y, LinearAction.apply h x = .ok y ∧ P y

theorem Space.Closed.weightedDot (hclosed : Space.Closed P Q) {x y : V} {h : M} (hx : P x)
    (hh : Q h) (hy : P y) : ∃ c, Space.weightedDot x h y = .ok c := by
  obtain ⟨z, hz, hPz⟩ := hclosed.apply hh hy
  obtain ⟨c, hc⟩ := hclosed.dot hx hPz
  refine ⟨c, ?_⟩
  unfold Space.weightedDot
  rw [hz]
  exact hc

/-- At a point in `P` the operator always answers: with a finite cost, a gradient in `P` and a
Hessian in `Q`. -/
structure Operator.Reliable (op : Operator R V M σ) (P : V → Prop) (Q : M → Prop) : Prop where
  closed : Space.Closed P Q
  cost {x : V} : P x → Succeeds (fun _ => True) (Session.costValue op (some x)) fun c _ =>
    Scalar.isFinite c = true
  gradient {x : V} : P x → Succeeds (fun _ => True) (Session.gradient op (some x)) fun o _ =>
    ∃ g, o = some g ∧ P g
  hessian {x : V} : P x → Succeeds (fun _ => True) (Session.hessian op (some x)) fun o _ =>
    ∃ h, o = some h ∧ Q h

/-- What an operator answers it provides. -/
theorem Operator.Reliable.provides_cost {op : Operator R V M σ} (hop : op.Reliable P Q) {x : V}
    (hx : P x) (session : Session R σ) : op.provides .cost = true := by
  obtain ⟨c, session', hrun, -⟩ := succeeds_iff.mp (hop.cost hx) session trivial
  cases hcap : op.provides .cost with
  | true => rfl
  | false =>
    unfold Session.costValue Session.cost at hrun
    rw [run_bind_of_error (Session.run_evaluate_refused hcap _ _ _)] at hrun
    cases hrun

/-- The delta moves within `P`, and has a Hessian in `Q` if it has one. -/
structure Delta.Within (P : V → Prop) (Q : M → Prop) (d : Delta R V M) : Prop where
  point : ∀ x, d.param = some x → P x
  cost : ∀ v, d.cost = some v → ∃ c, v = .real c
  slope : ∀ g, d.grad = some g → P g
  curvature : ∀ h, d.hessian = some h → Q h

/-- The state has a point and a gradient in `P` and a Hessian in `Q`. -/
structure State.Within (P : V → Prop) (Q : M → Prop) (s : State R V M) : Prop where
  point : ∃ x, s.param = some x ∧ P x
  slope : ∃ g, s.grad = some g ∧ P g
  curvature : ∃ h, s.hessian = some h ∧ Q h

/-- So it has a curvature along its gradient. -/
theorem State.Within.exists_curvature {s : State R V M} (hs : s.Within P Q)
    (hclosed : Space.Closed P Q) : ∃ g h curvature, s.grad = some g ∧ P g ∧
      s.hessian = some h ∧ Space.weightedDot g h g = .ok curvature := by
  obtain ⟨g, hgrad, hg⟩ := hs.slope
  obtain ⟨h, hhessian, hh⟩ := hs.curvature
  obtain ⟨curvature, hcurvature⟩ := hclosed.weightedDot hg hh hg
  exact ⟨g, h, curvature, hgrad, hg, hhessian, hcurvature⟩

/-! ### Vectors and square matrices -/

theorem Shape.common_self (n : Nat) : Shape.common [n] [n] = some [n] := by
  simp [Shape.common, Shape.commonReversed]

theorem Shape.length_pieces {α : Type} (length count : Nat) (xs : List α) :
    (Shape.pieces length count xs).length = count := by
  induction count generalizing xs with
  | zero => rfl
  | succ count ih => exact congrArg (· + 1) (ih _)

section

variable {b : Backend} {n : Nat} {x y : Tensor R} {h : Curvature R}

/-- An array of a backend with one axis of `n` entries. -/
structure Tensor.IsVector (b : Backend) (n : Nat) (x : Tensor R) : Prop where
  backend : x.backend = b
  shape : x.shape = [n]
  entries : x.entries.length = n

/-- A matrix of a backend with `n` rows and `n` columns. -/
def Curvature.IsSquare (b : Backend) (n : Nat) (h : Curvature R) : Prop :=
  ∃ t, h = .matrix t ∧ t.backend = b ∧ t.shape = [n, n]

namespace Tensor

omit [Scalar R] in
theorem IsVector.map (hx : x.IsVector b n) (f : R → R) : (x.map f).IsVector b n :=
  ⟨hx.backend, hx.shape, (List.length_map f).trans hx.entries⟩

omit [Scalar R] in
theorem IsVector.zipWith (hx : x.IsVector b n) (hy : y.IsVector b n) (symbol : String)
    (f : R → R → R) : ∃ z, Tensor.zipWith symbol f x y = .ok z ∧ z.IsVector b n := by
  refine ⟨⟨b, [n], List.zipWith f x.entries y.entries⟩, ?_, rfl, rfl, ?_⟩
  · unfold Tensor.zipWith
    rw [hx.backend, hy.backend, hx.shape, hy.shape, Shape.common_self]
    have hsame : ∀ xs : List R, Shape.spread [n] [n] xs = xs := fun _ => if_pos rfl
    cases b <;> exact congrArg Except.ok (by rw [hsame, hsame])
  · rw [List.length_zipWith, hx.entries, hy.entries, Nat.min_self]

theorem IsVector.dot (hx : x.IsVector b n) (hy : y.IsVector b n) :
    Tensor.dot x y = .ok (inner x.entries y.entries) := by
  unfold Tensor.dot
  rw [hx.backend, hy.backend]
  cases b <;> exact if_pos (hx.entries.trans hy.entries.symm)

end Tensor

theorem Curvature.IsSquare.apply (hh : h.IsSquare b n) (hx : x.IsVector b n) :
    ∃ y, h.apply x = .ok y ∧ y.IsVector b n := by
  obtain ⟨t, rfl, hbackend, hshape⟩ := hh
  have hproduct : t.product x = .ok ⟨b, [n], Tensor.productEntries
      (Shape.pieces n n (t.entries.take (n * n)))
      (Tensor.columnsOf n 1 (x.entries.take (n * 1))) ++ []⟩ := by
    unfold Tensor.product
    rw [hbackend, hshape, hx.backend, hx.shape]
    cases b <;> exact if_neg fun hnot => hnot rfl
  refine ⟨_, hproduct, rfl, rfl, ?_⟩
  simp [Tensor.productEntries, Tensor.columnsOf, Shape.length_pieces]

/-- Vectors and square matrices of one size and one backend can be computed with. -/
theorem Tensor.closed_isVector (b : Backend) (n : Nat) :
    Space.Closed (R := R) (V := Tensor R) (M := Curvature R) (IsVector b n)
      (Curvature.IsSquare b n) where
  dot hx hy := ⟨_, hx.dot hy⟩
  add hx hy := hx.zipWith hy "+" (· + ·)
  scale c hx := hx.map fun x => x * c
  zeros hx := hx.map fun _ => 0.0
  apply hh hx := hh.apply hx

end

/-! ### The Cauchy step -/

namespace TrustRegion

/-- The Cauchy step depends on the curvature along the gradient, which is not at or below zero. -/
structure Curved (radius gradNorm curvature : R) : Prop where
  allowed : Region.Allowed radius
  steep : Scalar.isZero gradNorm = false
  upward : ¬ curvature ≤ 0.0

/-- A value of the range whose cube leaves it. -/
def Outgrows (x : R) : Prop := Scalar.isFinite x = true ∧ Scalar.isFinite (x * x * x) = false

/-- The arithmetic of an iteration breaks with a fault: with the working radius, or where the
fraction of it that the Cauchy step goes is computed. -/
inductive Breaks (radius gradNorm curvature : R) : Fault R → Prop
  | refused (h : ¬ Region.Allowed radius) : Breaks radius gradNorm curvature (.radiusRefused radius)
  | cubed (h : Curved radius gradNorm curvature) (hout : Outgrows gradNorm) :
      Breaks radius gradNorm curvature (.outOfRange .powerRange)
  | vanished (h : Curved radius gradNorm curvature) (hin : ¬ Outgrows gradNorm)
      (hzero : Scalar.isZero (radius * curvature) = true) :
      Breaks radius gradNorm curvature .divisionByZero

variable {radius gradNorm curvature : R} {f : Fault R}

theorem Breaks.isInterrupt_eq_false (h : Breaks radius gradNorm curvature f) :
    f.isInterrupt = false := by
  cases h <;> rfl

theorem Breaks.eq_of_not_allowed (h : Breaks radius gradNorm curvature f)
    (hradius : ¬ Region.Allowed radius) : f = .radiusRefused radius := by
  cases h with
  | refused => rfl
  | cubed h => exact absurd h.allowed hradius
  | vanished h => exact absurd h.allowed hradius

theorem Breaks.curved (h : Breaks radius gradNorm curvature f) (hradius : Region.Allowed radius) :
    Curved radius gradNorm curvature := by
  cases h with
  | refused h => exact absurd hradius h
  | cubed h => exact h
  | vanished h => exact h

theorem breaks_iff_of_curved (h : Curved radius gradNorm curvature) :
    Breaks radius gradNorm curvature f ↔ Outgrows gradNorm ∧ f = .outOfRange .powerRange ∨
      ¬ Outgrows gradNorm ∧ Scalar.isZero (radius * curvature) = true ∧ f = .divisionByZero := by
  constructor
  · intro hf
    cases hf with
    | refused hnot => exact absurd h.allowed hnot
    | cubed _ hout => exact .inl ⟨hout, rfl⟩
    | vanished _ hin hzero => exact .inr ⟨hin, hzero, rfl⟩
  · rintro (⟨hout, rfl⟩ | ⟨hin, hzero, rfl⟩)
    · exact .cubed h hout
    · exact .vanished h hin hzero

end TrustRegion

namespace Cauchy

open TrustRegion (Breaks Curved Outgrows breaks_iff_of_curved)

variable {radius gradNorm curvature : R} {f : Fault R}

theorem cube_of_outgrows (h : Outgrows gradNorm) :
    Scalar.cube gradNorm = .error (.outOfRange .powerRange) := by
  unfold Scalar.cube Scalar.power
  rw [h.1, h.2]
  rfl

theorem cube_of_not_outgrows (h : ¬ Outgrows gradNorm) :
    Scalar.cube gradNorm = .ok (gradNorm * gradNorm * gradNorm) := by
  have hin : ¬ (Scalar.isFinite gradNorm &&
      !Scalar.isFinite (gradNorm * gradNorm * gradNorm)) = true := by
    rw [Bool.and_eq_true, Bool.not_eq_true']
    exact h
  exact if_neg hin

theorem fraction_eq_error (hradius : Region.Allowed radius)
    (hsteep : Scalar.isZero gradNorm = false) :
    fraction gradNorm curvature radius = .error f ↔ Breaks radius gradNorm curvature f := by
  unfold fraction
  by_cases hup : curvature ≤ 0.0
  · -- the whole radius is gone, and nothing is computed
    rw [if_pos hup]
    exact ⟨nofun, fun hf => absurd hup (hf.curved hradius).upward⟩
  rw [if_neg hup, breaks_iff_of_curved ⟨hradius, hsteep, hup⟩]
  by_cases hout : Outgrows gradNorm
  · rw [cube_of_outgrows hout]
    constructor
    · intro hf
      cases hf
      exact .inl ⟨hout, rfl⟩
    · rintro (⟨-, rfl⟩ | ⟨hin, -⟩)
      · rfl
      · exact absurd hout hin
  · -- the cube is there, and the division is left
    rw [cube_of_not_outgrows hout]
    unfold Scalar.quotient
    cases hzero : Scalar.isZero (radius * curvature) with
    | true =>
      constructor
      · intro hf
        cases hf
        exact .inr ⟨hout, rfl, rfl⟩
      · rintro (⟨h, -⟩ | ⟨-, -, rfl⟩)
        · exact absurd h hout
        · rfl
    | false =>
      constructor
      · intro hf
        cases hf
      · rintro (⟨h, -⟩ | ⟨-, h, -⟩)
        · exact absurd h hout
        · cases h

/-- Away from a gradient without length the step is the fraction of the radius that it goes. -/
theorem step_of_steep {g : V} {h : M} (hsteep : Scalar.isZero (Space.norm g) = false)
    (hcurvature : Space.weightedDot g h g = .ok curvature) :
    step g h radius = (fraction (Space.norm g) curvature radius).map fun tau =>
      { param := some (Space.scale g (-tau * radius / Space.norm g))
        kv := [("tau", .real tau)] } := by
  unfold step
  dsimp only
  rw [hsteep, hcurvature, if_neg Bool.false_ne_true]
  have hquotient : ∀ x, Scalar.quotient x (Space.norm g) = .ok (x / Space.norm g) := by
    intro x
    unfold Scalar.quotient
    rw [hsteep, if_neg Bool.false_ne_true]
  simp only [hquotient]
  show (fraction (Space.norm g) curvature radius >>= _) = _
  cases fraction (Space.norm g) curvature radius <;> rfl

/-- With a radius that is allowed the Cauchy step fails where the arithmetic breaks, and nowhere
else. -/
theorem step_eq_error {g : V} {h : M} (hradius : Region.Allowed radius)
    (hcurvature : Space.weightedDot g h g = .ok curvature) :
    step g h radius = .error f ↔ Breaks radius (Space.norm g) curvature f := by
  cases hsteep : Scalar.isZero (Space.norm g) with
  | true =>
    unfold step
    dsimp only
    rw [hsteep]
    refine ⟨nofun, fun hf => ?_⟩
    rw [(hf.curved hradius).steep] at hsteep
    cases hsteep
  | false =>
    rw [step_of_steep hsteep hcurvature, ← fraction_eq_error hradius hsteep]
    cases fraction (Space.norm g) curvature radius with
    | error f' => exact Iff.of_eq (by rw [Except.map, Except.error.injEq, Except.error.injEq])
    | ok tau => exact ⟨nofun, nofun⟩

/-- A Cauchy step is a multiple of the gradient. -/
theorem step_eq_ok {g : V} {h : M} {d : Delta R V M} (hstep : step g h radius = .ok d) :
    ∃ p kv, d = { param := some p, kv := kv } ∧
      (p = Space.zeros g ∨ ∃ c, p = Space.scale g c) := by
  unfold step at hstep
  dsimp only at hstep
  split at hstep
  · cases hstep
    exact ⟨_, _, rfl, .inl rfl⟩
  · obtain ⟨curvature, -, h₁⟩ := bind_eq_ok.mp hstep
    obtain ⟨tau, -, h₂⟩ := bind_eq_ok.mp h₁
    obtain ⟨factor, -, h₃⟩ := bind_eq_ok.mp h₂
    cases h₃
    exact ⟨_, _, rfl, .inr ⟨factor, rfl⟩⟩

end Cauchy

namespace TrustRegion

/-! ### Ratios and radii -/

/-- A ratio is only taken to what is above zero. -/
theorem exists_reductionRatio [OrderedScalar R] (before after promised : R) :
    ∃ ratio, reductionRatio (.real before) after promised = .ok ratio := by
  unfold reductionRatio
  split
  · rename_i h
    have hzero : Scalar.isZero promised = false := by
      unfold Scalar.isZero
      rw [decide_eq_false (OrderedScalar.not_le_of_lt h.1), Bool.false_and]
    refine ⟨(before - after) / promised, ?_⟩
    show Scalar.quotient (before - after) promised = _
    unfold Scalar.quotient
    rw [hzero, if_neg Bool.false_ne_true]
  · exact ⟨_, rfl⟩

/-- The radius becomes a quarter of itself or its double up to the bound, or stays. -/
theorem adjust_among (settings : Settings R) (radius ratio length : R) :
    adjust settings radius ratio length = 0.25 * radius ∨
      adjust settings radius ratio length = Scalar.least (2.0 * radius) settings.maxRadius ∨
        adjust settings radius ratio length = radius := by
  unfold adjust
  split
  · exact .inl rfl
  · split
    · exact .inr (.inl rfl)
    · exact .inr (.inr rfl)

/-! ### Iterations beside a reliable operator -/

section

variable [ReductionScalar R] (hbottom : Scalar.isNaN (Scalar.negInf : R) = false)
  {op : Operator R V M σ} {s : State R V M} {g : V} {h : M} {radius curvature : R}

include hbottom

/-- An iteration whose arithmetic breaks fails. -/
theorem iterate_of_breaks (settings : Settings R) (hcost : op.provides .cost = true)
    (hhessian : s.hessian = some h)
    (hcurvature : Space.weightedDot g h g = .ok curvature) {f : Fault R}
    {b : Bench R σ (Memory R (Descent.Memory R V M))}
    (hbreaks : Breaks b.memory.working (Space.norm g) curvature f) :
    ∃ b', (iterate op (Method.cauchy : Method R V M).subproblem settings s g).run b =
      (.error f, b') := by
  have hsub : (Method.cauchy : Method R V M).subproblem =
      Region.component σ "Cauchy point" "CauchyPoint" Cauchy.step := rfl
  unfold iterate
  rw [run_bind_of_ok (run_get b), hsub, hhessian]
  by_cases hradius : Region.Allowed b.memory.working
  · -- the component is given the model, and fails in the run that solves it
    have hstep := (Cauchy.step_eq_error hradius hcurvature).mpr hbreaks
    obtain ⟨b', hsolve⟩ := Region.solveModel_of_fault
      (b := ⟨⟨b.memory.working, .region ⟨b.memory.working, some g, some h⟩⟩, b.session⟩) rfl
      hradius.isNaN_eq_false hbottom hcost hbreaks.isInterrupt_eq_false hstep
    rw [run_bind_of_ok (Region.prepare_of_allowed hradius g (some h) b)]
    exact ⟨b', run_bind_of_error hsolve⟩
  · -- it refuses the radius
    obtain ⟨b', hprepare⟩ := Region.prepare_of_not_allowed hradius g (some h) b
    obtain rfl := hbreaks.eq_of_not_allowed hradius
    exact ⟨b', run_bind_of_error hprepare⟩

/-- Any other iteration succeeds. -/
theorem succeeds_iterate (settings : Settings R) (hop : op.Reliable P Q) (hs : s.Within P Q)
    {c : R} (hcost : s.cost = .real c) (hg : P g) (hhessian : s.hessian = some h)
    (hcurvature : Space.weightedDot g h g = .ok curvature)
    (hsound : ∀ f, ¬ Breaks radius (Space.norm g) curvature f) (session : Session R σ) :
    Succeeds (fun b => b.memory.working = radius)
      (iterate op (Method.cauchy : Method R V M).subproblem settings s g) fun d _ =>
        d.Within P Q := by
  obtain ⟨x, hx, hPx⟩ := hs.point
  have hh : Q h := by
    obtain ⟨h', hh', hQ⟩ := hs.curvature
    rw [hhessian, Option.some.injEq] at hh'
    exact hh' ▸ hQ
  have hradius : Region.Allowed radius := Classical.not_not.mp fun hnot => hsound _ (.refused hnot)
  obtain ⟨p, kv, hstep, hPp⟩ : ∃ p kv,
      Cauchy.step g h radius = .ok { param := some p, kv := kv } ∧ P p := by
    cases hstep : Cauchy.step g h radius with
    | error f => exact absurd ((Cauchy.step_eq_error hradius hcurvature).mp hstep) (hsound f)
    | ok d =>
      obtain ⟨p, kv, rfl, rfl | ⟨factor, rfl⟩⟩ := Cauchy.step_eq_ok hstep
      · exact ⟨_, kv, rfl, hop.closed.zeros hg⟩
      · exact ⟨_, kv, rfl, hop.closed.scale factor hg⟩
  obtain ⟨y, hy, hPy⟩ := hop.closed.add hPx hPp
  obtain ⟨promised, hpromised⟩ : ∃ promised, predicted g p (some h) = .ok promised := by
    obtain ⟨linear, hlinear⟩ := hop.closed.dot hg hPp
    obtain ⟨square, hsquare⟩ := hop.closed.weightedDot hPp hh hPp
    refine ⟨-(linear + 0.5 * square), ?_⟩
    unfold predicted
    rw [hlinear]
    dsimp only
    rw [hsquare]
    rfl
  have hleads : (do Space.add (← Space.require (some x)) p) = .ok y := hy
  have hsub : (Method.cauchy : Method R V M).subproblem =
      Region.component σ "Cauchy point" "CauchyPoint" Cauchy.step := rfl
  unfold iterate
  rw [hsub, hhessian, hcost, hx]
  refine Triple.get_bind fun b hb => ?_
  rw [hb]
  -- the component is given the model and hands back its step
  refine Triple.bind (Q := fun _ b => b.memory.sub = .region ⟨radius, some g, some h⟩)
    (succeeds_iff.mpr fun b _ => ?_) fun _ => ?_
  · exact ⟨(), _, Region.prepare_of_allowed hradius g (some h) b, rfl⟩
  refine Triple.bind (Q := fun q _ => q = p ∧ True) (succeeds_iff.mpr fun b hb => ?_) fun q =>
    .assume ?_
  · obtain ⟨b', hsolve⟩ := Region.solveModel_of_step hb hradius.isNaN_eq_false hbottom
      (hop.provides_cost hPx session) hstep
    exact ⟨p, b', hsolve, rfl, trivial⟩
  rintro rfl
  -- it is tried
  refine Triple.bind (succeeds_lift hleads) fun z => .assume ?_
  rintro rfl
  refine Triple.bind (Q := fun _ _ => True) ?_ fun after => ?_
  · exact (hop.cost hPy).zoom (fun _ _ => trivial) fun _ _ _ _ _ => trivial
  obtain ⟨ratio, hratio⟩ := exists_reductionRatio c after promised
  refine Triple.bind (succeeds_lift hpromised) fun q' => .assume ?_
  rintro rfl
  refine Triple.bind (succeeds_lift hratio) fun ρ => .assume ?_
  rintro rfl
  refine Triple.bind (Q := fun _ _ => True) (.modify fun _ _ => trivial) fun _ => ?_
  refine .ite (fun _ => ?_) fun _ => .pure fun _ _ => ⟨nofun, nofun, nofun, nofun⟩
  refine Triple.bind (Q := fun o _ => (∃ g', o = some g' ∧ P g') ∧ True) ?_ fun o => .assume ?_
  · exact (hop.gradient hPy).zoom (fun _ _ => trivial) fun _ _ _ _ ho => ⟨ho, trivial⟩
  rintro ⟨g', rfl, hg'⟩
  refine Triple.bind (Q := fun o _ => (∃ h', o = some h' ∧ Q h') ∧ True) ?_ fun o => .assume ?_
  · exact (hop.hessian hPy).zoom (fun _ _ => trivial) fun _ _ _ _ ho => ⟨ho, trivial⟩
  rintro ⟨h', rfl, hh'⟩
  refine .pure fun _ _ => ⟨?_, ?_, ?_, ?_⟩
  · rintro _ ⟨⟩
    exact hPy
  · rintro _ ⟨⟩
    exact ⟨after, rfl⟩
  · rintro _ ⟨⟩
    exact hg'
  · rintro _ ⟨⟩
    exact hh'

end

/-! ### The preparation -/

/-- What a preparation answers with: the run ends at once, or it begins away from a stationary
point. -/
structure Begins (P : V → Prop) (Q : M → Prop) (settings : Settings R) (d : Delta R V M) :
    Prop where
  within : d.Within P Q
  stays : d.param = none
  ends : d.termination = some .converged ∨ d.termination = none ∧
    isStationary settings.gradTol d.grad = .ok false ∧ d.hessian.isSome = true

theorem succeeds_init {op : Operator R V M σ} {s : State R V M} {x : V} {μ : Type}
    (settings : Settings R) (hop : op.Reliable P Q) (hx : s.param = some x) (hPx : P x) :
    Succeeds (fun _ => True) (init (μ := μ) op settings s) fun o _ =>
      ∃ d, o = some d ∧ Begins P Q settings d := by
  unfold init
  rw [hx]
  refine Triple.bind (Q := fun _ _ => True) (.modify fun _ _ => trivial) fun _ => ?_
  refine Triple.bind (Q := fun c _ => Scalar.isFinite c = true ∧ True) ?_ fun c => .assume ?_
  · exact (hop.cost hPx).zoom (fun _ _ => trivial) fun _ _ _ _ hc => ⟨hc, trivial⟩
  intro hc
  have hfinite : checkFinite c "Initial cost" = .ok () := if_pos hc
  refine Triple.bind (succeeds_lift hfinite) fun _ => .assume fun _ => ?_
  refine Triple.bind (Q := fun o _ => (∃ g, o = some g ∧ P g) ∧ True) ?_ fun o => .assume ?_
  · exact (hop.gradient hPx).zoom (fun _ _ => trivial) fun _ _ _ _ ho => ⟨ho, trivial⟩
  rintro ⟨g, rfl, hg⟩
  obtain ⟨still, hstill⟩ : ∃ still, isStationary settings.gradTol (some g) = .ok still :=
    ⟨_, rfl⟩
  refine Triple.bind (succeeds_lift (r := stationary settings (some g)) hstill) fun b => .assume ?_
  rintro rfl
  -- what the delta brings is what was evaluated
  have hcost : ∀ v : Value R, some (.real c) = some v → ∃ c, v = .real c := by
    rintro _ ⟨⟩
    exact ⟨c, rfl⟩
  have hslope : ∀ g' : V, some g = some g' → P g' := by
    rintro _ ⟨⟩
    exact hg
  -- at a stationary point the Hessian is not asked for
  refine .ite (fun _ => .pure fun _ _ => ?_) fun hmoves => ?_
  · exact ⟨_, rfl, ⟨nofun, hcost, hslope, nofun⟩, rfl, .inl rfl⟩
  · refine Triple.bind (Q := fun o _ => (∃ h, o = some h ∧ Q h) ∧ True) ?_ fun o => .assume ?_
    · exact (hop.hessian hPx).zoom (fun _ _ => trivial) fun _ _ _ _ ho => ⟨ho, trivial⟩
    rintro ⟨h, rfl, hh⟩
    rw [Bool.not_eq_true] at hmoves
    refine .pure fun _ _ => ⟨_, rfl, ⟨nofun, hcost, hslope, ?_⟩, rfl, .inr ⟨rfl, ?_, rfl⟩⟩
    · rintro _ ⟨⟩
      exact hh
    · rw [← hmoves]
      exact hstill

end TrustRegion

end Descent
