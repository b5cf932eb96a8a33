import Descent.Operator.Problem
import Descent.Proofs.Operator.Refusals

/-!
# What the functions of an operator raise

An operator is made of functions: of its own methods, or of those that a problem is given, by which
it also approximates the derivatives that are missing (`Operator.Furnished`).  Where it has the
capability, an evaluation fails with what one of the functions raises or with an ordinary fault
(`Operator.Furnished.refuses`), and it has the capabilities that it has the functions for
(`Operator.Furnished.provides_eq`).
-/

namespace Descent

open Act (Raises FaultsIn Triple)

variable {R σ τ : Type} [Scalar R] {p : Fault R → Prop}

/-- What a problem has a function for, or approximates. -/
def Problem.Serves (problem : Problem R σ) : Capability → Prop
  | .cost => True
  | .gradient => problem.gradient.isSome ∨ problem.finiteDifferences = true
  | .hessian => problem.hessian.isSome ∨ problem.finiteDifferences = true

/-- The operator has the capabilities `has` from functions that raise the faults `raises`: from the
methods that it offers, or from the functions that a problem is given. -/
inductive Operator.Furnished :
    Operator R (Tensor R) (Curvature R) σ → (Capability → Prop) → (Fault R → Prop) → Prop
  | methods {op} (undeclared : op.declared = none) :
    Furnished op (fun c => op.offers c = true) (Raised op.cost op.gradient op.hessian)
  | problem (problem : Problem R σ) :
    Furnished problem.operator problem.Serves
      (Raised (some problem.cost) problem.gradient problem.hessian)

/-! ### Differences -/

namespace Differences

variable (hp : ∀ f : Fault R, f.Ordinary → p f) {f : Tensor R → Act R τ (Value R)}
  (hf : ∀ x, FaultsIn p (f x))

omit [Scalar R] in
include hf in
theorem faultsIn_value {x : Except (Fault R) (Tensor R)} (hx : Raises p x) :
    FaultsIn p (value f x) :=
  (FaultsIn.lift hx).bind hf

theorem calm_squared (eps : Value R) : Calm (squared eps) := by
  refine (Value.calm_toNumber eps).bind fun n _ => ?_
  cases n with
  | int n => exact Number.calm_toReal _
  | real x => exact Scalar.calm_power _ _

include hp hf

theorem faultsIn_approximateGradient (x : Tensor R) (eps : Value R) :
    FaultsIn p (approximateGradient f x eps) := by
  unfold approximateGradient
  refine (FaultsIn.lift_calm hp (Value.calm_le _ _)).bind fun _ => .guard (hp _ trivial) ?_
  refine (FaultsIn.lift_calm hp (Value.calm_measured eps)).bind fun step => ?_
  refine FaultsIn.bind (.mapM _ fun e _ => ?_) fun entries => .pure _
  refine (faultsIn_value hf ((Tensor.refuses hp).add _ e)).bind fun above => ?_
  refine (faultsIn_value hf ((Tensor.refuses hp).sub _ e)).bind fun below => .lift_calm hp ?_
  refine (Value.calm_sub above below).bind fun change _ => ?_
  exact (Value.calm_toReal change).bind fun y _ => Scalar.calm_quotient y _

theorem faultsIn_straight (x : Tensor R) (center eps : Value R) (e : Tensor R) :
    FaultsIn p (straight f x center eps e) := by
  unfold straight
  refine (faultsIn_value hf ((Tensor.refuses hp).add x e)).bind fun above => ?_
  refine FaultsIn.bind (.lift_calm hp ?_) fun first => ?_
  · exact (Value.calm_mul _ center).bind fun twice _ => Value.calm_sub above twice
  refine (faultsIn_value hf ((Tensor.refuses hp).sub x e)).bind fun below => .lift_calm hp ?_
  refine (Value.calm_add first below).bind fun change _ => ?_
  refine (Value.calm_toReal change).bind fun y _ => (calm_squared eps).bind fun z _ => ?_
  exact Scalar.calm_quotient y z

theorem faultsIn_crossed (x : Tensor R) (eps : Value R) (e d : Tensor R) :
    FaultsIn p (crossed f x eps e d) := by
  have hadd := (Tensor.refuses hp).add
  have hsub := (Tensor.refuses hp).sub
  unfold crossed
  refine (faultsIn_value hf ((hadd x e).bind fun y _ => hadd y d)).bind fun pp => ?_
  refine (faultsIn_value hf ((hadd x e).bind fun y _ => hsub y d)).bind fun pm => ?_
  refine (FaultsIn.lift_calm hp (Value.calm_sub pp pm)).bind fun first => ?_
  refine (faultsIn_value hf ((hsub x e).bind fun y _ => hadd y d)).bind fun mp => ?_
  refine (FaultsIn.lift_calm hp (Value.calm_sub first mp)).bind fun second => ?_
  refine (faultsIn_value hf ((hsub x e).bind fun y _ => hsub y d)).bind fun mm => ?_
  refine .lift_calm hp ((Value.calm_add second mm).bind fun change _ => ?_)
  refine (Value.calm_toReal change).bind fun y _ => (calm_squared eps).bind fun z _ => ?_
  exact Scalar.calm_quotient y _

theorem faultsIn_upperRows (x : Tensor R) (center eps : Value R) (es : List (Tensor R)) :
    FaultsIn p (upperRows f x center eps es) := by
  induction es with
  | nil => exact .pure []
  | cons e rest ih =>
    refine (faultsIn_straight hp hf x center eps e).bind fun first => ?_
    refine FaultsIn.bind (.mapM rest fun d _ => faultsIn_crossed hp hf x eps e d) fun others => ?_
    exact ih.bind fun rows => .pure _

theorem faultsIn_approximateHessian (x : Tensor R) (eps : Value R) :
    FaultsIn p (approximateHessian f x eps) := by
  unfold approximateHessian
  refine (FaultsIn.lift_calm hp (Value.calm_le _ _)).bind fun _ => .guard (hp _ trivial) ?_
  refine (FaultsIn.lift_calm hp (Value.calm_measured eps)).bind fun step => ?_
  refine (faultsIn_value hf (.ok _)).bind fun center => ?_
  exact (faultsIn_upperRows hp hf _ center eps _).bind fun upper => .pure _

end Differences

/-! ### Evaluations -/

/-- A Hessian that a function answers with is refused what the function is found to raise, or with
ordinary faults. -/
theorem Raised.triple_hessian {cost : Option (Tensor R → Act R σ (Value R))}
    {gradient : Option (Tensor R → Act R σ (Option (Tensor R)))}
    {hessian : Option (Tensor R → Act R σ (Option (Curvature R)))}
    (hraises : ∀ f, Raised cost gradient hessian f → p f) (hp : ∀ f : Fault R, f.Ordinary → p f)
    {f : Tensor R → Act R σ (Option (Curvature R))} (hf : hessian = some f) (x : Tensor R) :
    Triple (fun _ => True) p (f x) fun o _ =>
      ∀ h, o = some h → LinearAction.Refuses p (Tensor R) h := by
  intro w _
  refine ⟨fun o w' ho h hh => ?_, fun g w' hg => hraises g (.hessian hf hg)⟩
  rw [hh] at ho
  exact Curvature.refuses hp fun v g hg => hraises g (.product hf ho hg)

namespace Problem

variable {problem : Problem R σ}

/-- A problem declares what it serves. -/
theorem provides_operator {c : Capability} :
    problem.operator.provides c = true ↔ problem.Serves c := by
  show problem.capabilities.contains c = true ↔ problem.Serves c
  rw [List.contains_iff_mem]
  cases c <;> simp [capabilities, Serves]

variable (hp : ∀ f : Fault R, f.Ordinary → p f)
  (hraises : ∀ f, Raised (some problem.cost) problem.gradient problem.hessian f → p f)

include hp hraises

theorem faultsIn_evalGradient (h : problem.Serves .gradient) (x : Tensor R) :
    FaultsIn p (problem.evalGradient x) := by
  unfold evalGradient
  cases hg : problem.gradient with
  | some g => exact Raised.faultsIn_gradient hraises hg x
  | none =>
    -- without a function the problem serves the gradient by differences
    have hdiff : problem.finiteDifferences = true := by
      rcases h with h | h
      · rw [hg] at h
        cases h
      · exact h
    dsimp only
    rw [if_pos hdiff]
    have hcost := Raised.faultsIn_cost hraises rfl
    exact (Differences.faultsIn_approximateGradient hp hcost x _).map

theorem triple_evalHessian (h : problem.Serves .hessian) (x : Tensor R) :
    Triple (fun _ => True) p (problem.evalHessian x) fun o _ =>
      ∀ h, o = some h → LinearAction.Refuses p (Tensor R) h := by
  unfold evalHessian
  cases hh : problem.hessian with
  | some f => exact Raised.triple_hessian hraises hp hh x
  | none =>
    have hdiff : problem.finiteDifferences = true := by
      rcases h with h | h
      · rw [hh] at h
        cases h
      · exact h
    dsimp only
    rw [if_pos hdiff]
    have hcost := Raised.faultsIn_cost hraises rfl
    refine Triple.bind (Differences.faultsIn_approximateHessian hp hcost x _).triple_true
      fun t => .pure ?_
    -- an approximated Hessian is a matrix
    rintro _ - _ ⟨⟩
    exact Curvature.refuses hp fun v => (Tensor.calm_product t v).mono hp

theorem refuses : problem.operator.Refuses p where
  cost _ f hf x := by
    cases hf
    refine (Raised.faultsIn_cost hraises rfl x).bind fun v => ?_
    exact (FaultsIn.lift_calm hp (Value.calm_toReal v)).bind fun _ => .pure _
  gradient hcap f hf x := by
    cases hf
    exact faultsIn_evalGradient hp hraises (provides_operator.mp hcap) x
  hessian hcap f hf x := by
    cases hf
    exact triple_evalHessian hp hraises (provides_operator.mp hcap) x

end Problem

namespace Operator.Furnished

variable {op : Operator R (Tensor R) (Curvature R) σ} {has : Capability → Prop}
  {raises : Fault R → Prop} (h : op.Furnished has raises)

include h

/-- An operator has the capabilities that it has functions for. -/
theorem provides_eq (c : Capability) : op.provides c = true ↔ has c := by
  cases h with
  | methods undeclared =>
    unfold provides
    rw [undeclared]
  | problem problem => exact Problem.provides_operator

/-- Its evaluations fail with what the functions raise, or with ordinary faults. -/
theorem refuses (hp : ∀ f : Fault R, f.Ordinary → p f) (hraises : ∀ f, raises f → p f) :
    op.Refuses p := by
  cases h with
  | methods undeclared =>
    exact ⟨fun _ f hf => Raised.faultsIn_cost hraises hf,
      fun _ f hf => Raised.faultsIn_gradient hraises hf,
      fun _ f hf => Raised.triple_hessian hraises hp hf⟩
  | problem problem => exact Problem.refuses hp hraises

end Operator.Furnished

end Descent
