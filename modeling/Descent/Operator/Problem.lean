import Descent.Operator.Basic
import Descent.Operator.Differences

/-!
# Operators made of functions

A `Problem` is an objective given as functions: the cost, and the gradient and the Hessian where
they are known.  The missing ones are approximated by central differences of the cost if that is
asked for, and declared as lacking otherwise.
-/

namespace Descent

/-- An objective given by its functions. -/
structure Problem (R σ : Type) where
  cost : Tensor R → Act R σ (Value R)
  gradient : Option (Tensor R → Act R σ (Option (Tensor R))) := none
  hessian : Option (Tensor R → Act R σ (Option (Curvature R))) := none
  /-- Whether to approximate what is missing. -/
  finiteDifferences : Bool := false

namespace Problem

variable {R σ : Type} [Scalar R]

/-- The capabilities of a problem. -/
def capabilities (p : Problem R σ) : List Capability :=
  [.cost] ++ (if p.gradient.isSome || p.finiteDifferences then [.gradient] else []) ++
    (if p.hessian.isSome || p.finiteDifferences then [.hessian] else [])

/-- The cost, as a measured value. -/
def evalCost (p : Problem R σ) (x : Tensor R) : Act R σ (Value R) := do
  return .real (← Act.lift (← p.cost x).toReal)

/-- The gradient, given or approximated. -/
def evalGradient (p : Problem R σ) (x : Tensor R) : Act R σ (Option (Tensor R)) :=
  match p.gradient with
  | some g => g x
  | none =>
    if p.finiteDifferences then
      some <$> Differences.approximateGradient p.cost x (.real Differences.gradientStep)
    else throw (.missingCapabilities (.text "Problem") [Capability.gradient.label])

/-- The Hessian, given or approximated. -/
def evalHessian (p : Problem R σ) (x : Tensor R) : Act R σ (Option (Curvature R)) :=
  match p.hessian with
  | some h => h x
  | none =>
    if p.finiteDifferences then
      (some ∘ .matrix) <$> Differences.approximateHessian p.cost x (.real Differences.hessianStep)
    else throw (.missingCapabilities (.text "Problem") [Capability.hessian.label])

/-- The operator of a problem. -/
def operator (p : Problem R σ) : Operator R (Tensor R) (Curvature R) σ where
  label := "Problem"
  cost := some p.evalCost
  gradient := some p.evalGradient
  hessian := some p.evalHessian
  declared := some p.capabilities

end Problem

end Descent
