import Descent.Space

/-!
# Conjugate gradients, truncated

`ConjugateGradient.direction` approximately solves `hess p = -grad`.  It stops once the residual
is shorter than `min 0.5 (sqrt ‖g‖) * ‖g‖`, and as soon as it meets a direction along which the
curvature is not positive; then it answers with what it has, or with `-g` if that is nothing yet.
-/

namespace Descent.ConjugateGradient

variable {R V M : Type} [Scalar R] [Space R V] [LinearAction R V M]

/-- The iterate, its residual, the direction to go on along and the squared residual length. -/
structure Iterate (R V : Type) where
  z : V
  residual : V
  along : V
  squared : R

/-- The square root of a value that is not negative. -/
def root (x : R) : Except (Fault R) R :=
  if x < 0.0 then .error (.wrongValue .rootRange) else .ok (Scalar.sqrt x)

/-- The iterate before the first pass. -/
def start (grad : V) : Except (Fault R) (Iterate R V) := do
  return ⟨Space.zeros grad, grad, Space.neg grad, ← Space.dot grad grad⟩

/-- One pass: an answer, or the next iterate. -/
def pass (hess : Option M) (tol : R) (first : Bool) (grad : V) (it : Iterate R V) :
    Except (Fault R) (V ⊕ Iterate R V) := do
  let image ← Space.imageUnder hess it.along
  let curvature ← Space.dot it.along image
  if curvature ≤ 0.0 then return .inl (if first then Space.neg grad else it.z)
  let alpha ← Scalar.quotient it.squared curvature
  let z ← Space.add it.z (Space.scale it.along alpha)
  let residual ← Space.add it.residual (Space.scale image alpha)
  let squared ← Space.dot residual residual
  if (← root squared) < tol then return .inl z
  let beta ← Scalar.quotient squared it.squared
  let along ← Space.add (Space.neg residual) (Space.scale it.along beta)
  return .inr ⟨z, residual, along, squared⟩

/-- Passes up to a limit. -/
def loop (hess : Option M) (tol : R) (grad : V) : Nat → Bool → Iterate R V → Except (Fault R) V
  | 0, _, it => .ok it.z
  | left + 1, first, it => do
    match ← pass hess tol first grad it with
    | .inl p => return p
    | .inr it => loop hess tol grad left false it

/-- The length below which the residual ends the passes, for a gradient of length `gradNorm`. -/
def tolerance (gradNorm : R) : R := Scalar.least 0.5 (Scalar.sqrt gradNorm) * gradNorm

/-- The number of passes when none is asked for: twice the dimension, and at least one. -/
def defaultPasses (n : Nat) : Nat := max 1 (2 * n)

/-- The limit that is meant: none or zero is the default, and a negative one allows no pass. -/
def passes (limit : Option Int) (n : Nat) : Nat :=
  match limit with
  | none => defaultPasses n
  | some k => if k = 0 then defaultPasses n else k.toNat

/-- A direction of descent that approximately solves `hess p = -grad`. -/
def direction (grad : V) (hess : Option M) (limit : Option Int) : Except (Fault R) V := do
  let tol := tolerance (Space.norm grad)
  let it ← start grad
  loop hess tol grad (passes limit (Space.size grad)) true it

end Descent.ConjugateGradient
