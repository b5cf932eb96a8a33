import Descent.Act
import Descent.Quantity
import Descent.Tensor.Solve

/-!
# Derivatives by central differences

A gradient and a Hessian from values of the objective alone.  `approximateGradient` evaluates it
twice for each coordinate; `approximateHessian` once at the point, twice for each coordinate and
four times for each pair of coordinates, and is symmetric by construction.
-/

namespace Descent

namespace Differences

variable {R τ : Type} [Scalar R]

/-- The default step of a gradient. -/
def gradientStep : R := 1e-6

/-- The default step of a Hessian. -/
def hessianStep : R := 1e-4

/-- The displacements along the coordinates. -/
def displacements (n : Nat) (eps : R) : List (Tensor R) :=
  (Rotations.unitColumns n).map fun row => Tensor.vector .numpy (row.map (· * eps))

/-- The objective's value at a point. -/
def value (f : Tensor R → Act R τ (Value R)) (x : Except (Fault R) (Tensor R)) :
    Act R τ (Value R) := do
  f (← Act.lift x)

/-- The gradient of `f` at `x` by central differences with step `eps`. -/
def approximateGradient (f : Tensor R → Act R τ (Value R)) (x : Tensor R) (eps : Value R) :
    Act R τ (Tensor R) := do
  if ← Act.lift (eps.le (.int 0)) then throw .differenceStep
  let x : Tensor R := { x with backend := .numpy }
  let step ← Act.lift eps.measured
  let entries ← (displacements x.entries.length step).mapM fun e => do
    let above ← value f (Space.add x e)
    let below ← value f (Space.sub x e)
    Act.lift (do Scalar.quotient (← (← above.sub below).toReal) (2.0 * step))
  return { x with entries := entries }

/-- The square of a step, exact if that is an integer. -/
def squared (eps : Value R) : Except (Fault R) R := do
  match ← eps.toNumber with
  | .int n => (Number.int (n * n)).toReal
  | .real x => Scalar.square x

/-- The second difference along one coordinate. -/
def straight (f : Tensor R → Act R τ (Value R)) (x : Tensor R) (center eps : Value R)
    (e : Tensor R) : Act R τ R := do
  let above ← value f (Space.add x e)
  let first ← Act.lift (do above.sub (← (Value.real 2.0).mul center))
  let below ← value f (Space.sub x e)
  Act.lift (do Scalar.quotient (← (← first.add below).toReal) (← squared eps))

/-- The second difference along two coordinates. -/
def crossed (f : Tensor R → Act R τ (Value R)) (x : Tensor R) (eps : Value R)
    (e d : Tensor R) : Act R τ R := do
  let pp ← value f (do Space.add (← Space.add x e) d)
  let pm ← value f (do Space.sub (← Space.add x e) d)
  let first ← Act.lift (pp.sub pm)
  let mp ← value f (do Space.add (← Space.sub x e) d)
  let second ← Act.lift (first.sub mp)
  let mm ← value f (do Space.sub (← Space.sub x e) d)
  Act.lift (do Scalar.quotient (← (← second.add mm).toReal) (4.0 * (← squared eps)))

/-- The rows of the upper triangle of a Hessian, each from its diagonal entry on. -/
def upperRows (f : Tensor R → Act R τ (Value R)) (x : Tensor R) (center eps : Value R) :
    List (Tensor R) → Act R τ (List (List R))
  | [] => return []
  | e :: rest => do
    let first ← straight f x center eps e
    let others ← rest.mapM (crossed f x eps e)
    return (first :: others) :: (← upperRows f x center eps rest)

/-- The entry of a symmetric matrix given by the rows of its upper triangle. -/
def symmetricEntry (upper : List (List R)) (i j : Nat) : R :=
  (upper.getD (min i j) []).getD (max i j - min i j) 0.0

/-- The Hessian of `f` at `x` by central differences with step `eps`. -/
def approximateHessian (f : Tensor R → Act R τ (Value R)) (x : Tensor R) (eps : Value R) :
    Act R τ (Tensor R) := do
  if ← Act.lift (eps.le (.int 0)) then throw .differenceStep
  let step ← Act.lift eps.measured
  let x : Tensor R := { x with backend := .numpy }
  let n := x.entries.length
  let center ← value f (.ok x)
  let upper ← upperRows f x center eps (displacements n step)
  let rows := (List.range n).map fun i => (List.range n).map fun j => symmetricEntry upper i j
  return Tensor.matrix .numpy rows n

end Differences

end Descent
