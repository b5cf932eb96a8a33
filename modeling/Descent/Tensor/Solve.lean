import Descent.Linear.Elimination
import Descent.Linear.Rotations
import Descent.Quantity
import Descent.Tensor.Basic

/-!
# Linear systems over arrays

`Tensor.safeSolve` solves a system by elimination and, where that meets a zero pivot or the
matrix is not square, a least-squares problem with a small multiple of the identity added.
`Curvature.newtonStep` is the step a trust-region model with a dense Hessian would like to take.
-/

namespace Descent

namespace Tensor

variable {R : Type} [Scalar R]

/-- The right-hand sides of a system, one for each row of the result, and how the solutions are
put together. -/
def rightHandSides (vec : Tensor R) : Option (List (List R) × (Nat → List (List R) → Tensor R)) :=
  match vec.shape with
  | [_] => some ([vec.entries], fun _ xs => vector vec.backend xs.flatten)
  | [m, n] =>
    some (columnsOf m n vec.entries,
      fun k xs => ⟨vec.backend, [k, n], (columnsOf n k xs.flatten).flatten⟩)
  | _ => none

/-- The last two lengths of a right-hand side, the shape of the stack of them, and whether each is a
single column: a vector is one, and belongs to every matrix. -/
def sideShape : Shape → Option (Nat × Nat × Shape × Bool)
  | [] => none
  | [k] => some (k, 1, [], true)
  | shape =>
    match shape.reverse with
    | c :: k :: outer => some (k, c, outer.reverse, false)
    | _ => none

/-- The solutions of square systems, one for each matrix of a stack, absent if the matrices are not
square or elimination meets a zero pivot in one of them. -/
def eliminate (mat vec : Tensor R) : Except (Fault R) (Option (Tensor R)) :=
  match mat.shape.reverse with
  | n :: m :: outer =>
    if m ≠ n then .ok none
    else
      match sideShape vec.shape with
      | none => .error mat.backend.misfit
      | some (k, c, sideOuter, single) =>
        match Shape.common outer.reverse sideOuter with
        | none => .error mat.backend.misfit
        | some stack =>
          if k ≠ m then .error mat.backend.misfit
          else
            let matrices := Shape.spread outer.reverse stack
              (Shape.pieces (m * m) (Shape.size outer) mat.entries)
            let sides := Shape.spread sideOuter stack
              (Shape.pieces (m * c) (Shape.size sideOuter) vec.entries)
            let solved := (matrices.zip sides).mapM fun (a, b) =>
              Elimination.solve (Shape.pieces m m a) (Shape.pieces c m b)
            .ok (solved.map fun xs =>
              ⟨vec.backend, stack ++ (if single then [m] else [m, c]),
                (xs.map List.flatten).flatten⟩)
  | _ => .ok none

/-- How a backend refuses a least-squares problem that it cannot solve. -/
def unsolved : Backend → Fault R
  | .numpy => .singular
  | .torch => .wrongShape

/-- The shortest of the vectors whose image comes nearest to `vec`.  One of the backends refuses a
matrix with entries that are not finite. -/
def leastSquares (mat vec : Tensor R) : Except (Fault R) (Tensor R) :=
  match mat.shape, vec.rightHandSides with
  | [m, n], some (sides, build) =>
    if vec.shape.head? ≠ some m then .error (unsolved mat.backend)
    else if mat.backend = .numpy ∧ mat.entries.all Scalar.isFinite = false then
      .error (.singular .unconverged)
    else .ok (build n (Rotations.leastSquares n mat.rows sides))
  | _, _ => .error (unsolved mat.backend)

/-- The identity matrix times a factor. -/
def ridge (backend : Backend) (n : Nat) (factor : R) : Tensor R :=
  matrix backend ((Rotations.unitColumns n).map (·.map (factor * ·))) n

/-- The solution of a system, with `reg` times the identity added and the least-squares problem
solved if the matrix is not square or is singular; only then must `reg` be a number. -/
def safeSolve (mat vec : Tensor R) (reg : Value R) : Except (Fault R) (Tensor R) := do
  match ← eliminate mat vec with
  | some x => return x
  | none =>
    match mat.shape with
    | [] => .error .missingItem
    | n :: _ =>
      leastSquares (← zipWith "+" (· + ·) mat (ridge mat.backend n (← reg.measured))) vec

/-- The default weight of the identity in `safeSolve`. -/
def defaultRidge : R := 1e-12

/-- A matrix with the entries above its diagonal replaced by those below. -/
def mirrored (rows : List (List R)) : List (List R) :=
  (List.range rows.length).map fun i =>
    (List.range rows.length).map fun j => (rows.getD (max i j) []).getD (min i j) 0.0

/-- The eigenvalues of a symmetric matrix, of which the lower half is looked at.  With entries that
are not finite, those of up to two rows are unknown, and the others are refused. -/
def eigenvalues (rows : List (List R)) : Except (Fault R) (List R) :=
  let lower := mirrored rows
  if rows.length ≤ 1 || lower.flatten.all Scalar.isFinite then .ok (Rotations.eigenvalues lower)
  else if rows.length = 2 then .ok [Scalar.nan, Scalar.nan]
  else .error .singular

/-- Whether every eigenvalue of the symmetric part of a matrix, or of every matrix of a stack, is
above a tolerance. -/
def isPositiveDefinite (mat : Tensor R) (tol : Value R) : Except (Fault R) Bool := do
  let sum ← zipWith "+" (· + ·) mat mat.transpose
  let sym := sum.map (0.5 * ·)
  match sym.shape.reverse with
  | n :: m :: outer =>
    if m ≠ n then .error .singular
    else
      let matrices := (Shape.pieces (m * m) (Shape.size outer) sym.entries).map (Shape.pieces m m)
      let values := (← matrices.mapM eigenvalues).flatten
      let tol ← tol.measured
      return values.all fun x => decide (tol < x)
  | _ => .error .singular

end Tensor

/-- A Hessian: a matrix, or a function computing its products with vectors. -/
inductive Curvature (R : Type) where
  | matrix (t : Tensor R)
  | function (product : Tensor R → Except (Fault R) (Tensor R))

namespace Curvature

variable {R : Type} [Scalar R]

/-- The matrix of a dense Hessian. -/
def matrix? : Curvature R → Option (Tensor R)
  | matrix t => some t
  | function _ => none

/-- The product of a Hessian with a vector. -/
def apply : Curvature R → Tensor R → Except (Fault R) (Tensor R)
  | matrix t, v => t.product v
  | function f, v => f v

/-- The step that a dense Hessian maps to the negative of a gradient. -/
def newtonStep (h : Curvature R) (grad : Tensor R) : Except (Fault R) (Tensor R) :=
  match h, grad.backend with
  | function _, .numpy => .error (.wrongType (.notMeasured "function"))
  | function _, .torch => .error (.wrongType (.notMatrix "function"))
  | matrix t, _ =>
    let target := grad.map (-·)
    match t.backend, grad.backend with
    | .numpy, .torch => .error (.wrongType (.notMatrix Backend.numpy.arrayName))
    | _, .numpy =>
      Tensor.safeSolve { t with backend := .numpy } target (.real Tensor.defaultRidge)
    | _, .torch =>
      match Tensor.eliminate t target with
      | .ok (some x) => .ok x
      | _ => Tensor.leastSquares t target

/-- The products of rows with an array, which must have one axis unless nothing is multiplied. -/
def rowProducts (rows : List (List R)) (v : Tensor R) : Except (Fault R) (Tensor R) :=
  let answer := Tensor.vector v.backend (rows.map fun row => Tensor.inner row v.entries)
  match v.shape with
  | [_] => .ok answer
  | [] => if rows.isEmpty then .ok answer else .error .wrongType
  | n :: _ => if n = 0 || rows.all List.isEmpty then .ok answer else .error .wrongType

/-- The function computing the products of the rows with vectors. -/
def ofRows (rows : List (List R)) : Curvature R := function (rowProducts rows)

instance instLinearAction : LinearAction R (Tensor R) (Curvature R) where
  apply := apply
  newtonStep := newtonStep

end Curvature

end Descent
