import Descent.Scalar

/-!
# Orthogonalising by plane rotations

Columns are made orthogonal by rotating two of them at a time (`sweep`), until a sweep finds
every pair orthogonal to working precision.  The lengths that remain are the singular values, so
`leastSquares` is the solution of least length among those that come nearest to the right-hand
side, directions of negligible singular value being left out.  Applied to a symmetric matrix from
both sides, the same rotations give its eigenvalues.
-/

namespace Descent.Rotations

variable {R : Type} [Scalar R]

/-- The inner product of two columns. -/
def inner (xs ys : List R) : R := Scalar.sum (List.zipWith (· * ·) xs ys)

/-- The spacing of the measured values next to one. -/
def precision : R := 2.220446049250313e-16

/-- Cosine and sine of the rotation that makes two columns with squared lengths `a` and `b` and
inner product `c` orthogonal. -/
def rotation (a b c : R) : R × R :=
  let zeta := (b - a) / (2.0 * c)
  let root := Scalar.sqrt (1.0 + zeta * zeta)
  let t :=
    if Scalar.isFinite (zeta * zeta) then
      if zeta < 0.0 then -(1.0 / (root - zeta)) else 1.0 / (root + zeta)
    else 1.0 / (2.0 * zeta)
  let cos := 1.0 / Scalar.sqrt (1.0 + t * t)
  (cos, cos * t)

/-- Two columns combined by a rotation. -/
def rotate (cos sin : R) (xs ys : List R) : List R × List R :=
  (List.zipWith (fun x y => cos * x - sin * y) xs ys,
    List.zipWith (fun x y => sin * x + cos * y) xs ys)

/-- A column of the matrix with the column of the accumulated rotation. -/
structure Column (R : Type) where
  image : List R
  source : List R

/-- One column made orthogonal to those after it; whether any rotation was needed. -/
def against : Column R → List (Column R) → Column R × List (Column R) × Bool
  | p, [] => (p, [], false)
  | p, q :: rest =>
    let a := inner p.image p.image
    let b := inner q.image q.image
    let c := inner p.image q.image
    if Scalar.magnitude c ≤ precision * Scalar.sqrt (a * b) ∨ Scalar.isNaN c = true then
      let (p', rest', moved) := against p rest
      (p', q :: rest', moved)
    else
      let (cos, sin) := rotation a b c
      let (pi, qi) := rotate cos sin p.image q.image
      let (ps, qs) := rotate cos sin p.source q.source
      let (p', rest', _) := against ⟨pi, ps⟩ rest
      (p', ⟨qi, qs⟩ :: rest', true)

/-- Every column made orthogonal to those after it in turn. -/
def sweep : Nat → List (Column R) → List (Column R) × Bool
  | 0, cs => (cs, false)
  | _ + 1, [] => ([], false)
  | fuel + 1, p :: rest =>
    let (p', rest', moved) := against p rest
    let (done, moved') := sweep fuel rest'
    (p' :: done, moved || moved')

/-- Sweeps until one finds nothing to rotate, at most `fuel` of them. -/
def sweeps : Nat → List (Column R) → List (Column R)
  | 0, cs => cs
  | fuel + 1, cs =>
    let (cs', moved) := sweep cs.length cs
    if moved then sweeps fuel cs' else cs'

/-- The unit columns of a size. -/
def unitColumns (n : Nat) : List (List R) :=
  (List.range n).map fun i => (List.range n).map fun j => if i = j then 1.0 else 0.0

/-- The columns of a matrix given by its rows. -/
def columns (n : Nat) (rows : List (List R)) : List (List R) :=
  (List.range n).map fun j => rows.map fun row => row.getD j 0.0

/-- Orthogonal columns, each the image of its source column under the matrix. -/
def orthogonalise (n : Nat) (rows : List (List R)) : List (Column R) :=
  sweeps 60 (List.zipWith Column.mk (columns n rows) (unitColumns n))

/-- The solution of least length of a least-squares problem with `n` unknowns, for one
right-hand side. -/
def solution (n : Nat) (parts : List (Column R)) (cutoff : R) (given : List R) : List R :=
  parts.foldl
    (fun acc p =>
      let length := Scalar.sqrt (inner p.image p.image)
      if length ≤ cutoff then acc
      else
        let weight := inner p.image given / length / length
        List.zipWith (fun x v => x + weight * v) acc p.source)
    (List.replicate n 0.0)

/-- The solutions of least length of a least-squares problem with `n` unknowns, one for each of
the right-hand sides; singular values at or below `precision * max m n` times the greatest are
left out. -/
def leastSquaresInRange (n : Nat) (rows given : List (List R)) : List (List R) :=
  let parts := orthogonalise n rows
  let greatest := (parts.map fun p => Scalar.sqrt (inner p.image p.image)).foldl Scalar.greatest 0.0
  let size : R := Scalar.sum (List.replicate (max n rows.length) 1.0)
  given.map (solution n parts (precision * size * greatest))

/-- The greatest magnitude among the entries of a matrix. -/
def greatestEntry (rows : List (List R)) : R :=
  (rows.flatten.map Scalar.magnitude).foldl Scalar.greatest 0.0

/-- Whether the squares of entries up to this magnitude, and of the greatest, stay in range. -/
def isModerate (greatest : R) : Bool :=
  Scalar.isZero greatest || (decide (1e-100 ≤ greatest) && decide (greatest ≤ 1e100))

/-- The solutions of least length of a least-squares problem with `n` unknowns.  A matrix with
entries of extreme magnitude is divided by the greatest, and the solutions with it. -/
def leastSquares (n : Nat) (rows given : List (List R)) : List (List R) :=
  let greatest := greatestEntry rows
  if isModerate greatest then leastSquaresInRange n rows given
  else
    (leastSquaresInRange n (rows.map (·.map (· / greatest))) given).map (·.map (· / greatest))

/-- The matrix after its rows `p` and `q` and its columns `p` and `q` are rotated so that the
entries where they cross vanish. -/
def rotateBoth (rows : List (List R)) (p q : Nat) : List (List R) :=
  let entry i j := (rows.getD i []).getD j 0.0
  let c := entry p q
  if Scalar.isZero c then rows
  else
    let (cos, sin) := rotation (entry p p) (entry q q) c
    let n := rows.length
    let (rp, rq) := rotate cos sin (rows.getD p []) (rows.getD q [])
    let turned := (rows.set p rp).set q rq
    let entry' i j := (turned.getD i []).getD j 0.0
    let turned := turned.mapIdx fun i row =>
      (row.set p (cos * entry' i p - sin * entry' i q)).set q
        (sin * entry' i p + cos * entry' i q)
    let turned := turned.mapIdx fun i row =>
      if i = p then row.set q 0.0 else if i = q then row.set p 0.0 else row
    if n = 0 then rows else turned

/-- Every pair of rows of a symmetric matrix rotated once. -/
def symmetricSweep (rows : List (List R)) : List (List R) :=
  let n := rows.length
  (List.range n).foldl
    (fun acc p => (List.range n).foldl
      (fun acc q => if p < q then rotateBoth acc p q else acc) acc) rows

/-- The eigenvalues of a symmetric matrix: the diagonal that is left after enough sweeps. -/
def eigenvalues (rows : List (List R)) : List R :=
  let final := (List.range 30).foldl (fun acc _ => symmetricSweep acc) rows
  final.mapIdx fun i row => row.getD i 0.0

end Descent.Rotations
