import Descent.Scalar

/-!
# Solving by elimination

`Elimination.solve` solves a square system by elimination, at each column with the row whose
entry there has the greatest magnitude.  It gives no answer exactly when such an entry is zero.
-/

namespace Descent.Elimination

variable {R : Type} [Scalar R]

/-- The position, counted from `next`, of the row whose leading entry has the greatest magnitude,
the first of several; `best` is the greatest before and `place` where it was. -/
def greatestLead (best : R) (place : Nat) : Nat → List (List R) → Nat
  | _, [] => place
  | next, row :: rest =>
    let lead := Scalar.magnitude (row.headD 0.0)
    if best < lead then greatestLead lead next (next + 1) rest
    else greatestLead best place (next + 1) rest

/-- The row with the leading entry of greatest magnitude, and the others after it changed places
with the first. -/
def choosePivot (first : List R) (rest : List (List R)) : List R × List (List R) :=
  match greatestLead (Scalar.magnitude (first.headD 0.0)) 0 1 rest with
  | 0 => (first, rest)
  | k + 1 => (rest.getD k first, rest.set k first)

/-- The least value whose reciprocal is in range. -/
def leastInvertible : R := 2.2250738585072014e-308

/-- A value divided by a pivot: multiplied by its reciprocal, unless that may be out of range. -/
def dividedBy (x p : R) : R :=
  if leastInvertible ≤ Scalar.magnitude p then x * (1.0 / p) else x / p

/-- A row with its leading entry removed by a multiple of the pivot row. -/
def reduceRow (pivot row : List R) : List R :=
  match pivot, row with
  | p :: ps, x :: xs =>
    let factor := dividedBy x p
    List.zipWith (fun y q => y - factor * q) xs ps
  | _, _ => []

/-- The unknowns of an augmented system, whose rows end with the right-hand sides; each unknown
has one value for each right-hand side.  `fuel` is the number of unknowns. -/
def unknowns : Nat → List (List R) → Option (List (List R))
  | 0, _ => some []
  | fuel + 1, rows =>
    match rows with
    | [] => some []
    | first :: rest =>
      let (pivot, others) := choosePivot first rest
      match pivot with
      | [] => none
      | p :: tail =>
        if Scalar.isZero p then none
        else
          match unknowns fuel (others.map (reduceRow pivot)) with
          | none => none
          | some later =>
            let coefficients := tail.take later.length
            let given := tail.drop later.length
            let value := (List.range given.length).map fun k =>
              let known := List.zipWith (fun c v => c * v.getD k 0.0) coefficients later
              (known.foldl (· - ·) (given.getD k 0.0)) / p
            some (value :: later)

/-- The solution of a square system, given by its rows, for each of the right-hand sides that the
lines of `given` hold. -/
def solve (rows given : List (List R)) : Option (List (List R)) :=
  unknowns rows.length (List.zipWith (· ++ ·) rows given)

end Descent.Elimination
