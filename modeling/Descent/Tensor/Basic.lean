import Descent.Space

/-!
# Arrays of numbers

A `Tensor` is an array of any rank, its entries in row-major order, owned by one of two backends.
The backends compute alike; they differ in the fault with which they refuse shapes that do not
fit together.  They mix in one direction only: an array of the second backend takes one of the
first to be combined with, but not the other way round.

Arrays of different shapes are combined by spreading them to a common one (`Shape.common`,
`Shape.spread`): shapes are aligned at their last axis, and an axis of length one is repeated.
-/

namespace Descent

/-- The library an array belongs to. -/
inductive Backend where
  | numpy
  | torch
  deriving DecidableEq, Repr, Inhabited

namespace Backend

/-- The name of a backend. -/
def label : Backend → String
  | numpy => "numpy"
  | torch => "torch"

/-- The backend of a name. -/
def ofLabel? (text : String) : Option Backend :=
  if text == "numpy" then some numpy else if text == "torch" then some torch else none

/-- How a backend refuses shapes that do not fit. -/
def misfit {R : Type} (detail : Detail R := .unsaid) : Backend → Fault R
  | numpy => .wrongValue detail
  | torch => .wrongShape detail

/-- The refusal of something beside an array that cannot be put together with it. -/
def uneven {R : Type} : Backend → Fault R
  | numpy => .wrongValue
  | torch => .wrongType

/-- How the arrays of a backend are called. -/
def arrayName : Backend → String
  | numpy => "numpy.ndarray"
  | torch => "Tensor"

/-- The refusal of arrays of two backends. -/
def unmixed {R : Type} (symbol : String) (left right : Backend) : Fault R :=
  .wrongType (.uncombined symbol left.arrayName right.arrayName)

end Backend

/-- The lengths of an array's axes. -/
abbrev Shape := List Nat

namespace Shape

/-- The number of entries. -/
def size (s : Shape) : Nat := s.foldr (· * ·) 1

/-- The common shape of two shapes given from the last axis on. -/
def commonReversed : Shape → Shape → Option Shape
  | [], t => some t
  | s, [] => some s
  | m :: s, n :: t =>
    if m = n then (commonReversed s t).map (m :: ·)
    else if m = 1 then (commonReversed s t).map (n :: ·)
    else if n = 1 then (commonReversed s t).map (m :: ·)
    else none

/-- The shape to which arrays of two shapes are both spread. -/
def common (s t : Shape) : Option Shape := (commonReversed s.reverse t.reverse).map List.reverse

/-- A shape with axes of length one put before it, up to a rank. -/
def padTo (rank : Nat) (s : Shape) : Shape := List.replicate (rank - s.length) 1 ++ s

/-- A list cut into `count` pieces of one length. -/
def pieces {α : Type} (length : Nat) : Nat → List α → List (List α)
  | 0, _ => []
  | count + 1, xs => xs.take length :: pieces length count (xs.drop length)

/-- The entries of an array spread from a shape to another one of the same rank. -/
def spreadAligned {α : Type} : Shape → Shape → List α → List α
  | m :: s, n :: t, xs =>
    if m = n then ((pieces (size s) m xs).map (spreadAligned s t)).flatten
    else (List.replicate n (spreadAligned s t xs)).flatten
  | _, _, xs => xs

/-- The entries of an array with its axes in the opposite order. -/
def reversed {α : Type} : Shape → List α → List α
  | [], xs => xs
  | n :: s, xs =>
    let parts := (pieces (size s) n xs).map (reversed s)
    (List.range (size s)).flatMap fun j => parts.filterMap (fun part => part[j]?)

/-- The entries of an array of one shape spread to another. -/
def spread {α : Type} (source target : Shape) (xs : List α) : List α :=
  if source = target then xs else spreadAligned (padTo target.length source) target xs

end Shape

/-- An array of numbers: its shape and its entries in row-major order. -/
structure Tensor (R : Type) where
  backend : Backend
  shape : Shape
  entries : List R
  deriving DecidableEq, Repr, Inhabited

namespace Tensor

variable {R : Type} [Scalar R]

/-- A vector with one axis. -/
def vector (backend : Backend) (entries : List R) : Tensor R :=
  ⟨backend, [entries.length], entries⟩

/-- A matrix of rows of one length. -/
def matrix (backend : Backend) (rows : List (List R)) (columns : Nat) : Tensor R :=
  ⟨backend, [rows.length, columns], rows.flatten⟩

/-- The array with its entries along one axis. -/
def flat (t : Tensor R) : Tensor R := { t with shape := [t.entries.length] }

/-- A function applied to every entry. -/
def map (f : R → R) (t : Tensor R) : Tensor R := { t with entries := t.entries.map f }

/-- A function applied entry by entry to two arrays spread to their common shape; `symbol` is how
a refusal calls it. -/
def zipWith (symbol : String) (f : R → R → R) (a b : Tensor R) : Except (Fault R) (Tensor R) :=
  match a.backend, b.backend with
  | .numpy, .torch => .error (Backend.unmixed symbol .numpy .torch)
  | _, second =>
    match Shape.common a.shape b.shape with
    | some s =>
      .ok ⟨a.backend, s, List.zipWith f (Shape.spread a.shape s a.entries)
        (Shape.spread b.shape s b.entries)⟩
    | none => .error (second.misfit (.shapes .entries a.shape b.shape))

/-- The sum of the products of entries in the same place. -/
def inner (xs ys : List R) : R := Scalar.sum (List.zipWith (· * ·) xs ys)

/-- The inner product of two arrays with equally many entries. -/
def dot (a b : Tensor R) : Except (Fault R) R :=
  match a.backend, b.backend with
  | .torch, .numpy => .error .wrongType
  | first, _ =>
    if a.entries.length = b.entries.length then .ok (inner a.entries b.entries)
    else .error (first.misfit (.shapes .inner [a.entries.length] [b.entries.length]))

/-- The square root of the sum of squares; of a single entry of the second backend, its
magnitude. -/
def norm (t : Tensor R) : R :=
  match t.backend, t.entries with
  | .torch, [x] => Scalar.magnitude x
  | _, xs => Scalar.sqrt (inner xs xs)

/-- The array with its axes in the opposite order. -/
def transpose (t : Tensor R) : Tensor R :=
  ⟨t.backend, t.shape.reverse, Shape.reversed t.shape t.entries⟩

/-- The rows of an array with two axes. -/
def rows (t : Tensor R) : List (List R) :=
  match t.shape with
  | [count, columns] => Shape.pieces columns count t.entries
  | _ => []

/-- The product of two matrices given by their rows and their columns. -/
def productEntries (rows columns : List (List R)) : List R :=
  rows.flatMap fun row => columns.map (inner row)

/-- The columns of a matrix given in row-major order. -/
def columnsOf (inside columns : Nat) (xs : List R) : List (List R) :=
  let lines := Shape.pieces columns inside xs
  (List.range columns).map fun j => lines.filterMap (fun row => row[j]?)

/-- The matrix product over the last two axes, earlier axes being spread to a common shape.
A first operand with one axis counts as a row, a second one as a column, and the axis added is
dropped from the result.  The backend of the second operand decides whose the result is. -/
def product (a b : Tensor R) : Except (Fault R) (Tensor R) :=
  let misfit : Fault R := b.backend.misfit (.shapes .product a.shape b.shape)
  let left := if a.shape.length = 1 then 1 :: a.shape else a.shape
  let right := if b.shape.length = 1 then b.shape ++ [1] else b.shape
  match a.backend, b.backend, left.reverse, right.reverse with
  | .numpy, .torch, _, _ => .error (Backend.unmixed "@" .numpy .torch)
  | _, _, k :: m :: outerA, n :: k' :: outerB =>
    if k ≠ k' then .error misfit
    else
      match Shape.common outerA.reverse outerB.reverse with
      | none => .error misfit
      | some outer =>
        let count := Shape.size outerA
        let as := Shape.spread outerA.reverse outer (Shape.pieces (m * k) count a.entries)
        let bs := Shape.spread outerB.reverse outer
          (Shape.pieces (k * n) (Shape.size outerB) b.entries)
        let entries := (List.zipWith (fun x y =>
          productEntries (Shape.pieces k m x) (columnsOf k n y)) as bs).flatten
        let inside :=
          (if a.shape.length = 1 then [] else [m]) ++ (if b.shape.length = 1 then [] else [n])
        .ok ⟨b.backend, outer ++ inside, entries⟩
  | _, _, _, _ => .error misfit

/-- The refusal of the inner product of nothing and an array: nothing is taken for an array with a
single entry, by arrays of the first backend. -/
def innerAbsent (like : Option (Tensor R)) (y : Tensor R) : Fault R :=
  match like with
  | some ⟨.torch, _, _⟩ => .missingAttribute (.lacks "NoneType" "reshape")
  | _ =>
    if y.entries.length = 1 then .wrongType (.uncombined "*" "NoneType" "float")
    else .wrongValue (.shapes .inner [1] [y.entries.length])

/-- The refusal of the image of an array under nothing. -/
def imageAbsent (x : Tensor R) : Fault R :=
  match x.backend with
  | .numpy => .wrongValue (.shapes .product [] x.shape)
  | .torch => .wrongType (.uncombined "@" "NoneType" Backend.torch.arrayName)

instance instSpace : Space R (Tensor R) where
  norm := norm
  dot := dot
  innerAbsent := innerAbsent
  imageAbsent := imageAbsent
  add := zipWith "+" (· + ·)
  sub := zipWith "-" (· - ·)
  scale := fun t c => t.map (· * c)
  zeros := map (fun _ => 0.0)
  blank := ⟨.numpy, [], [Scalar.nan]⟩
  size := fun t => t.entries.length
  isFinite := fun t => t.entries.all Scalar.isFinite

end Tensor

end Descent
