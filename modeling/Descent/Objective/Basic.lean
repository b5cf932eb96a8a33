import Descent.Fault
import Descent.Scalar

/-!
# Objectives given by formulas

An `Objective` is a sum of parts of six kinds - a quadratic, Rosenbrock's valley, monomials, waves,
exponentials and logarithms of single coordinates - with its gradient and Hessian written out.
Every sum is taken from left to right, and so is every product, so the values are determined to
the last bit.

The constants of a part are numbers, converted to measured values where they meet one; those that
a formula does not reach need not be in range.  Likewise an entry of the point that is no number
(`Coordinates`) is refused only where it is computed with.
-/

namespace Descent

/-- A point: its entries, absent where they are no numbers. -/
abbrev Coordinates (R : Type) := List (Option R)

namespace Objective

/-- The quadratic `½ xᵀAx - bᵀx + c`. -/
structure Quadratic (R : Type) where
  matrix : List (List (Number R))
  linear : List (Number R)
  constant : Number R

/-- The valley `(a - x₀)² + b (x₁ - x₀²)²`. -/
structure Rosenbrock (R : Type) where
  a : Number R
  b : Number R

/-- A coefficient times powers of the coordinates.  An exponent that is no integer is refused where
a power is taken. -/
structure Monomial (R : Type) where
  coefficient : Number R
  exponents : List (Number R)

/-- An amplitude times a function of `rate` times one coordinate; a negative index counts from the
last coordinate back. -/
structure Ripple (R : Type) where
  amplitude : Number R
  index : Int
  rate : Number R

end Objective

open Objective in
/-- A sum of parts. -/
structure Objective (R : Type) where
  quadratic : Option (Quadratic R) := none
  rosenbrock : Option (Rosenbrock R) := none
  monomials : List (Monomial R) := []
  waves : List (Ripple R) := []
  exponentials : List (Ripple R) := []
  /-- Amplitudes times logarithms; their rates do not matter. -/
  logarithms : List (Ripple R) := []

namespace Objective

variable {R : Type} [Elementary R]

/-! ### Coordinates -/

/-- An entry of a point, refused if the point has too few. -/
def fetch (x : Coordinates R) (i : Nat) : Except (Fault R) (Option R) :=
  match x[i]? with
  | some v => .ok v
  | none => .error .missingItem

/-- An entry to compute with. -/
def use : Option R → Except (Fault R) R
  | some v => .ok v
  | none => .error .wrongType

/-- A coordinate to compute with. -/
def coordinate (x : Coordinates R) (i : Nat) : Except (Fault R) R := do use (← fetch x i)

/-- The place that an index stands for among `n`. -/
def place (n : Nat) (i : Int) : Except (Fault R) Nat :=
  if 0 ≤ i ∧ i < n then .ok i.toNat
  else if -(n : Int) ≤ i ∧ i < 0 then .ok (i + n).toNat
  else .error .missingItem

/-! ### Sums and products -/

/-- A quotient that is infinite where the divisor is zero. -/
def ratio (x y : R) : R := if Scalar.isZero y then Scalar.inf else x / y

/-- The product of a row with a point. -/
def rowProduct (row : List (Number R)) (x : Coordinates R) : Except (Fault R) R := do
  let terms ← (row.zip x).mapM fun (a, v) => do return (← a.toReal) * (← use v)
  return Scalar.sum terms

/-- A number multiplied by a coordinate several times. -/
def multiplied (c : Number R) (v : Option R) : Nat → Except (Fault R) (Number R)
  | 0 => .ok c
  | count + 1 => do
    let c ← c.mul (.real (← use v))
    multiplied c v count

/-- How often a power multiplies; a negative exponent stands for no factor. -/
def repetitions : Number R → Except (Fault R) Nat
  | .int e => .ok e.toNat
  | .real _ => .error (.wrongType (.notWhole "float"))

/-- A coefficient times powers of the coordinates. -/
def powers (c : Number R) : List (Number R) → Coordinates R → Except (Fault R) (Number R)
  | e :: es, v :: vs => do powers (← multiplied c v (← repetitions e)) es vs
  | _, _ => .ok c

/-- The value of a monomial. -/
def Monomial.value (m : Monomial R) (x : Coordinates R) : Except (Fault R) R := do
  (← powers m.coefficient m.exponents x).toReal

/-- An exponent of a monomial, refused if it has too few. -/
def exponent (es : List (Number R)) (i : Nat) : Except (Fault R) (Number R) :=
  match es[i]? with
  | some e => .ok e
  | none => .error .missingItem

/-- The derivative of a monomial along a coordinate, absent if it is zero. -/
def Monomial.derivative (m : Monomial R) (i : Nat) : Except (Fault R) (Option (Monomial R)) := do
  let e ← exponent m.exponents i
  if !(Number.int 0).lt e then return none
  return some ⟨← m.coefficient.mul e, m.exponents.set i (← e.sub (.int 1))⟩

/-- The derivative of a monomial along two coordinates, absent if it is zero.  The factor that the
two exponents make is a measured value, so the coefficient is one from then on: a product too
large is infinite, where along one coordinate an integer coefficient stays exact. -/
def Monomial.secondDerivative (m : Monomial R) (i j : Nat) :
    Except (Fault R) (Option (Monomial R)) := do
  let e ← exponent m.exponents i
  let factor ← (Number.real 1.0).mul e
  let lowered := m.exponents.set i (← e.sub (.int 1))
  let d ← exponent lowered j
  let factor ← factor.mul d
  let exponents := lowered.set j (← d.sub (.int 1))
  if factor.same (.int 0) || exponents.any (·.lt (.int 0)) then return none
  return some ⟨← m.coefficient.mul factor, exponents⟩

/-- The values of monomials of which some may be absent. -/
def values (terms : List (Option (Monomial R))) (x : Coordinates R) :
    Except (Fault R) (List R) :=
  (terms.filterMap id).mapM (·.value x)

/-- The parts of a sum of which some may be absent. -/
def optional {α β : Type} (part : Option α) (f : α → Except (Fault R) (List β)) :
    Except (Fault R) (List β) :=
  match part with
  | some a => f a
  | none => .ok []

/-! ### The value -/

/-- The parts of the value that a quadratic makes. -/
def Quadratic.parts (q : Quadratic R) (x : Coordinates R) : Except (Fault R) (List R) := do
  let squares ← (x.zip q.matrix).mapM fun (v, row) => do
    let image ← rowProduct row x
    return (← use v) * image
  let linear ← rowProduct q.linear x
  return [0.5 * Scalar.sum squares, -linear, ← q.constant.toReal]

/-- The first two coordinates, which a valley looks at. -/
def Rosenbrock.plane (x : Coordinates R) : Except (Fault R) (R × R) := do
  let x0 ← fetch x 0
  let x1 ← fetch x 1
  return (← use x0, ← use x1)

/-- The parts of the value that a valley makes. -/
def Rosenbrock.parts (r : Rosenbrock R) (x : Coordinates R) : Except (Fault R) (List R) := do
  let (x0, x1) ← plane x
  let u := (← r.a.toReal) - x0
  let w := x1 - x0 * x0
  return [u * u, (← r.b.toReal) * (w * w)]

/-- The value of one ripple, given its function. -/
def Ripple.value (f : R → R) (x : Coordinates R) (t : Ripple R) : Except (Fault R) R := do
  let v ← coordinate x (← place x.length t.index)
  return (← t.amplitude.toReal) * f ((← t.rate.toReal) * v)

/-- Whether there are no parts. -/
def isEmpty (o : Objective R) : Bool :=
  o.quadratic.isNone && o.rosenbrock.isNone && o.monomials.isEmpty && o.waves.isEmpty &&
    o.exponentials.isEmpty && o.logarithms.isEmpty

/-- The value at a point. -/
def cost (o : Objective R) (x : Coordinates R) : Except (Fault R) R := do
  let quadratic ← optional o.quadratic fun q => q.parts x
  let valley ← optional o.rosenbrock fun r => r.parts x
  let monomials ← o.monomials.mapM (·.value x)
  let waves ← o.waves.mapM (Ripple.value Elementary.cos x)
  let exponentials ← o.exponentials.mapM (Ripple.value Elementary.exp x)
  let logarithms ← o.logarithms.mapM fun t => do
    return (← t.amplitude.toReal) * Elementary.log (← coordinate x (← place x.length t.index))
  return Scalar.sum (quadratic ++ valley ++ monomials ++ waves ++ exponentials ++ logarithms)

/-! ### The gradient -/

/-- The parts of a component of the gradient that a quadratic makes. -/
def Quadratic.slope (q : Quadratic R) (x : Coordinates R) (i : Nat) :
    Except (Fault R) (List R) := do
  match q.matrix[i]?, q.linear[i]? with
  | some row, some b => return [(← rowProduct row x) - (← b.toReal)]
  | _, _ => .error .missingItem

/-- A number times an integer, as a measured value. -/
def scaled (k : Int) (b : Number R) : Except (Fault R) R := do (← (Number.int k).mul b).toReal

/-- The parts of a component of the gradient that a valley makes. -/
def Rosenbrock.slope (r : Rosenbrock R) (x : Coordinates R) (i : Nat) :
    Except (Fault R) (List R) := do
  let (x0, x1) ← plane x
  let u := (← r.a.toReal) - x0
  let w := x1 - x0 * x0
  match i with
  | 0 => return [-2.0 * u, (← scaled (-4) r.b) * x0 * w]
  | 1 => return [(← scaled 2 r.b) * w]
  | _ => return []

/-- The ripples of one coordinate, each turned into a part. -/
def ripples (terms : List (Ripple R)) (i : Nat) (x : Coordinates R)
    (f : Ripple R → R → Except (Fault R) R) : Except (Fault R) (List R) := do
  let places ← terms.mapM fun t => place x.length t.index
  ((places.zip terms).filter (·.1 == i)).mapM fun t => do f t.2 (← coordinate x i)

/-- The amplitude times the rate. -/
def Ripple.pace (t : Ripple R) : Except (Fault R) (Number R) := t.amplitude.mul t.rate

/-- A component of the gradient. -/
def slope (o : Objective R) (x : Coordinates R) (i : Nat) : Except (Fault R) R := do
  let quadratic ← optional o.quadratic fun q => q.slope x i
  let valley ← optional o.rosenbrock fun r => r.slope x i
  let monomials ← values (← o.monomials.mapM (·.derivative i)) x
  let waves ← ripples o.waves i x fun t v => do
    return -(← (← t.pace).toReal) * Elementary.sin ((← t.rate.toReal) * v)
  let exponentials ← ripples o.exponentials i x fun t v => do
    return (← (← t.pace).toReal) * Elementary.exp ((← t.rate.toReal) * v)
  let logarithms ← ripples o.logarithms i x fun t v => do return ratio (← t.amplitude.toReal) v
  return Scalar.sum (quadratic ++ valley ++ monomials ++ waves ++ exponentials ++ logarithms)

/-- The refusal of a point without a coordinate that a part names. -/
def demandNamed (o : Objective R) (x : Coordinates R) : Except (Fault R) Unit := do
  if o.rosenbrock.isSome then
    let _ ← fetch x 0
    let _ ← fetch x 1
  for t in o.waves ++ o.exponentials ++ o.logarithms do
    let _ ← place (R := R) x.length t.index

/-- The gradient at a point. -/
def gradient (o : Objective R) (x : Coordinates R) : Except (Fault R) (List R) := do
  o.demandNamed x
  (List.range x.length).mapM (o.slope x)

/-! ### The Hessian -/

/-- The parts of an entry of the Hessian that a valley makes. -/
def Rosenbrock.bend (r : Rosenbrock R) (x : Coordinates R) (i j : Nat) :
    Except (Fault R) (List R) := do
  let (x0, x1) ← plane x
  match i, j with
  | 0, 0 => return [(← scaled 12 r.b) * (x0 * x0), (← scaled (-4) r.b) * x1, 2.0]
  | 0, 1 | 1, 0 => return [(← scaled (-4) r.b) * x0]
  | 1, 1 => return [← scaled 2 r.b]
  | _, _ => return []

/-- The parts of an entry of the Hessian that a quadratic makes. -/
def Quadratic.bend (q : Quadratic R) (i j : Nat) : Except (Fault R) (List R) :=
  match (q.matrix[i]?).bind (·[j]?) with
  | some a => do return [← a.toReal]
  | none => .error .missingItem

/-- The amplitude times the square of the rate. -/
def Ripple.curvature (t : Ripple R) : Except (Fault R) R := do
  (← (← t.pace).mul t.rate).toReal

/-- An entry of the Hessian. -/
def bend (o : Objective R) (x : Coordinates R) (i j : Nat) : Except (Fault R) R := do
  let quadratic ← optional o.quadratic fun q => q.bend i j
  let valley ← optional o.rosenbrock fun r => r.bend x i j
  let monomials ← values (← o.monomials.mapM (·.secondDerivative i j)) x
  let diagonal (terms : List (Ripple R)) : List (Ripple R) := if i = j then terms else []
  let waves ← ripples (diagonal o.waves) i x fun t v => do
    return -(← t.curvature) * Elementary.cos ((← t.rate.toReal) * v)
  let exponentials ← ripples (diagonal o.exponentials) i x fun t v => do
    return (← t.curvature) * Elementary.exp ((← t.rate.toReal) * v)
  let logarithms ← ripples (diagonal o.logarithms) i x fun t v => do
    return -(ratio (← t.amplitude.toReal) (v * v))
  return Scalar.sum (quadratic ++ valley ++ monomials ++ waves ++ exponentials ++ logarithms)

/-- The rows of the Hessian at a point. -/
def hessian (o : Objective R) (x : Coordinates R) : Except (Fault R) (List (List R)) := do
  o.demandNamed x
  (List.range x.length).mapM fun i => (List.range x.length).mapM (o.bend x i)

end Objective

end Descent
