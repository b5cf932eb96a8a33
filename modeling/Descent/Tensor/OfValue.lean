import Descent.Convert
import Descent.Tensor.Solve

/-!
# Arrays from nested lists

A nested list of numbers is an array if lists at the same depth have the same length.  A Hessian
is such a list, or an object whose field `callable` holds the rows of a function.
-/

namespace Descent

/-- The shape of a nested list, by its first items. -/
def Value.nestedShape {R : Type} : Value R → Shape
  | .list [] => [0]
  | .list (v :: vs) => (vs.length + 1) :: v.nestedShape
  | _ => []

mutual

/-- The items at the bottom of a nested list of a shape. -/
def Value.nestedItems {R : Type} (backend : Backend) :
    Shape → Value R → Except (Fault Float) (List (Value R))
  | [], .list _ => .error backend.uneven
  | [], v => .ok [v]
  | n :: shape, .list vs =>
    if vs.length = n then Value.nestedItemsOf backend shape vs else .error .wrongValue
  | _, _ => .error backend.uneven

/-- The items at the bottom of nested lists of one shape. -/
def Value.nestedItemsOf {R : Type} (backend : Backend) :
    Shape → List (Value R) → Except (Fault Float) (List (Value R))
  | _, [] => .ok []
  | shape, v :: vs => do
    let first ← Value.nestedItems backend shape v
    return first ++ (← Value.nestedItemsOf backend shape vs)

end

/-- The array of a nested list. -/
def Tensor.ofValue (backend : Backend) (v : Value Float) : Except (Fault Float) (Tensor Float) := do
  let shape := v.nestedShape
  return ⟨backend, shape, ← (← v.nestedItems backend shape).mapM fun x => x.ofSpecial.toReal⟩

/-- The array of a nested list, if there is a list. -/
def Tensor.ofValue? (backend : Backend) (v : Value Float) :
    Except (Fault Float) (Option (Tensor Float)) :=
  match v with
  | .null => .ok none
  | v => do return some (← Tensor.ofValue backend v)

/-- The Hessian of a nested list or of the rows of a function, if there is one. -/
def Curvature.ofValue? (backend : Backend) (v : Value Float) :
    Except (Fault Float) (Option (Curvature Float)) :=
  match v with
  | .null => .ok none
  | .object fields =>
    match Value.lookup "callable" fields with
    | some (.list rows) => do
      return some (Curvature.ofRows (← rows.mapM fun row => do
        return (← Tensor.ofValue backend row).entries))
    | _ => .error .wrongType
  | v => do return some (.matrix (← Tensor.ofValue backend v))

end Descent
