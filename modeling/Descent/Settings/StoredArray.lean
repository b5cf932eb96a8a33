import Descent.Document.Array
import Descent.Tensor.OfValue

/-!
# Stored arrays given as values

A stored array is described by the type of its entries and a nested list of them.
-/

namespace Descent.Settings

/-- The items of a nested list of a shape; an uneven one still makes an array of objects, of which
none is a number. -/
def items (backend : Backend) (element : ElementType) (shape : Shape) (data : Value Float) :
    Except (Fault Float) (List (Value Float)) :=
  match element, data.nestedItems backend shape with
  | .object, .error _ => .error .wrongType
  | _, r => r

/-- The array with entries of a type that a nested list describes. -/
def arrayOf (backend : Backend) (element : ElementType) (data : Value Float) :
    Except (Fault Float) StoredArray := do
  let shape := data.nestedShape
  let items ← items backend element shape data
  let (element, entries) ← element.storeAll backend (items.map Value.ofSpecial)
  return ⟨backend, element, shape, entries⟩

/-- The array with entries of a named type that a nested list describes. -/
def storedArray (backend : Backend) (element : Value Float) (data : Value Float) :
    Except (Fault Float) StoredArray := do
  arrayOf backend (← StoredArray.elementOf backend element) data

/-- The document of a single number of a named type: its bytes are in the usual order, and an
object has the type of its value.  A list makes an array. -/
def encodeLone (element : Value Float) (data : Value Float) :
    Except (Fault Float) (Value Float) := do
  match ← StoredArray.elementOf .numpy element, data with
  | .object, .list vs => (← arrayOf .numpy .object (.list vs)).encode
  | .object, v => StoredArray.encodeValue v.ofSpecial
  | .swapped t, v | t, v => (← arrayOf .numpy t v).encode

end Descent.Settings
