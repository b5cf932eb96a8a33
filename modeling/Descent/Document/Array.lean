import Descent.Document.Element.Name
import Descent.Tensor.Solve

/-!
# Arrays in documents

An array is written as an object with its backend, the type of its entries, its shape and its
entries in row-major order, each as a measured value; values that are not finite are written as
words, so that the document stays strict.  Reading it back converts the entries to the type again.
-/

namespace Descent

/-- A document. -/
abbrev Document := Value Float

/-- An array as it is stored: entries of one type. -/
structure StoredArray where
  backend : Backend
  element : ElementType
  shape : Shape
  entries : List Element
  deriving DecidableEq, Repr, Inhabited

namespace Document

/-- A measured value in a document: itself, or a word if it is not finite. -/
def ofReal (x : Float) : Document :=
  if x.isNaN then .text "nan"
  else if x.isFinite then .real x
  else if x < 0.0 then .text "-inf" else .text "inf"

/-- What a document lists: the items of a list, the characters of a text, the keys of an
object. -/
def listed : Document → Except (Fault Float) (List Document)
  | .list vs => .ok vs
  | .text s => .ok (s.toList.map fun c => .text (String.singleton c))
  | .object fs => .ok (fs.map fun f => .text f.1)
  | _ => .error .wrongType

/-- A field that must be there. -/
def key (fields : List (String × Document)) (name : String) : Except (Fault Float) Document :=
  match Value.lookup name fields with
  | some v => .ok v
  | none => .error .missingKey

end Document

namespace Shape

/-- The product of the lengths that are given; a negative one stands for the length that is left
over. -/
def knownSize (lengths : List Int) : Int := (lengths.filter (0 ≤ ·)).foldl (· * ·) 1

/-- No axis of an array is longer, and no array takes more bytes. -/
def maxLength : Int := 9223372036854775807

/-- No array of the first backend has more axes. -/
def maxRank : Nat := 64

/-- Whether a backend has arrays of a shape whose entries take some bytes each; the bytes are
counted as if no axis were empty. -/
def isAllowed (backend : Backend) (byteSize : Nat) (shape : Shape) : Bool :=
  match backend with
  | .torch => true
  | .numpy =>
    decide (shape.length ≤ maxRank) &&
      decide (((size (shape.filter (0 < ·)) * byteSize : Nat) : Int) ≤ maxLength)

/-- The shape that lengths stand for, for an array with `count` entries. -/
def fill (backend : Backend) (lengths : List Int) (count : Nat) : Except (Fault Float) Shape :=
  let known := knownSize lengths
  match lengths.filter (· < 0) with
  | [] => if known = count then .ok (lengths.map Int.toNat) else .error backend.misfit
  | [n] =>
    if backend = .torch ∧ n ≠ -1 then .error backend.misfit
    else if known = 0 ∨ (count : Int) % known ≠ 0 then .error backend.misfit
    else .ok (lengths.map fun m => if m < 0 then count / known.toNat else m.toNat)
  | _ => .error backend.misfit

/-- The shape that lengths stand for, for an array with `count` entries of a type. -/
def resolve (backend : Backend) (element : ElementType) (lengths : List Int) (count : Nat) :
    Except (Fault Float) Shape := do
  let shape ← fill backend lengths count
  if isAllowed backend element.byteSize shape then return shape else throw backend.misfit

end Shape

namespace StoredArray

/-- The stored form of an array of measured values. -/
def ofTensor (t : Tensor Float) : StoredArray :=
  ⟨t.backend, .floating 64, t.shape, t.entries.map .real⟩

/-- The array of measured values of a stored one. -/
def toTensor (a : StoredArray) : Except (Fault Float) (Tensor Float) := do
  return ⟨a.backend, a.shape, ← a.entries.mapM Element.toReal⟩

/-- The document of an array. -/
def encode (a : StoredArray) : Except (Fault Float) Document := do
  let data ← a.entries.mapM fun e => do return Document.ofReal (← e.toReal)
  return .object [
    ("backend", .text a.backend.label),
    ("dtype", .text a.element.label),
    ("shape", .list (a.shape.map fun (n : Nat) => .int n)),
    ("data", .list data)]

/-- A single number as an array without axes; other values are not arrays. -/
def ofScalar (v : Value Float) : Except (Fault Float) StoredArray :=
  match v with
  | .bool b => .ok ⟨.numpy, .bool, [], [.bool b]⟩
  | .real x => .ok ⟨.numpy, .floating 64, [], [.real x]⟩
  | .int n =>
    let element : ElementType :=
      if ElementType.within n (ElementType.bounds true 64) then .integer true 64
      else if ElementType.within n (ElementType.bounds false 64) then .integer false 64
      else .object
    .ok ⟨.numpy, element, [], [.int n]⟩
  | v => .error (.notEncodable v.typeName)

/-- The document of a value: an array without axes, or nothing. -/
def encodeValue : Value Float → Except (Fault Float) Document
  | .null => .ok .null
  | v => do (← ofScalar v).encode

/-- The type of entries that a document names. -/
def elementOf (backend : Backend) (v : Document) : Except (Fault Float) ElementType :=
  match backend, v with
  | .numpy, .null => .ok (.floating 64)
  | backend, .text s => ElementType.ofName backend s
  | _, _ => .error .wrongType

/-- A length of a shape in a document. -/
def length (backend : Backend) : Document → Except (Fault Float) Int
  | .int n =>
    if -Shape.maxLength - 1 ≤ n ∧ n ≤ Shape.maxLength then .ok n
    else match backend with
      | .numpy => .error .wrongValue
      | .torch => .error .wrongType
  | _ => .error .wrongType

/-- The array that a document describes. -/
def decodeFields (fields : List (String × Document)) : Except (Fault Float) StoredArray := do
  let data ← (← Document.listed (← Document.key fields "data")).mapM Value.toReal
  let shape ← Document.listed (← Document.key fields "shape")
  let backend : Backend := match ← Document.key fields "backend" with
    | .text "torch" => .torch
    | _ => .numpy
  let element ← elementOf backend (← Document.key fields "dtype")
  let (element, entries) ← element.storeAll backend (data.map .real)
  let lengths ← shape.mapM (length backend)
  return ⟨backend, element, ← Shape.resolve backend element lengths entries.length, entries⟩

/-- The array that a document describes, if it describes one. -/
def decode : Document → Except (Fault Float) (Option StoredArray)
  | .null => .ok none
  | .object fields => do return some (← decodeFields fields)
  | _ => .error .wrongType

/-- Entries in row-major order as nested lists of a shape. -/
def nest : Shape → List Document → Document
  | [], xs => xs.headD .null
  | n :: s, xs => .list ((Shape.pieces (Shape.size s) n xs).map (nest s))

/-- The entries as nested lists. -/
def toValue (a : StoredArray) : Except (Fault Float) Document := do
  return nest a.shape (← a.entries.mapM Element.toValue)

end StoredArray

/-- How the arrays of a state or of a subproblem are written and read. -/
structure ArrayCodec (V M : Type) where
  encodeVector : V → Except (Fault Float) Document
  encodeMatrix : M → Except (Fault Float) Document
  decodeVector : StoredArray → Except (Fault Float) V
  decodeMatrix : StoredArray → Except (Fault Float) M

namespace ArrayCodec

/-- Arrays that are kept as they are stored. -/
def stored : ArrayCodec StoredArray StoredArray :=
  ⟨StoredArray.encode, StoredArray.encode, .ok, .ok⟩

/-- Arrays of measured values; a Hessian that is a function has no document. -/
def tensors : ArrayCodec (Tensor Float) (Curvature Float) where
  encodeVector := fun t => (StoredArray.ofTensor t).encode
  encodeMatrix := fun h =>
    match h with
    | .matrix t => (StoredArray.ofTensor t).encode
    | .function _ => .error (.notEncodable "function")
  decodeVector := StoredArray.toTensor
  decodeMatrix := fun a => do return .matrix (← a.toTensor)

variable {V M α : Type}

/-- The document of an array that may be absent. -/
def encodeOption (encode : α → Except (Fault Float) Document) :
    Option α → Except (Fault Float) Document
  | none => .ok .null
  | some a => encode a

/-- The array of a document that may be absent. -/
def decodeOption (decode : StoredArray → Except (Fault Float) α) (v : Document) :
    Except (Fault Float) (Option α) := do
  match ← StoredArray.decode v with
  | none => return none
  | some a => return some (← decode a)

end ArrayCodec

end Descent
