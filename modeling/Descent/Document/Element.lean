import Descent.Convert
import Descent.Decimal.Layout
import Descent.Tensor.Basic

/-!
# Types of array entries

An array that is stored keeps the type of its entries: truth values, integers of some width,
floating-point numbers of some width, texts.  A stored number is converted to that type: fractions
are dropped, a floating-point number becomes the nearest of its width, and a text is the number as
it is shown.

The two backends refuse numbers that do not fit differently.
-/

namespace Descent

/-- A floating-point format of eight bits. -/
structure NarrowFormat where
  label : String
  format : BinaryFormat
  greatest : Float
  /-- What stands for a value beyond the greatest one. -/
  excess : Float
  /-- Whether zero has a sign. -/
  signsZero : Bool := true
  deriving DecidableEq, Repr

/-- The type of the entries of a stored array. -/
inductive ElementType where
  | bool
  | integer (signed : Bool) (bits : Nat)
  | floating (bits : Nat)
  /-- Sixteen bits with the exponents of thirty-two. -/
  | brain
  | narrow (format : NarrowFormat)
  | complex (bits : Nat)
  | object
  /-- Texts of at most `width` characters, the width being open if it is zero. -/
  | text (width : Nat)
  /-- Texts of basic characters, in the same way. -/
  | bytes (width : Nat)
  /-- Entries that no number can be stored as. -/
  | raw
  /-- Entries whose bytes are kept in the opposite order, which shows in the name only. -/
  | swapped (type : ElementType)
  deriving DecidableEq, Repr, Inhabited

/-- An entry of a stored array.  Measured entries are floats of 64 bits, also in an array of a wider
type: such an array is modelled as far as its entries are of this kind. -/
inductive Element where
  | bool (b : Bool)
  | int (n : Int)
  | real (x : Float)
  | text (s : String)
  /-- An entry that is no single number. -/
  | pair
  deriving DecidableEq, Repr, Inhabited

namespace NarrowFormat

/-- Two bits of fraction. -/
def fractionTwo : NarrowFormat := ⟨"float8_e5m2", ⟨3, -16, 13⟩, 57344.0, 1.0 / 0.0, true⟩

/-- Three bits of fraction; the greatest value stands for all beyond it. -/
def fractionThree : NarrowFormat := ⟨"float8_e4m3fn", ⟨4, -9, 5⟩, 448.0, 448.0, true⟩

/-- Two bits of fraction, one zero, and no infinite values. -/
def fractionTwoFinite : NarrowFormat :=
  ⟨"float8_e5m2fnuz", ⟨3, -17, 13⟩, 57344.0, 0.0 / 0.0, false⟩

/-- Three bits of fraction, one zero, and no infinite values. -/
def fractionThreeFinite : NarrowFormat :=
  ⟨"float8_e4m3fnuz", ⟨4, -10, 4⟩, 240.0, 0.0 / 0.0, false⟩

/-- All of them. -/
def all : List NarrowFormat :=
  [fractionTwo, fractionThree, fractionTwoFinite, fractionThreeFinite]

/-- The value nearest to another one. -/
def nearest (f : NarrowFormat) (x : Float) : Float :=
  let y := Binary.reduce f.format x
  if f.greatest < Scalar.magnitude y then (if y < 0.0 then -f.excess else f.excess)
  else if Scalar.isZero y && !f.signsZero then 0.0
  else y

end NarrowFormat

namespace ElementType

/-- The number of bytes of an entry. -/
def byteSize : ElementType → Nat
  | bool | narrow _ => 1
  | integer _ bits | floating bits | complex bits => bits / 8
  | brain => 2
  | object | raw => 8
  | text width => 4 * width
  | bytes width => width
  | swapped t => t.byteSize

/-- The letter and the size that stand for a type whose bytes have an order. -/
def code : ElementType → String
  | integer true bits => "i" ++ toString (bits / 8)
  | integer false bits => "u" ++ toString (bits / 8)
  | floating bits => "f" ++ toString (bits / 8)
  | complex bits => "c" ++ toString (bits / 8)
  | text width => "U" ++ toString width
  | _ => ""

/-- The name of a type. -/
def label : ElementType → String
  | bool => "bool"
  | integer true bits => "int" ++ toString bits
  | integer false bits => "uint" ++ toString bits
  | floating bits => "float" ++ toString bits
  | brain => "bfloat16"
  | narrow f => f.label
  | complex bits => "complex" ++ toString bits
  | object => "object"
  | text width => "<U" ++ toString width
  | bytes width => "|S" ++ toString width
  | raw => "void"
  | swapped t => ">" ++ t.code

/-- An integer kept in a number of bits. -/
def wrap (signed : Bool) (bits : Nat) (n : Int) : Int :=
  let m := n % (Nat.pow 2 bits : Nat)
  if signed && decide ((Nat.pow 2 (bits - 1) : Nat) ≤ m) then m - (Nat.pow 2 bits : Nat) else m

/-- The least and the greatest integer of a number of bits. -/
def bounds (signed : Bool) (bits : Nat) : Int × Int :=
  if signed then (-(Nat.pow 2 (bits - 1) : Nat), (Nat.pow 2 (bits - 1) : Nat) - 1)
  else (0, (Nat.pow 2 bits : Nat) - 1)

/-- Whether an integer lies within bounds. -/
def within (n : Int) (b : Int × Int) : Bool := decide (b.1 ≤ n) && decide (n ≤ b.2)

/-- A number as an integer of the first backend: it must be within the bounds of the type. -/
def boundInteger (signed : Bool) (bits : Nat) (n : Number Float) :
    Except (Fault Float) Element :=
  if n.isNaN then .error .wrongValue
  else if n.isFinite && within n.truncate (bounds signed bits) then .ok (.int n.truncate)
  else .error .outOfRange

/-- An integer as one of the second backend.  A negative one that an unsigned type holds when its
sign is dropped is counted from the end of the range. -/
def checkedInteger (signed : Bool) (bits : Nat) (n : Int) : Except (Fault Float) Element :=
  let range := bounds signed bits
  if !signed && bits == 64 then
    if within n range then .ok (.int n) else .error .outOfRange
  else if !within n (bounds true 64) then .error .wrongValue
  else if within n range then .ok (.int n)
  else if !signed && n < 0 && within (-n) range then .ok (.int (wrap signed bits n))
  else .error .wrongShape

/-- A measured value as an integer of the second backend. -/
def checkedReal (signed : Bool) (bits : Nat) (x : Float) : Except (Fault Float) Element :=
  let (low, high) := bounds signed bits
  let fits := (Number.int low).le (.real x) && (Number.real x).le (.int high)
  if !signed && bits == 64 then .error .wrongType
  else if fits then .ok (.int (Scalar.truncate x))
  else .error .wrongShape

/-- A number stored as an integer. -/
def storeInteger (backend : Backend) (signed : Bool) (bits : Nat) (n : Number Float) :
    Except (Fault Float) Element :=
  match backend, n with
  | .numpy, n => boundInteger signed bits n
  | .torch, .int n => checkedInteger signed bits n
  | .torch, .real x => checkedReal signed bits x

/-- A floating-point number kept in sixteen bits with the exponents of thirty-two. -/
def brainFormat : BinaryFormat := ⟨8, -133, 120⟩

/-- A measured value as it is kept by a type. -/
def nearest (backend : Backend) (t : ElementType) (x : Float) : Float :=
  match t with
  | floating 16 =>
    Binary.reduce .half (match backend with
      | .numpy => x
      | .torch => Binary.reduce .single x)
  | floating 32 => Binary.reduce .single x
  | brain => Binary.reduce brainFormat (Binary.reduce .single x)
  | narrow f => f.nearest (Binary.reduce .single x)
  | _ => x

/-- A value as it is shown by an entry that is a text. -/
def shown (width : Nat) (v : Value Float) : Element :=
  .text ((v.plain Binary.text).take width).toString

/-- A value stored as an entry of a type. -/
def storeValue (backend : Backend) (t : ElementType) (v : Value Float) :
    Except (Fault Float) Element :=
  match t, v with
  | swapped t, v => t.storeValue backend v
  | text width, v | bytes width, v => .ok (shown width v)
  | raw, _ => .error .wrongValue
  | object, .bool b => .ok (.bool b)
  | object, .int n => .ok (.int n)
  | bool, v => do return .bool !((← v.toNumber).same (.int 0))
  | integer signed bits, v => do storeInteger backend signed bits (← v.toNumber)
  | complex 256, v => do return .real (← v.toReal)
  | complex _, v => do
    let _ ← v.toReal
    return .pair
  | t, v => do return .real (t.nearest backend (← v.toReal))

/-- The width of the widest of some values as they are shown, and at least one. -/
def widest (vs : List (Value Float)) : Nat :=
  vs.foldl (fun width v => max width (v.plain Binary.text).length) 1

/-- The type with its width, if that is open, wide enough for some values. -/
def fitted (vs : List (Value Float)) : ElementType → ElementType
  | text 0 => text (widest vs)
  | bytes 0 => bytes (widest vs)
  | swapped t => swapped (t.fitted vs)
  | t => t

/-- Values stored as entries of a type, and the type with its width. -/
def storeAll (backend : Backend) (t : ElementType) (vs : List (Value Float)) :
    Except (Fault Float) (ElementType × List Element) := do
  let t := t.fitted vs
  return (t, ← vs.mapM (t.storeValue backend))

end ElementType

namespace Element

/-- An entry as a measured value. -/
def toReal : Element → Except (Fault Float) Float
  | bool b => .ok (if b then 1.0 else 0.0)
  | int n => (Number.int n).toReal
  | real x => .ok x
  | text s => (Value.text s).toReal
  | pair => .error .wrongType

/-- An entry as a value, if it is one. -/
def toValue : Element → Except (Fault Float) (Value Float)
  | bool b => .ok (.bool b)
  | int n => .ok (.int n)
  | real x => .ok (.real x)
  | text s => .ok (.text s)
  | pair => .error .wrongType

end Element

end Descent
