import Descent.Number
import Descent.Text.Quoted

/-!
# Values of documents and settings

`Value R` is what a document, a setting or a diagnostic may hold.  Integers and measured values
are kept apart, the fields of an object keep their order, and an object has each key once.
-/

namespace Descent

/-- A value of a document, of a setting or of a diagnostic. -/
inductive Value (R : Type) where
  | null
  | bool (b : Bool)
  | int (n : Int)
  | real (x : R)
  | text (s : String)
  | list (items : List (Value R))
  | object (fields : List (String × Value R))
  deriving Inhabited, Repr, BEq

namespace Value

variable {R : Type}

/-- The value of the first field with a key. -/
def lookup (key : String) : List (String × Value R) → Option (Value R)
  | [] => none
  | (k, v) :: rest => if k == key then some v else lookup key rest

/-- Fields with the value of one key replaced, or the field added at the end. -/
def insert (key : String) (value : Value R) : List (String × Value R) → List (String × Value R)
  | [] => [(key, value)]
  | (k, v) :: rest => if k == key then (key, value) :: rest else (k, v) :: insert key value rest

/-- The field of an object. -/
def field? (v : Value R) (key : String) : Option (Value R) :=
  match v with
  | .object fields => lookup key fields
  | _ => none

/-- The field of an object, the empty value if it is absent. -/
def get (v : Value R) (key : String) : Value R := (v.field? key).getD .null

/-- A number as a value. -/
def ofNumber : Number R → Value R
  | .int n => .int n
  | .real x => .real x

/-- A value, unless it is the empty one. -/
def given? : Value R → Option (Value R)
  | .null => none
  | v => some v

/-- The name of the kind of a value. -/
def typeName : Value R → String
  | .null => "NoneType"
  | .bool _ => "bool"
  | .int _ => "int"
  | .real _ => "float"
  | .text _ => "str"
  | .list _ => "list"
  | .object _ => "dict"

/-- Whether a value is a text. -/
def isText : Value R → Bool
  | .text _ => true
  | _ => false

/-- Whether a value is an object. -/
def isObject : Value R → Bool
  | .object _ => true
  | _ => false

/-- Whether a value can be looked up in a set: lists and objects cannot. -/
def isHashable : Value R → Bool
  | .list _ => false
  | .object _ => false
  | _ => true

/-- A value as a number to compute with; a truth value counts as one or zero. -/
def number? : Value R → Option (Number R)
  | .bool b => some (.int (if b then 1 else 0))
  | .int n => some (.int n)
  | .real x => some (.real x)
  | _ => none

/-- Whether a value counts as given: not empty, not zero, not false. -/
def isTruthy [Scalar R] : Value R → Bool
  | .null => false
  | .bool b => b
  | .int n => n != 0
  | .real x => !Scalar.isZero x
  | .text s => s != ""
  | .list xs => !xs.isEmpty
  | .object fs => !fs.isEmpty

mutual

/-- The number of levels of a value. -/
def depth : Value R → Nat
  | .list xs => depthItems xs + 1
  | .object fs => depthFields fs + 1
  | _ => 1

/-- The greatest number of levels of the items of a list. -/
def depthItems : List (Value R) → Nat
  | [] => 0
  | v :: vs => max (depth v) (depthItems vs)

/-- The greatest number of levels of the fields of an object. -/
def depthFields : List (String × Value R) → Nat
  | [] => 0
  | (_, v) :: fs => max (depth v) (depthFields fs)

end

/-- A truth value as it is shown. -/
def truthText (b : Bool) : String := if b then "True" else "False"

mutual

/-- A value as it is shown in a message, given how a measured value is shown. -/
def shown (real : R → String) : Value R → String
  | .null => "None"
  | .bool b => truthText b
  | .int n => toString n
  | .real x => real x
  | .text s => Text.quoted s
  | .list xs => "[" ++ shownItems real xs ++ "]"
  | .object fs => "\x7b" ++ shownFields real fs ++ "\x7d"

/-- The items of a list, separated by commas. -/
def shownItems (real : R → String) : List (Value R) → String
  | [] => ""
  | [v] => shown real v
  | v :: vs => shown real v ++ ", " ++ shownItems real vs

/-- The fields of an object, separated by commas. -/
def shownFields (real : R → String) : List (String × Value R) → String
  | [] => ""
  | [(k, v)] => Text.quoted k ++ ": " ++ shown real v
  | (k, v) :: fs => Text.quoted k ++ ": " ++ shown real v ++ ", " ++ shownFields real fs

end

/-- A value as it is written into a line: a text as it is, other values as they are shown. -/
def plain (real : R → String) : Value R → String
  | .text s => s
  | v => v.shown real

end Value

end Descent
