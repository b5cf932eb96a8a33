import Descent.Act
import Descent.Decimal.Layout
import Descent.Text.Numeral

/-!
# Writing JSON

`Json.print` is the text of a document on one line, or with each item on a line of its own and
indented.  Characters beyond the basic printable ones are written by their codes, so the text is
ASCII.  Strict writing (`Json.printStrict`) refuses numbers that are not finite.

`Json.stream` writes a document after what is there already, one piece after the other, so that a
value that is refused leaves what was written before it.  Refused are measured values that are not
finite and integers of more digits than the reader takes.  What opens a list, or stands before an
item of it, is one piece with an item that is no list and no object: such an item that is refused is
refused with it.  What opens an object, and the keys, are pieces of their own.
-/

namespace Descent.Json

/-- A character by its code. -/
def codeText (code : Nat) : List Char :=
  let ds := Nat.toDigits 16 code
  ['\\', 'u'] ++ List.replicate (4 - ds.length) '0' ++ ds

/-- A character as it stands in a string. -/
def charText (c : Char) : List Char :=
  if c == '"' then ['\\', '"']
  else if c == '\\' then ['\\', '\\']
  else if c == '\n' then ['\\', 'n']
  else if c == '\r' then ['\\', 'r']
  else if c == '\t' then ['\\', 't']
  else if c.toNat == 8 then ['\\', 'b']
  else if c.toNat == 12 then ['\\', 'f']
  else if 32 ≤ c.toNat && c.toNat ≤ 126 then [c]
  else if c.toNat < 0x10000 then codeText c.toNat
  else
    match Text.half? c with
    | some code => codeText code
    | none =>
      let n := c.toNat - 0x10000
      codeText (0xd800 + n / 0x400) ++ codeText (0xdc00 + n % 0x400)

/-- A string. -/
def stringText (s : String) : String :=
  String.ofList ('"' :: s.toList.flatMap charText ++ ['"'])

/-- A measured value; those that are not finite are words. -/
def realText (x : Float) : String :=
  if x.isNaN then "NaN"
  else if x.isFinite then Binary.text x
  else if x < 0.0 then "-Infinity" else "Infinity"

/-- What separates items: they stand on one line, or on lines of their own with a unit of
indentation for each level. -/
inductive Layout where
  | line
  | indented (unit : String)
  deriving DecidableEq, Repr

namespace Layout

/-- The layout with a number of blanks for each level. -/
def blanks (width : Int) : Layout := indented (String.ofList (List.replicate width.toNat ' '))

/-- The layout that an indentation stands for: a number of blanks, a text, or none. -/
def ofIndent (indent : Value Float) : Except (Fault Float) Layout :=
  match indent, indent.number? with
  | .null, _ => .ok line
  | .text unit, _ => .ok (indented unit)
  | _, some (.int n) => .ok (blanks n)
  | _, _ => .error .wrongType

/-- The break before an item at a depth. -/
def lead (layout : Layout) (depth : Nat) : String :=
  match layout with
  | line => ""
  | indented unit => "\n" ++ String.join (List.replicate depth unit)

/-- The break between two items at a depth. -/
def separator (layout : Layout) (depth : Nat) : String :=
  match layout with
  | line => ", "
  | indented _ => "," ++ layout.lead depth

end Layout

mutual

/-- A value at a depth. -/
def print (layout : Layout) (depth : Nat) : Value Float → String
  | .null => "null"
  | .bool b => if b then "true" else "false"
  | .int n => toString n
  | .real x => realText x
  | .text s => stringText s
  | .list [] => "[]"
  | .list vs =>
    "[" ++ layout.lead (depth + 1) ++ printItems layout (depth + 1) vs ++ layout.lead depth ++ "]"
  | .object [] => "\x7b\x7d"
  | .object fs =>
    "\x7b" ++ layout.lead (depth + 1) ++ printFields layout (depth + 1) fs ++ layout.lead depth ++
      "\x7d"

/-- The items of a list. -/
def printItems (layout : Layout) (depth : Nat) : List (Value Float) → String
  | [] => ""
  | [v] => print layout depth v
  | v :: vs => print layout depth v ++ layout.separator depth ++ printItems layout depth vs

/-- The fields of an object. -/
def printFields (layout : Layout) (depth : Nat) : List (String × Value Float) → String
  | [] => ""
  | [(k, v)] => stringText k ++ ": " ++ print layout depth v
  | (k, v) :: fs =>
    stringText k ++ ": " ++ print layout depth v ++ layout.separator depth ++
      printFields layout depth fs

end

mutual

/-- Whether every measured value in a document is finite. -/
def isStrict : Value Float → Bool
  | .real x => x.isFinite
  | .list vs => areStrict vs
  | .object fs => fieldsStrict fs
  | _ => true

/-- Whether every measured value in the items is finite. -/
def areStrict : List (Value Float) → Bool
  | [] => true
  | v :: vs => isStrict v && areStrict vs

/-- Whether every measured value in the fields is finite. -/
def fieldsStrict : List (String × Value Float) → Bool
  | [] => true
  | (_, v) :: fs => isStrict v && fieldsStrict fs

end

/-- A document as text, refused if it holds a number that is not finite. -/
def printStrict (layout : Layout) (v : Value Float) : Except (Fault Float) String :=
  if isStrict v then .ok (print layout 0 v) else .error .wrongValue

/-! ### Piece by piece -/

/-- Write a text after what is there. -/
def emit (text : String) : Act Float String Unit := modify (· ++ text)

/-- The text of a value that is no list and no object, if it is not refused. -/
def scalarText : Value Float → Except (Fault Float) String
  | .int n =>
    if Text.maxDigits < (Nat.toDigits 10 n.natAbs).length then .error .wrongValue
    else .ok (toString n)
  | .real x => if x.isFinite then .ok (realText x) else .error .wrongValue
  | v => .ok (print .line 0 v)

mutual

/-- Write a value at a depth, and before it what is still to be written. -/
def stream (layout : Layout) (depth : Nat) (before : String) :
    Value Float → Act Float String Unit
  | .list [] => emit (before ++ "[]")
  | .list vs => do
    emit before
    streamItems layout (depth + 1) ("[" ++ layout.lead (depth + 1)) vs
    emit (layout.lead depth ++ "]")
  | .object [] => emit (before ++ "\x7b\x7d")
  | .object fs => do
    emit (before ++ "\x7b" ++ layout.lead (depth + 1))
    streamFields layout (depth + 1) "" fs
    emit (layout.lead depth ++ "\x7d")
  | v => do
    let text ← Act.lift (scalarText v)
    emit (before ++ text)

/-- Write the items of a list. -/
def streamItems (layout : Layout) (depth : Nat) (before : String) :
    List (Value Float) → Act Float String Unit
  | [] => pure ()
  | v :: vs => do
    stream layout depth before v
    streamItems layout depth (layout.separator depth) vs

/-- Write the fields of an object. -/
def streamFields (layout : Layout) (depth : Nat) (before : String) :
    List (String × Value Float) → Act Float String Unit
  | [] => pure ()
  | (k, v) :: fs => do
    emit (before ++ stringText k ++ ": ")
    stream layout depth "" v
    streamFields layout depth (layout.separator depth) fs

end

/-- A document as text, if no value of it is refused. -/
def printed (layout : Layout) (v : Value Float) : Except (Fault Float) String :=
  ((do stream layout 0 "" v; get : Act Float String String).run "").1

end Descent.Json
