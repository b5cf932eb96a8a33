import Descent.Decimal.Styled
import Descent.Quantity
import Descent.Machine

/-!
# Values brought into a line

A conversion says how a value is written: its flags, the least width of the text, a precision and
a letter for the kind.  Texts are cut to the precision, integers are filled up with zeros to it,
and measured values are rounded to it.  `Conversion.apply` is absent where the value is not of the
kind the letter asks for.
-/

namespace Descent.Logging

/-- How a value is written. -/
structure Conversion where
  /-- The text stands at the left of its width. -/
  left : Bool := false
  /-- A number that is not negative has a plus sign. -/
  plus : Bool := false
  /-- A number that is not negative has a blank for its sign. -/
  blank : Bool := false
  /-- The kind is shown: the base of an integer, the mark of a measured value. -/
  alternate : Bool := false
  /-- Zeros stand between the sign and the number. -/
  zeros : Bool := false
  width : Nat := 0
  precision : Option Nat := none
  letter : Char
  deriving DecidableEq, Repr

namespace Conversion

/-- A number in parts: its sign if it has one, what shows its base, and the rest. -/
structure Parts where
  sign : List Char
  base : List Char
  body : List Char
  deriving DecidableEq, Repr

/-- The sign of a number that is not negative. -/
def plainSign (c : Conversion) : List Char :=
  if c.plus then ['+'] else if c.blank then [' '] else []

/-- Text at its place within the width. -/
def placed (c : Conversion) (cs : List Char) : List Char :=
  let blanks := List.replicate (c.width - cs.length) ' '
  if c.left then cs ++ blanks else blanks ++ cs

/-- A number at its place within the width. -/
def placedNumber (c : Conversion) (p : Parts) : List Char :=
  let lead := p.sign ++ p.base
  if c.zeros && !c.left then
    lead ++ List.replicate (c.width - lead.length - p.body.length) '0' ++ p.body
  else c.placed (lead ++ p.body)

/-- The base that a letter stands for. -/
def radix (letter : Char) : Nat :=
  if letter == 'o' then 8 else if letter == 'x' || letter == 'X' then 16 else 10

/-- An integer. -/
def integer (c : Conversion) (n : Int) : List Char :=
  let ds := Nat.toDigits (radix c.letter) n.natAbs
  let ds := List.replicate (c.precision.getD 0 - ds.length) '0' ++ ds
  let ds := if c.letter == 'X' then ds.map Char.toUpper else ds
  c.placedNumber {
    sign := if n < 0 then ['-'] else c.plainSign
    base := if c.alternate && radix c.letter != 10 then ['0', c.letter] else []
    body := ds }

/-- A measured value. -/
def measured (c : Conversion) (x : Float) : List Char :=
  match (Styled.text c.letter c.alternate (c.precision.getD 6) x).toList with
  | '-' :: body => c.placedNumber ⟨['-'], [], body⟩
  | body => c.placedNumber ⟨c.plainSign, [], body⟩

/-- A text, cut to the precision. -/
def text (c : Conversion) (s : String) : List Char :=
  c.placed (match c.precision with
    | some p => s.toList.take p
    | none => s.toList)

/-- The integer that a value stands for where one is written in base ten. -/
def wholeOf? (v : Value Float) : Option Int :=
  match v.number? with
  | some (.int n) => some n
  | some (.real x) => if x.isFinite then some (Scalar.truncate x) else none
  | none => none

/-- The integer that a value is. -/
def integer? (v : Value Float) : Option Int :=
  match v.number? with
  | some (.int n) => some n
  | _ => none

/-- The character that a value is or stands for by its code. -/
def character? (v : Value Float) : Option Char :=
  match v with
  | .text s =>
    match s.toList with
    | [c] => some c
    | _ => none
  | v => do
    let n ← integer? v
    if 0 ≤ n ∧ n.toNat.isValidChar then some (Char.ofNat n.toNat) else none

/-- A value as it is written, if it is of the kind that the letter asks for. -/
def apply (c : Conversion) (v : Value Float) : Option (List Char) :=
  if c.letter == 's' then some (c.text (v.plain Binary.text))
  else if c.letter == 'r' then some (c.text (v.shown Binary.text))
  else if c.letter == 'a' then some (c.text (Text.basic (v.shown Binary.text)))
  else if ['d', 'i', 'u'].contains c.letter then (wholeOf? v).map c.integer
  else if ['o', 'x', 'X'].contains c.letter then (integer? v).map c.integer
  else if ['e', 'E', 'f', 'F', 'g', 'G'].contains c.letter then do
    let x ← (← v.number?).toReal.toOption
    return c.measured x
  else if c.letter == 'c' then (character? v).map fun ch => c.placed [ch]
  else none

end Conversion

end Descent.Logging
