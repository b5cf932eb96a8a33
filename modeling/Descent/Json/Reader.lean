import Descent.Fault
import Descent.Text.Character
import Descent.Text.Numeral

/-!
# Reading JSON

`Json.read` accepts the usual grammar together with the words `NaN`, `Infinity` and `-Infinity`.
A number without fraction and exponent is an integer of any size; of several fields of one name
the last counts, in the place of the first.  A text that begins with a byte-order mark is refused.

Reading is by descent with a budget of one step for every character and every level, which no
text can exceed.
-/

namespace Descent.Json

/-- A document. -/
abbrev Document := Value Float

/-- Whether a character may stand between the tokens of a document. -/
def isSpace (c : Char) : Bool := c == ' ' || c == '\t' || c == '\n' || c == '\r'

/-- The text after leading space. -/
def skip (cs : List Char) : List Char := cs.dropWhile isSpace

/-- The value of a hexadecimal digit. -/
def hexValue? (c : Char) : Option Nat :=
  let n := c.toNat
  if 48 ≤ n && n ≤ 57 then some (n - 48)
  else if 97 ≤ n && n ≤ 102 then some (n - 87)
  else if 65 ≤ n && n ≤ 70 then some (n - 55)
  else none

/-- Four hexadecimal digits. -/
def hexFour : List Char → Except (Fault Float) (Nat × List Char)
  | a :: b :: c :: d :: rest =>
    match hexValue? a, hexValue? b, hexValue? c, hexValue? d with
    | some a, some b, some c, some d => .ok (((a * 16 + b) * 16 + c) * 16 + d, rest)
    | _, _, _, _ => .error .malformedText
  | _ => .error .malformedText

/-- The character of the code that follows `\u`, two codes making one character where they are a
pair of surrogates; a lone one has a character to stand for it. -/
def codeEscape (cs : List Char) : Except (Fault Float) (Char × List Char) := do
  let (high, rest) ← hexFour cs
  if 0xd800 ≤ high && high ≤ 0xdbff then
    match rest with
    | '\\' :: 'u' :: more =>
      match hexFour more with
      | .ok (low, after) =>
        if 0xdc00 ≤ low && low ≤ 0xdfff then
          return (Char.ofNat (0x10000 + (high - 0xd800) * 0x400 + (low - 0xdc00)), after)
        else return (Text.ofHalf high, rest)
      | .error f => .error f
    | _ => return (Text.ofHalf high, rest)
  else if 0xdc00 ≤ high && high ≤ 0xdfff then return (Text.ofHalf high, rest)
  else return (Char.ofNat high, rest)

/-- The character that an escape of one letter stands for. -/
def letterEscape? (c : Char) : Option Char :=
  if c == '"' then some '"'
  else if c == '\\' then some '\\'
  else if c == '/' then some '/'
  else if c == 'b' then some (Char.ofNat 8)
  else if c == 'f' then some (Char.ofNat 12)
  else if c == 'n' then some '\n'
  else if c == 'r' then some '\r'
  else if c == 't' then some '\t'
  else none

/-- The characters of a string up to its closing quote, put before those read so far in
reverse. -/
def stringTail : Nat → List Char → List Char → Except (Fault Float) (String × List Char)
  | 0, _, _ => .error .malformedText
  | fuel + 1, acc, cs =>
    match cs with
    | [] => .error .malformedText
    | '"' :: rest => .ok (String.ofList acc.reverse, rest)
    | '\\' :: 'u' :: rest => do
      let (c, rest) ← codeEscape rest
      stringTail fuel (c :: acc) rest
    | '\\' :: e :: rest =>
      match letterEscape? e with
      | some c => stringTail fuel (c :: acc) rest
      | none => .error .malformedText
    | c :: rest =>
      if c.toNat < 32 || c == '\\' then .error .malformedText else stringTail fuel (c :: acc) rest

/-- A string after its opening quote. -/
def string (cs : List Char) : Except (Fault Float) (String × List Char) :=
  stringTail (cs.length + 1) [] cs

/-- Digits and what follows them. -/
def digits (cs : List Char) : List Char × List Char :=
  (cs.takeWhile Text.isDigit, cs.dropWhile Text.isDigit)

/-- The fraction of a number, if there is a whole one. -/
def fraction (cs : List Char) : List Char × List Char :=
  match cs with
  | '.' :: rest =>
    let (ds, after) := digits rest
    if ds.isEmpty then ([], cs) else (ds, after)
  | _ => ([], cs)

/-- The exponent of a number, if there is a whole one. -/
def exponent (cs : List Char) : Option Int × List Char :=
  match cs with
  | e :: rest =>
    if e == 'e' || e == 'E' then
      let (negative, signless) := Text.sign rest
      let (ds, after) := digits signless
      if ds.isEmpty then (none, cs)
      else
        let n : Int := Decimal.ofDigits (ds.map Text.digitValue)
        (some (if negative then -n else n), after)
    else (none, cs)
  | [] => (none, [])

/-- A number with its sign removed. -/
def unsignedNumber (negative : Bool) (cs : List Char) :
    Except (Fault Float) (Document × List Char) :=
  let (whole, rest) := match cs with
    | '0' :: rest => (['0'], rest)
    | cs => digits cs
  if whole.isEmpty then .error .malformedText
  else
    let (part, rest) := fraction rest
    let (power, rest) := exponent rest
    let n := Decimal.ofDigits ((whole ++ part).map Text.digitValue)
    if part.isEmpty && power.isNone then
      if Text.maxDigits < whole.length then .error .wrongValue
      else .ok (.int (if negative then -(n : Int) else n), rest)
    else
      .ok (.real (Decimal.Literal.value ⟨negative, n, power.getD 0 - part.length⟩), rest)

/-- What follows a word, if the text begins with it. -/
def word? (word : String) (cs : List Char) : Option (List Char) :=
  if word.toList.isPrefixOf cs then some (cs.drop word.length) else none

/-- The words of the grammar and their values. -/
def words : List (String × Document) :=
  [("null", .null), ("true", .bool true), ("false", .bool false), ("NaN", .real (0.0 / 0.0)),
    ("Infinity", .real (1.0 / 0.0)), ("-Infinity", .real (-(1.0 / 0.0)))]

/-- A word or a number. -/
def scalar (cs : List Char) : Except (Fault Float) (Document × List Char) :=
  match words.findSome? (fun w => (word? w.1 cs).map fun rest => (w.2, rest)) with
  | some found => .ok found
  | none =>
    match cs with
    | '-' :: rest => unsignedNumber true rest
    | _ => unsignedNumber false cs

mutual

/-- A value, after leading space. -/
def value : Nat → List Char → Except (Fault Float) (Document × List Char)
  | 0, _ => .error .malformedText
  | fuel + 1, cs =>
    match cs with
    | '"' :: rest => do
      let (s, rest) ← string rest
      return (.text s, rest)
    | '[' :: rest =>
      match skip rest with
      | ']' :: rest => .ok (.list [], rest)
      | rest => items fuel [] rest
    | '\x7b' :: rest =>
      match skip rest with
      | '\x7d' :: rest => .ok (.object [], rest)
      | rest => fields fuel [] rest
    | cs => scalar cs

/-- The items of a list from the next one on, those read so far in reverse. -/
def items : Nat → List Document → List Char → Except (Fault Float) (Document × List Char)
  | 0, _, _ => .error .malformedText
  | fuel + 1, acc, cs => do
    let (v, rest) ← value fuel cs
    match skip rest with
    | ',' :: rest => items fuel (v :: acc) (skip rest)
    | ']' :: rest => return (.list (v :: acc).reverse, rest)
    | _ => .error .malformedText

/-- The fields of an object from the next one on, after those read so far. -/
def fields :
    Nat → List (String × Document) → List Char → Except (Fault Float) (Document × List Char)
  | 0, _, _ => .error .malformedText
  | fuel + 1, acc, cs =>
    match cs with
    | '"' :: rest => do
      let (key, rest) ← string rest
      match skip rest with
      | ':' :: rest =>
        let (v, rest) ← value fuel (skip rest)
        let acc := Value.insert key v acc
        match skip rest with
        | ',' :: rest => fields fuel acc (skip rest)
        | '\x7d' :: rest => return (.object acc, rest)
        | _ => .error .malformedText
      | _ => .error .malformedText
    | _ => .error .malformedText

end

/-- The document a text holds. -/
def read (text : String) : Except (Fault Float) Document := do
  let cs := text.toList
  if cs.head? = some (Char.ofNat 0xfeff) then throw .malformedText
  let (v, rest) ← value (2 * cs.length + 2) (skip cs)
  if (skip rest).isEmpty then return v else throw .malformedText

end Descent.Json
