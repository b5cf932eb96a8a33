import Descent.Decimal.Significant
import Descent.Text.Character

/-!
# Numbers written as text

`Decimal.Literal` is a decimal as written: digits and a power of ten.  It may be as long and as
far out of range as its author likes; `Decimal.Literal.value` first decides whether it can matter
at all, and only then rounds, exactly, once.

`Text.measured?` reads a number with optional sign, fraction and exponent, or one of the words
`inf`, `infinity` and `nan` in any case; `Text.whole?` reads an integer.  Blanks may surround the
number, single underscores may separate digits, and the digits may be those of any script: every
script's digits are ten consecutive characters, and `Text.zeroDigits` lists the first of each.
-/

namespace Descent.Decimal

/-- A written decimal `± digits * 10 ^ exponent`. -/
structure Literal where
  negative : Bool
  digits : Nat
  exponent : Int
  deriving DecidableEq, Repr

/-- The machine float nearest to a written decimal. -/
def Literal.value (l : Literal) : Float :=
  if l.digits = 0 then (if l.negative then -0.0 else 0.0)
  else
    let lead := l.exponent + length l.digits
    if 400 < lead then Binary.infinite l.negative
    else if lead < -400 then (if l.negative then -0.0 else 0.0)
    else
      let d : Decimal := ⟨l.digits, l.exponent⟩
      Binary.ofRatio l.negative d.numerator d.denominator

/-- The number written by decimal digits, most significant first. -/
def ofDigits (ds : List Nat) : Nat := ds.foldl (fun n d => 10 * n + d) 0

end Descent.Decimal

namespace Descent.Text

/-! ### Digits of all scripts -/

/-- The code points of the digit zero, in ascending order. -/
def zeroDigits : List Nat := [
  48, 1632, 1776, 1984, 2406, 2534, 2662, 2790, 2918, 3046, 3174, 3302, 3430, 3558, 3664, 3792,
  3872, 4160, 4240, 6112, 6160, 6470, 6608, 6784, 6800, 6992, 7088, 7232, 7248, 42528, 43216,
  43264, 43472, 43504, 43600, 44016, 65296, 66720, 68912, 69734, 69872, 69942, 70096, 70384,
  70736, 70864, 71248, 71360, 71472, 71904, 72016, 72784, 73040, 73120, 92768, 92864, 93008,
  120782, 120792, 120802, 120812, 120822, 123200, 123632, 125264, 130032]

/-- The value of a code point as a digit of the scripts whose zeros are listed. -/
def digitIn (code : Nat) : List Nat → Option Nat
  | [] => none
  | first :: rest =>
    if code < first then none
    else if code < first + 10 then some (code - first)
    else digitIn code rest

/-- The value of a decimal digit. -/
def decimalDigit? (c : Char) : Option Nat := digitIn c.toNat zeroDigits

/-! ### Numbers -/

/-- A text in which other scripts' digits and blanks are replaced by the basic ones; absent if it
holds other characters beyond the basic ones. -/
def basic? (cs : List Char) : Option (List Char) :=
  if cs.all (·.toNat < 128) then some cs
  else cs.mapM fun c =>
    if c.toNat < 127 then some c
    else if isNumberBlank c then some ' '
    else (decimalDigit? c).map fun d => Char.ofNat (48 + d)

/-- Whether a character is one of the basic digits. -/
def isDigit (c : Char) : Bool := 48 ≤ c.toNat && c.toNat ≤ 57

/-- The value of a basic digit. -/
def digitValue (c : Char) : Nat := c.toNat - 48

/-- A text without its underscores, each of which must stand between two digits. -/
def dropUnderscores : Bool → List Char → Option (List Char)
  | _, [] => some []
  | afterDigit, '_' :: rest =>
    match rest with
    | c :: _ => if afterDigit && isDigit c then dropUnderscores false rest else none
    | [] => none
  | _, c :: rest => (dropUnderscores (isDigit c) rest).map (c :: ·)

/-- A sign and what follows it. -/
def sign : List Char → Bool × List Char
  | '-' :: rest => (true, rest)
  | '+' :: rest => (false, rest)
  | cs => (false, cs)

/-- The number of an exponent, the empty text being none. -/
def exponent? : List Char → Option Int
  | [] => some 0
  | e :: rest =>
    if e == 'e' || e == 'E' then
      let (negative, ds) := sign rest
      if ds.isEmpty || !ds.all isDigit then none
      else
        let n : Int := Decimal.ofDigits (ds.map digitValue)
        some (if negative then -n else n)
    else none

/-- The number of digits with an optional fraction and exponent. -/
def unsigned? (negative : Bool) (cs : List Char) : Option Decimal.Literal :=
  let before := cs.takeWhile isDigit
  let rest := cs.dropWhile isDigit
  let (after, rest) := match rest with
    | '.' :: rest => (rest.takeWhile isDigit, rest.dropWhile isDigit)
    | rest => ([], rest)
  let ds := before ++ after
  if ds.isEmpty then none
  else (exponent? rest).map fun e =>
    ⟨negative, Decimal.ofDigits (ds.map digitValue), e - after.length⟩

/-- A text without the blanks around it, in basic characters and without underscores. -/
def prepared? (s : String) : Option (List Char) := do
  let cs ← basic? s.toList
  dropUnderscores false (stripBy isNumberBlank cs)

/-- The measured value a text stands for. -/
def measured? (s : String) : Option Float := do
  let cs ← prepared? s
  let (negative, body) := sign cs
  let word := String.ofList (body.map Char.toLower)
  if word == "inf" || word == "infinity" then some (Binary.infinite negative)
  else if word == "nan" then some (0.0 / 0.0)
  else (unsigned? negative body).map Decimal.Literal.value

/-- No integer is read from more digits than this. -/
def maxDigits : Nat := 4300

/-- The integer a text stands for. -/
def whole? (s : String) : Option Int := do
  let cs ← prepared? s
  let (negative, ds) := sign cs
  if ds.isEmpty || !ds.all isDigit || maxDigits < ds.length then none
  else
    let n : Int := Decimal.ofDigits (ds.map digitValue)
    some (if negative then -n else n)

end Descent.Text
