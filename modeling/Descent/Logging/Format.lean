import Descent.Logging.Conversion
import Descent.Text.Alphanumeric
import Descent.Text.Numeral

/-!
# Formats of log lines

A format is text with fields such as `%(message)s`: a name in parentheses, flags, a width, a
precision and a letter for the kind.  `Format.isValid` asks for at least one thing that looks like
a field; `Format.apply` fills the fields in, and is absent where one of them is no field after
all, has an unknown name or does not suit its value.
-/

namespace Descent.Logging.Format

/-! ### What looks like a field -/

/-- Whether a character is a flag. -/
def isFlag (c : Char) : Bool := ['#', '0', '+', ' ', '-'].contains c

/-- The letters that end a field, in either case, with the letters beyond the basic ones that have
the same capitals. -/
def letters : List Char :=
  "diouxefgcrsa%DIOUXEFGCRSA".toList ++ [Char.ofNat 0x130, Char.ofNat 0x131, Char.ofNat 0x17f]

/-- Whether a character is a decimal digit of any script. -/
def isDigit (c : Char) : Bool := (Text.decimalDigit? c).isSome

/-- What follows a star or a row of digits, if there is one. -/
def afterCount? : List Char → Option (List Char)
  | '*' :: rest => some rest
  | c :: rest => if isDigit c then some (rest.dropWhile isDigit) else none
  | [] => none

/-- Whether what follows the flags of a field ends it: a width and a precision, each of which may
be left out, and a letter. -/
def endsField (cs : List Char) : Bool :=
  let rest := (afterCount? cs).getD cs
  let rest := match rest with
    | '.' :: more => (afterCount? more).getD rest
    | rest => rest
  match rest with
  | c :: _ => letters.contains c
  | [] => false

/-- Whether what follows a percent sign looks like a field. -/
def looksLikeField : List Char → Bool
  | '(' :: rest =>
    match rest.takeWhile Text.isWordChar, rest.dropWhile Text.isWordChar with
    | _ :: _, ')' :: tail => endsField (tail.dropWhile isFlag)
    | _, _ => false
  | _ => false

/-- Whether something in a text looks like a field. -/
def hasField : List Char → Bool
  | [] => false
  | '%' :: rest => looksLikeField rest || hasField rest
  | _ :: rest => hasField rest

/-- Whether a format is one that can be used. -/
def isValid (format : String) : Bool := hasField format.toList

/-! ### Fields filled in -/

/-- The name in parentheses that a text after its opening parenthesis begins with, and what follows
it; parentheses within the name are balanced. -/
def name? : Nat → List Char → Option (List Char × List Char)
  | _, [] => none
  | depth, c :: rest =>
    if c == ')' && depth == 0 then some ([], rest)
    else
      let depth := if c == '(' then depth + 1 else if c == ')' then depth - 1 else depth
      (name? depth rest).map fun (cs, tail) => (c :: cs, tail)

/-- The number that basic digits begin a text with, and what follows them. -/
def count (cs : List Char) : Nat × List Char :=
  (Decimal.ofDigits ((cs.takeWhile Text.isDigit).map Text.digitValue), cs.dropWhile Text.isDigit)

/-- The conversion that follows a name, and what follows it. -/
def conversion? (cs : List Char) : Option (Conversion × List Char) :=
  let flags := cs.takeWhile isFlag
  let (width, rest) := count (cs.dropWhile isFlag)
  let (precision, rest) := match rest with
    | '.' :: more => ((some (count more).1 : Option Nat), (count more).2)
    | rest => (none, rest)
  let rest := match rest with
    | c :: more => if ['h', 'l', 'L'].contains c then more else rest
    | [] => []
  match rest with
  | [] => none
  | letter :: rest =>
    some ({
      left := flags.contains '-'
      plus := flags.contains '+'
      blank := flags.contains ' '
      alternate := flags.contains '#'
      zeros := flags.contains '0'
      width, precision, letter }, rest)

/-- A field after its percent sign filled in, and what follows it. -/
def fill (items : List (String × Value Float)) : List Char → Option (List Char × List Char)
  | '(' :: rest => do
    let (name, rest) ← name? 0 rest
    let item ← List.lookup (String.ofList name) items
    let (conversion, rest) ← conversion? rest
    return (← conversion.apply item, rest)
  | _ => none

/-- A format with its fields filled in, if they all can be; `fuel` is the length of the text. -/
def applyTo (items : List (String × Value Float)) : Nat → List Char → Option (List Char)
  | _, [] => some []
  | 0, _ => none
  | fuel + 1, '%' :: rest =>
    match rest with
    | '%' :: rest => (applyTo items fuel rest).map ('%' :: ·)
    | _ => do
      let (cs, rest) ← fill items rest
      return cs ++ (← applyTo items fuel rest)
  | fuel + 1, c :: rest => (applyTo items fuel rest).map (c :: ·)

/-- A format with its fields filled in, if they all can be. -/
def apply (format : String) (items : List (String × Value Float)) : Option String :=
  (applyTo items (format.length + 1) format.toList).map String.ofList

end Descent.Logging.Format
