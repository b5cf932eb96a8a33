import Descent.Text.Character
import Descent.Text.Printable

/-!
# Quoted text

`Text.quoted` shows a text in a message: in single quotes, unless it holds one and no double
quote; characters that would not show are written by their code.
-/

namespace Descent.Text

/-- A number in hexadecimal with at least `width` digits. -/
def hex (width n : Nat) : List Char :=
  let ds := Nat.toDigits 16 n
  List.replicate (width - ds.length) '0' ++ ds

/-- A character written by its code. -/
def escaped (c : Char) : List Char :=
  let code := (half? c).getD c.toNat
  if code < 0x100 then ['\\', 'x'] ++ hex 2 code
  else if code < 0x10000 then ['\\', 'u'] ++ hex 4 code
  else ['\\', 'U'] ++ hex 8 code

/-- A character as it stands between the quotes `q`. -/
def quotedChar (q c : Char) : List Char :=
  if c == q || c == '\\' then ['\\', c]
  else if c == '\n' then ['\\', 'n']
  else if c == '\r' then ['\\', 'r']
  else if c == '\t' then ['\\', 't']
  else if isPrintable c then [c]
  else escaped c

/-- A text in quotes. -/
def quoted (s : String) : String :=
  let cs := s.toList
  let q := if cs.contains '\'' && !cs.contains '"' then '"' else '\''
  String.ofList (q :: cs.flatMap (quotedChar q) ++ [q])

/-- A character as it stands in a text of basic characters only: others are written by their
code. -/
def basicChar (c : Char) : List Char := if c.toNat < 0x80 then [c] else escaped c

/-- A text with its characters that are not basic ones written by their code. -/
def basic (s : String) : String := String.ofList (s.toList.flatMap basicChar)

end Descent.Text
