/-!
# Characters apart

Two sets of blank characters are in use: `isBlank` is every white-space character together with the
four information separators; `isNumberBlank`, without the separators, is what may surround a number.

A code of a text document may be one half of a pair of surrogates without the other, and no
character stands for it.  A run of characters that are set aside for private use is kept for these
halves, so that a text with a lone surrogate can be read, shown and written again.
-/

namespace Descent.Text

/-! ### Blanks -/

/-- Whether a character may surround a number in text. -/
def isNumberBlank (c : Char) : Bool :=
  let n := c.toNat
  (9 ≤ n && n ≤ 13) || n == 32 || n == 0x85 || n == 0xa0 || n == 0x1680 ||
    (0x2000 ≤ n && n ≤ 0x200a) || n == 0x2028 || n == 0x2029 || n == 0x202f || n == 0x205f ||
    n == 0x3000

/-- Whether a character is white space. -/
def isBlank (c : Char) : Bool := isNumberBlank c || (28 ≤ c.toNat && c.toNat ≤ 31)

/-- Characters without those at either end that satisfy `p`. -/
def stripBy (p : Char → Bool) (cs : List Char) : List Char :=
  ((cs.dropWhile p).reverse.dropWhile p).reverse

/-! ### Lone surrogates -/

/-- The first code of a half. -/
def firstHalf : Nat := 0xd800

/-- The number of halves. -/
def halfCount : Nat := 0x800

/-- The first character that is kept for a half. -/
def firstStandIn : Nat := 0x10c000

/-- The character that stands for the half of a code. -/
def ofHalf (code : Nat) : Char := Char.ofNat (firstStandIn + (code - firstHalf))

/-- The code of the half that a character stands for, if it stands for one. -/
def half? (c : Char) : Option Nat :=
  if firstStandIn ≤ c.toNat ∧ c.toNat < firstStandIn + halfCount then
    some (firstHalf + (c.toNat - firstStandIn))
  else none

end Descent.Text
