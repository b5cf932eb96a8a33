import Descent.Binary
import Descent.Scalar
import Descent.Text.Numeral

/-!
# Machine floats as the solvers' arithmetic

The operations are the processor's; `floor`, `ofInt?`, `ofText?` and `isMultiple` are exact
(`Binary.floor`, `Binary.ofInt?`, `Text.measured?`, `Binary.isMultiple`).
-/

namespace Descent

instance instScalarFloat : Scalar Float where
  decLt := fun x y => inferInstanceAs (Decidable (x < y))
  decLe := fun x y => inferInstanceAs (Decidable (x ≤ y))
  sqrt := Float.sqrt
  nan := 0.0 / 0.0
  inf := 1.0 / 0.0
  isNaN := Float.isNaN
  isFinite := Float.isFinite
  floor := Binary.floor
  ofInt? := Binary.ofInt?
  ofText? := Text.measured?
  isMultiple := Binary.isMultiple

instance instElementaryFloat : Elementary Float where
  exp := Float.exp
  log := Float.log
  cos := Float.cos
  sin := Float.sin

end Descent
