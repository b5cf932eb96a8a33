import Descent.Act
import Descent.Convert
import Descent.Solver.Basic
import Descent.Tensor.Basic
import Descent.Text.Character

/-!
# Debug mode

While debug mode is on, runs check the invariants of their state.  It starts as the environment
says, and `Debug.within` sets it for the length of a block, whatever comes of the block.
-/

namespace Descent

namespace Debug

/-- The texts that turn debug mode on. -/
def affirmative : List String := ["1", "true", "yes", "on"]

/-- Whether the environment's text turns debug mode on. -/
def enabledBy (environment : Option String) : Bool :=
  let cs := (environment.getD "").toList
  affirmative.contains (String.ofList ((Text.stripBy Text.isBlank cs).map Char.toLower))

/-- Turn debug mode on or off. -/
def set {R : Type} (enabled : Bool) : Act R Bool Unit := MonadStateOf.set enabled

/-- A block with debug mode set, and as it was before afterwards. -/
def within {R α : Type} (enabled : Bool) (block : Act R Bool α) : Act R Bool α :=
  Act.of fun previous =>
    let (r, _) := block.run enabled
    (r, previous)

end Debug

/-- The refusal of a number that is not finite; an integer must not be too large to be told. -/
def Number.check (n : Number Float) (what : String) : Except (Fault Float) Unit := do
  let x ← n.toReal
  if x.isFinite then return else throw (.notFinite what (some n))

end Descent
