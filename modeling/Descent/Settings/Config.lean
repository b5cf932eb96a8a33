import Descent.Run.Executor
import Descent.Settings.State

/-!
# Run configurations given as values

A configuration is described by its fields; fields of other names are refused.
-/

namespace Descent.Settings

/-- Configurations over arrays of machine floats. -/
abbrev ArrayConfig := Config Float (Tensor Float)

/-- A configuration with fields replaced one after the other. -/
def configure (backend : Backend) :
    List (String × Value Float) → ArrayConfig → Except (Fault Float) ArrayConfig
  | [], c => .ok c
  | (field, v) :: rest, c => do
    let c : ArrayConfig ←
      if field == "param" then do pure { c with param := ← Tensor.ofValue? backend v }
      else if field == "max_iters" then pure { c with maxIters := v.ofSpecial }
      else if field == "target_cost" then pure { c with targetCost := v.ofSpecial }
      else .error .wrongType
    configure backend rest c

/-- A new configuration with fields given. -/
def config (backend : Backend) (v : Value Float) : Except (Fault Float) ArrayConfig :=
  configure backend (fieldsOf v) {}

end Descent.Settings
