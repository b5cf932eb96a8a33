import Descent.Method.Construct
import Descent.Settings.State

/-!
# Methods given as values

A method is described by its type and its named arguments, among which a component is described
in the same way; the model of a subproblem solver may be given with it.  The two plain solvers
are described by their own fields.
-/

namespace Descent.Settings

/-- Rigs over arrays of machine floats. -/
abbrev ArrayRig := Rig Float (Tensor Float) (Curvature Float)

/-- Arguments over arrays of machine floats. -/
abbrev ArrayArguments := Arguments (Tensor Float) (Curvature Float)

/-- A line of a script; a value that is no object answers with nothing. -/
def scriptLine (backend : Backend) (v : Value Float) :
    Line Float (Tensor Float) (Curvature Float) where
  assign := assignAll backend (fieldsOf (v.get "set"))
  outcome := match v, v.get "raise" with
    | .null, _ => .ok none
    | v, .null => do return some (← delta backend v)
    | _, f => .error (raising f)

/-- The items of a list. -/
def itemsOf : Value Float → List (Value Float)
  | .list vs => vs
  | _ => []

/-- A script. -/
def script (backend : Backend) (v : Value Float) :
    Except (Fault Float) (Script Float (Tensor Float) (Curvature Float)) := do
  let requires ← match v.get "requires" with
    | .null => pure [Capability.cost]
    | names => capabilities names
  return {
    name := match v.get "name" with
      | .text s => s
      | _ => "scripted"
    requires
    init := match v.get "init" with
      | .null => none
      | line => some (scriptLine backend line)
    lines := (itemsOf (v.get "deltas")).map (scriptLine backend)
    verdicts := (itemsOf (v.get "terminate")).map reason }

/-- A rig after a step on its memory. -/
def prepared (rig : ArrayRig)
    (step : Act Float (Memory Float (Tensor Float) (Curvature Float)) Unit) :
    Except (Fault Float) ArrayRig :=
  match step.run rig.memory with
  | (.ok (), memory) => .ok { rig with memory }
  | (.error f, _) => .error f

/-- A rig with the radius, gradient and Hessian that are given. -/
def withModel (backend : Backend) (v : Value Float) (rig : ArrayRig) :
    Except (Fault Float) ArrayRig := do
  let sub : Subproblem Float (Tensor Float) (Curvature Float) Unit _ := rig.method.subproblem
  let rig ← match v.field? "radius" with
    | none => pure rig
    | some r => prepared rig (do sub.setRadius (← Act.lift r.ofSpecial.toReal))
  let rig ← match v.field? "grad" with
    | none => pure rig
    | some g => prepared rig (do sub.setGrad (← Act.lift (Tensor.ofValue? backend g)))
  match v.field? "hessian" with
    | none => pure rig
    | some h => prepared rig (do sub.setHessian (← Act.lift (Curvature.ofValue? backend h)))

mutual

/-- The rig a value describes, to a depth of components. -/
def rigTo (default : Backend) : Nat → Value Float → Except (Fault Float) ArrayRig
  | 0, _ => .error .wrongValue
  | depth + 1, v => do
    let backend := backend (v.get "backend") default
    match v.get "type" with
    | .text "Halving" =>
      return ⟨.halving (v.get "stop").ofSpecial.given?, .plain⟩
    | .text "Scripted" => return ⟨.scripted (← script backend v), .position {}⟩
    | .text type =>
      match Construct.ofType? type with
      | none => .error .missingKey
      | some construct =>
        let args ← argumentsTo default depth (fieldsOf (v.get "args"))
        withModel backend v (← construct args)
    | _ => .error .missingKey

/-- Arguments by name, those that are objects being components. -/
def argumentsTo (default : Backend) :
    Nat → List (String × Value Float) → Except (Fault Float) ArrayArguments
  | 0, _ => .error .wrongValue
  | _ + 1, [] => .ok []
  | depth + 1, (name, v) :: rest => do
    let first ← if v.isObject then do pure (Argument.component (← rigTo default depth v))
      else pure (Argument.value v.ofSpecial)
    return (name, first) :: (← argumentsTo default depth rest)

end

/-- The rig a value describes. -/
def rig (default : Backend) (v : Value Float) : Except (Fault Float) ArrayRig :=
  rigTo default 1000 v

end Descent.Settings
