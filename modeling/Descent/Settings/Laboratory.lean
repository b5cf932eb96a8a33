import Descent.Objective.Laboratory
import Descent.Settings.State

/-!
# Objectives given as values

An objective is described by its parts, and an operator made of it by the evaluations that exist,
what is planted at which calls, and whether it is a problem with some derivatives approximated.
-/

namespace Descent.Settings

/-- A measured value. -/
def real (v : Value Float) : Except (Fault Float) Float := v.ofSpecial.toReal

/-- The items of a list that must be one. -/
def listOf : Value Float → Except (Fault Float) (List (Value Float))
  | .list vs => .ok vs
  | _ => .error .wrongType

/-- A constant of a part. -/
def constant (v : Value Float) : Except (Fault Float) (Number Float) := v.ofSpecial.toNumber

/-- A list of constants. -/
def constants (v : Value Float) : Except (Fault Float) (List (Number Float)) := do
  (← listOf v).mapM constant

/-- A field that must be given. -/
def demand (key : String) (v : Value Float) : Except (Fault Float) (Value Float) :=
  match v.field? key with
  | some v => .ok v
  | none => .error .missingKey

/-- A constant of a part, with a default where its field is not given. -/
def constantOr (default : Float) (key : String) (v : Value Float) :
    Except (Fault Float) (Number Float) :=
  match v.field? key with
  | some v => constant v
  | none => .ok (.real default)

/-- A position or a call. -/
def integer (v : Value Float) : Except (Fault Float) Int :=
  match v.number? with
  | some (.int n) => .ok n
  | _ => .error .wrongType

/-- A quadratic. -/
def quadratic (v : Value Float) : Except (Fault Float) (Objective.Quadratic Float) := do
  return ⟨← (← listOf (← demand "A" v)).mapM constants, ← constants (← demand "b" v),
    ← constantOr 0.0 "c" v⟩

/-- A valley. -/
def rosenbrock (v : Value Float) : Except (Fault Float) (Objective.Rosenbrock Float) := do
  return ⟨← constantOr 1.0 "a" v, ← constantOr 100.0 "b" v⟩

/-- A monomial. -/
def monomial (v : Value Float) : Except (Fault Float) (Objective.Monomial Float) := do
  match ← listOf v with
  | [c, es] => return ⟨← constant c, ← (← listOf es).mapM (·.toNumber)⟩
  | _ => .error .wrongValue

/-- A function of one coordinate with a rate. -/
def ripple (v : Value Float) : Except (Fault Float) (Objective.Ripple Float) := do
  match ← listOf v with
  | [a, i, w] => return ⟨← constant a, ← integer i, ← constant w⟩
  | _ => .error .wrongValue

/-- A function of one coordinate without a rate. -/
def logarithm (v : Value Float) : Except (Fault Float) (Objective.Ripple Float) := do
  match ← listOf v with
  | [a, i] => return ⟨← constant a, ← integer i, .int 1⟩
  | _ => .error .wrongValue

/-- A part that may be absent. -/
def part {α : Type} (v : Value Float) (read : Value Float → Except (Fault Float) α) :
    Except (Fault Float) (Option α) :=
  match v with
  | .null => .ok none
  | v => do return some (← read v)

/-- Parts of one kind, none where nothing is given. -/
def parts {α : Type} (v : Value Float) (read : Value Float → Except (Fault Float) α) :
    Except (Fault Float) (List α) :=
  match v with
  | .null => .ok []
  | v => do (← listOf v).mapM read

/-- An objective. -/
def objective (v : Value Float) : Except (Fault Float) (Objective Float) := do
  return {
    quadratic := ← part (v.get "quad") quadratic
    rosenbrock := ← part (v.get "rosen") rosenbrock
    monomials := ← parts (v.get "poly") monomial
    waves := ← parts (v.get "cos") ripple
    exponentials := ← parts (v.get "exp") ripple
    logarithms := ← parts (v.get "log") logarithm }

/-- What is planted at the calls of one evaluation; an answer that cannot be read is refused at
its call. -/
def plan {α : Type} (faults : List (Value Float)) (c : Capability)
    (read : Value Float → Except (Fault Float) α) : Except (Fault Float) (Plan Float α) := do
  let mine := faults.filter fun f =>
    match f.get "on" with
    | .text s => s == c.label
    | _ => false
  mine.mapM fun f => do
    let call ← integer (f.get "call")
    return (call, match f.get "raise" with
      | .null => read (f.get "value")
      | r => .error (raising r))

/-- The laboratory a value describes. -/
def laboratory (default : Backend) (v : Value Float) :
    Except (Fault Float) (Laboratory Float) := do
  let backend := backend (v.get "backend") default
  let faults ← parts (v.get "faults") fun f => .ok f
  return {
    objective := objective v
    backend
    label := match v.get "name" with
      | .text s => s
      | _ => "Operator"
    offered := (← part (v.get "caps") capabilities).getD Capability.all
    declared := ← part (v.get "declare") capabilities
    products := (v.get "hvp").isTruthy
    costs := ← plan faults .cost fun v => .ok v.ofSpecial
    gradients := ← plan faults .gradient (Tensor.ofValue? backend)
    hessians := ← plan faults .hessian (Curvature.ofValue? backend) }

/-- The operator a value describes; without a value it is the empty sum. -/
def operator (default : Backend) (v : Value Float) :
    Except (Fault Float) (Operator Float (Tensor Float) (Curvature Float) (Record Float)) := do
  let lab ← laboratory default v
  match v.get "problem" with
  | .null => return lab.operator
  | form =>
    return lab.problem {
      gradient := (form.get "grad").isTruthy
      hessian := (form.get "hess").isTruthy
      finiteDifferences := (form.get "finite_diff").isTruthy }

end Descent.Settings
