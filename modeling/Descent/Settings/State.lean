import Descent.Fault.Message
import Descent.Operator.Basic
import Descent.State
import Descent.Tensor.OfValue

/-!
# States and deltas given as values

A state is described by its fields, each of which may be left at its default, and a delta by what
it changes.  The words for values that are not finite stand for them wherever a number may.
-/

namespace Descent

/-- States over arrays of machine floats. -/
abbrev ArrayState := State Float (Tensor Float) (Curvature Float)

/-- Deltas over arrays of machine floats. -/
abbrev ArrayDelta := Delta Float (Tensor Float) (Curvature Float)

namespace Settings

/-- A reason given by its label. -/
def reason (v : Value Float) : Except (Fault Float) Reason :=
  let found := match v with
    | .text s => Reason.ofLabel? s
    | _ => none
  match found with
  | some r => .ok r
  | none => .error (.wrongValue (.notReason v))

/-- Diagnostics by name. -/
def diagnostics : Value Float → List (String × Value Float)
  | .object fields => fields.map fun f => (f.1, f.2.ofSpecial)
  | _ => []

/-- A state with one field replaced; absent if there is no field of that name. -/
def assign? (backend : Backend) (field : String) (v : Value Float) (s : ArrayState) :
    Option (Except (Fault Float) ArrayState) :=
  let vector := Tensor.ofValue? backend v
  let quantity := v.ofSpecial
  if field == "param" then some (do return { s with param := ← vector })
  else if field == "prev_param" then some (do return { s with prevParam := ← vector })
  else if field == "best_param" then some (do return { s with bestParam := ← vector })
  else if field == "grad" then some (do return { s with grad := ← vector })
  else if field == "hessian" then
    some (do return { s with hessian := ← Curvature.ofValue? backend v })
  else if field == "termination_reason" then some (do return { s with reason := ← reason v })
  else if field == "cost" then some (.ok { s with cost := quantity })
  else if field == "prev_cost" then some (.ok { s with prevCost := quantity })
  else if field == "best_cost" then some (.ok { s with bestCost := quantity })
  else if field == "prev_best_cost" then some (.ok { s with prevBestCost := quantity })
  else if field == "target_cost" then some (.ok { s with targetCost := quantity })
  else if field == "last_best_iter" then some (.ok { s with lastBestIter := quantity })
  else if field == "cur_iter" then some (.ok { s with curIter := quantity })
  else if field == "max_iters" then some (.ok { s with maxIters := quantity })
  else if field == "time" then some (.ok { s with time := quantity.given? })
  else if field == "kv" then some (.ok { s with kv := diagnostics v })
  else none

/-- Fields of a state replaced one after the other, up to the first that is refused; fields of
other names do not matter. -/
def assignAll (backend : Backend) :
    List (String × Value Float) → Act Float ArrayState Unit
  | [] => return ()
  | (field, v) :: rest => do
    match assign? backend field v (← get) with
    | some r => set (← Act.lift r)
    | none => pure ()
    assignAll backend rest

/-- The fields of an object. -/
def fieldsOf : Value Float → List (String × Value Float)
  | .object fields => fields
  | _ => []

/-- A new state with fields given; fields of other names are refused. -/
def newState (backend : Backend) (fields : List (String × Value Float)) :
    Except (Fault Float) ArrayState :=
  if fields.all fun f => (assign? backend f.1 f.2 {}).isSome then
    match (assignAll backend fields).run {} with
    | (.ok (), s) => .ok s
    | (.error f, _) => .error f
  else .error .wrongType

/-- A delta given by what it changes. -/
def delta (backend : Backend) (v : Value Float) : Except (Fault Float) ArrayDelta := do
  let param ← Tensor.ofValue? backend (v.get "param")
  let grad ← Tensor.ofValue? backend (v.get "grad")
  let hessian ← Curvature.ofValue? backend (v.get "hessian")
  let termination ← match v.get "termination" with
    | .null => pure none
    | t => do pure (some (← reason t))
  return {
    param, grad, hessian, termination
    cost := (v.get "cost").ofSpecial.given?
    kv := diagnostics (v.get "kv") }

/-- Kinds that go by more than one name. -/
def kindAliases : List (String × String) :=
  [("IOError", "OSError"), ("EnvironmentError", "OSError")]

/-- A fault to raise, given by its kind and its text. -/
def raising (v : Value Float) : Fault Float :=
  match v.get "kind" with
  | .text kind =>
    if Detail.demands.any (·.1 == kind) then .wrongType (.unmade kind)
    else
      let message := match v.field? "message" with
        | some m => m.plain Binary.text
        | none => ""
      .raised ((List.lookup kind kindAliases).getD kind) message
  | _ => .wrongType

/-- The names that a value holds: the texts of a list, the fields of an object, the characters of a
text. -/
def names (v : Value Float) : Except (Fault Float) (List String) :=
  match v with
  | .list items => items.mapM fun item =>
    match item with
    | .text s => .ok s
    | _ => .error .wrongType
  | .object fields => .ok (fields.map Prod.fst)
  | .text s => .ok (s.toList.map String.singleton)
  | _ => .error .wrongType

/-- The names of capabilities. -/
def capabilities (v : Value Float) : Except (Fault Float) (List Capability) :=
  match v with
  | .list names => names.mapM fun name =>
    match name with
    | .text s =>
      match Capability.ofLabel? s with
      | some c => .ok c
      | none => .error .wrongValue
    | _ => .error .wrongValue
  | _ => .error .wrongType

/-- The backend of a name, or the one given where there is no name. -/
def backend (v : Value Float) (default : Backend) : Backend :=
  match v with
  | .text s => (Backend.ofLabel? s).getD default
  | _ => default

end Settings

end Descent
