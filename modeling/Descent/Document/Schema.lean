import Descent.Document.Array
import Descent.Fault.Message
import Descent.Reason

/-!
# The form of documents

A document names its version and its kind.  `Schema.state` describes the fields of a state
document; `Schema.validateState` and `Schema.validateMethod` refuse what does not have the form,
naming the first thing that is wrong.
-/

namespace Descent.Schema

/-- What a field must hold. -/
inductive FieldType where
  | string
  | number
  | integer
  | array
  | dict
  deriving DecidableEq, Repr

/-- The name of a type of field. -/
def FieldType.label : FieldType → String
  | string => "string"
  | number => "number"
  | integer => "integer"
  | array => "array"
  | dict => "dict"

/-- The rule of one field. -/
structure Rule where
  type : FieldType
  required : Bool
  constant : Option String := none
  options : Option (List String) := none
  least : Option Int := none
  nullable : Bool := false
  deriving DecidableEq, Repr

/-- The fields that hold measured values. -/
def numberFields : List String :=
  ["cost", "prev_cost", "best_cost", "prev_best_cost", "target_cost"]

/-- The fields that hold counts. -/
def countFields : List String := ["last_best_iter", "cur_iter", "max_iters"]

/-- The fields that hold arrays. -/
def arrayFields : List String := ["param", "prev_param", "best_param", "grad", "hessian"]

/-- The rules of a state document. -/
def state : List (String × Rule) :=
  [("version", { type := .string, required := true, constant := some documentVersion }),
    ("kind", { type := .string, required := true, constant := some "state" }),
    ("termination_reason",
      { type := .string, required := true, options := some (Reason.all.map Reason.label) }),
    ("time", { type := .number, required := false }),
    ("kv", { type := .dict, required := false })] ++
  numberFields.map (fun f => (f, { type := .number, required := true })) ++
  countFields.map (fun f => (f, { type := .integer, required := true, least := some 0 })) ++
  arrayFields.map (fun f => (f, { type := .array, required := true, nullable := true }))

/-- A rule as a document. -/
def Rule.document (r : Rule) : Document :=
  .object ([("type", .text r.type.label), ("required", .bool r.required)] ++
    ((r.constant.map fun c => [("const", Value.text c)]).getD []) ++
    ((r.options.map fun os => [("enum", Value.list (os.map .text))]).getD []) ++
    ((r.least.map fun n => [("min", Value.int n)]).getD []) ++
    (if r.nullable then [("nullable", .bool true)] else []))

/-- The rules of a state document as a document. -/
def document : Document := .object (state.map fun f => (f.1, f.2.document))

/-- The words for values that are not finite. -/
def specialWords : List String := ["nan", "inf", "-inf"]

/-- Whether a value is a measured value or a word for one. -/
def isNumber : Document → Bool
  | .int _ => true
  | .real _ => true
  | .text s => specialWords.contains s
  | _ => false

/-- Whether a value is a count. -/
def isCount : Document → Bool
  | .int n => decide (0 ≤ n)
  | _ => false

/-- A length of an array's axis, a truth value counting as one or zero. -/
def axis? : Document → Option Int
  | .int n => if 0 ≤ n then some n else none
  | .bool b => some (if b then 1 else 0)
  | _ => none

/-- The lengths of an array's axes. -/
def axes? : Document → Option (List Int)
  | .list vs => vs.mapM axis?
  | _ => none

/-- The number of things that a value holds, if it holds things. -/
def extent : Document → Except (Fault Float) Nat
  | .list vs => .ok vs.length
  | .text s => .ok s.length
  | .object fs => .ok fs.length
  | _ => .error .wrongType

/-- A refusal unless something holds. -/
def demand (holds : Bool) (fault : Fault Float) : Except (Fault Float) Unit :=
  if holds then .ok () else .error fault

/-- The refusal of an array that lacks one of the keys. -/
def demandKeys (field : String) (fields : List (String × Document)) :
    List String → Except (Fault Float) Unit
  | [] => .ok ()
  | key :: rest => do
    demand (Value.lookup key fields).isSome (.arrayKeyMissing field key)
    demandKeys field fields rest

/-- The refusal of a value that is not an encoded array or null. -/
def validateArray (field : String) : Document → Except (Fault Float) Unit
  | .null => .ok ()
  | .object fields => do
    demandKeys field fields ["backend", "dtype", "shape", "data"]
    let get key := (Value.lookup key fields).getD .null
    let known := match get "backend" with
      | .text s => (Backend.ofLabel? s).isSome
      | _ => false
    demand known (.arrayBackend field (get "backend"))
    match axes? (get "shape") with
    | none => .error (.arrayShape field (get "shape"))
    | some axes =>
      let size := axes.foldl (· * ·) 1
      let fits := match get "data" with
        | .list vs => decide ((vs.length : Int) = size)
        | _ => false
      if fits then .ok () else .error (.arraySize field (← extent (get "data")) size)
  | _ => .error (.fieldNotArray field)

/-- The refusal of an object of another version or kind. -/
def validateHead (kind : DocumentKind) (v : Document) : Except (Fault Float) Unit := do
  let isText (v : Document) (s : String) := match v with
    | .text t => t == s
    | _ => false
  demand (isText (v.get "version") documentVersion) (.version (v.get "version"))
  demand (isText (v.get "kind") kind.label) (.wrongKind kind (v.get "kind"))

/-- The refusal of fields that are absent or do not satisfy a check. -/
def validateFields (v : Document) (check : String → Document → Except (Fault Float) Unit) :
    List String → Except (Fault Float) Unit
  | [] => .ok ()
  | field :: rest => do
    match v.field? field with
    | none => .error (.fieldMissing field)
    | some value => check field value
    validateFields v check rest

/-- The refusal of a termination reason that is none. -/
def validateReason (v : Document) : Except (Fault Float) Unit :=
  match v with
  | .text s => demand (Reason.ofLabel? s).isSome (.reasonUnknown v)
  | v => if v.isHashable then .error (.reasonUnknown v) else .error .wrongType

/-- The refusal of what is not a state document. -/
def validateState (v : Document) : Except (Fault Float) Unit := do
  demand v.isObject (.notADocument .state)
  validateHead .state v
  validateFields v (fun field x => demand (isNumber x) (.fieldNotNumber field)) numberFields
  validateFields v (fun field x => demand (isCount x) (.fieldNotCount field)) countFields
  validateFields v validateArray arrayFields
  validateReason (v.get "termination_reason")
  match v.get "time" with
  | .null => .ok ()
  | time => demand (isNumber time) .timeNotNumber
  match v.field? "kv" with
  | none => .ok ()
  | some kv => demand kv.isObject .diagnosticsNotObject

/-- The refusal of what is not the document of a method; its parameters are not looked at. -/
def validateMethod (v : Document) : Except (Fault Float) Unit := do
  demand v.isObject (.notADocument .solver)
  validateHead .solver v
  demand (v.get "type").isText .solverTypeMissing
  demand (v.get "params").isObject .solverParamsMissing

end Descent.Schema
