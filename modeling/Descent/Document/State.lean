import Descent.Document.Schema
import Descent.State

/-!
# States as documents

`encodeState` writes a state, `decodeState` reads one back after validating it.  Measured values
that are not finite are written as words, and so are those among the diagnostics; other
diagnostics are written as they are.
-/

namespace Descent.Document

/-- A value as a measured value in a document. -/
def ofMeasured (v : Value Float) : Except (Fault Float) Document := do
  return ofReal (← v.toReal)

/-- A value as an integer in a document. -/
def ofCount (v : Value Float) : Except (Fault Float) Document := do
  return .int (← v.toInt)

/-- A diagnostic in a document. -/
def ofDiagnostic : Value Float → Document
  | .real x => ofReal x
  | v => v

/-- The document of a state. -/
def encodeState {V M : Type} (codec : ArrayCodec V M) (s : State Float V M) :
    Except (Fault Float) Document := do
  let vector := ArrayCodec.encodeOption codec.encodeVector
  let param ← vector s.param
  let prevParam ← vector s.prevParam
  let bestParam ← vector s.bestParam
  let grad ← vector s.grad
  let hessian ← ArrayCodec.encodeOption codec.encodeMatrix s.hessian
  let cost ← ofMeasured s.cost
  let prevCost ← ofMeasured s.prevCost
  let bestCost ← ofMeasured s.bestCost
  let prevBestCost ← ofMeasured s.prevBestCost
  let targetCost ← ofMeasured s.targetCost
  let lastBestIter ← ofCount s.lastBestIter
  let curIter ← ofCount s.curIter
  let maxIters ← ofCount s.maxIters
  let time ← match s.time with
    | none => pure .null
    | some t => ofMeasured t
  return .object [
    ("version", .text documentVersion), ("kind", .text DocumentKind.state.label),
    ("param", param), ("prev_param", prevParam), ("best_param", bestParam), ("grad", grad),
    ("hessian", hessian), ("cost", cost), ("prev_cost", prevCost), ("best_cost", bestCost),
    ("prev_best_cost", prevBestCost), ("target_cost", targetCost),
    ("last_best_iter", lastBestIter), ("cur_iter", curIter), ("max_iters", maxIters),
    ("termination_reason", .text s.reason.label), ("time", time),
    ("kv", .object (s.kv.map fun f => (f.1, ofDiagnostic f.2)))]

/-- The diagnostic of a document; a text is read as a measured value. -/
def toDiagnostic : Document → Except (Fault Float) (Value Float)
  | .text s => do return .real (← Value.toReal (.text s))
  | v => .ok v

/-- The count of a document. -/
def toCount : Document → Value Float
  | .int n => .int n
  | _ => .int 0

/-- The state of a document. -/
def decodeState {V M : Type} (codec : ArrayCodec V M) (v : Document) :
    Except (Fault Float) (State Float V M) := do
  Schema.validateState v
  let vector (field : String) := ArrayCodec.decodeOption codec.decodeVector (v.get field)
  let real (field : String) : Except (Fault Float) (Value Float) := do
    return .real (← (v.get field).toReal)
  let param ← vector "param"
  let prevParam ← vector "prev_param"
  let bestParam ← vector "best_param"
  let grad ← vector "grad"
  let hessian ← ArrayCodec.decodeOption codec.decodeMatrix (v.get "hessian")
  let cost ← real "cost"
  let prevCost ← real "prev_cost"
  let bestCost ← real "best_cost"
  let prevBestCost ← real "prev_best_cost"
  let targetCost ← real "target_cost"
  let reason := match v.get "termination_reason" with
    | .text s => (Reason.ofLabel? s).getD .notTerminated
    | _ => .notTerminated
  let time ← match v.get "time" with
    | .null => pure none
    | _ => do pure (some (← real "time"))
  let kv ← match v.get "kv" with
    | .object fields => fields.mapM fun f => do return (f.1, ← toDiagnostic f.2)
    | _ => pure []
  return {
    param, prevParam, bestParam, grad, hessian, cost, prevCost, bestCost, prevBestCost,
    targetCost, reason, time, kv
    lastBestIter := toCount (v.get "last_best_iter")
    curIter := toCount (v.get "cur_iter")
    maxIters := toCount (v.get "max_iters") }

end Descent.Document
