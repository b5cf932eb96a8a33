import Descent.Proofs.Document.Array

/-!
# What a state document is read as

`Document.Decodes` lists what each field of a state is read from, and `Document.decodeState_eq_ok`
says that a document is read as a state exactly if it is valid and each field is read as that of
the state.
-/

namespace Descent.Document

open Act

variable {V M : Type}

/-- The measured value of a field. -/
def realOf (v : Document) (field : String) : Except (Fault Float) (Value Float) := do
  return .real (← (v.get field).toReal)

/-- The time of a document, which may be absent. -/
def timeOf (v : Document) : Except (Fault Float) (Option (Value Float)) :=
  match v.get "time" with
  | .null => .ok none
  | _ => do return some (← realOf v "time")

theorem timeOf_of_null {v : Document} (h : v.get "time" = .null) : timeOf v = .ok none := by
  unfold timeOf
  rw [h]

theorem timeOf_of_ne_null {v : Document} (h : v.get "time" ≠ .null) :
    timeOf v = (do return some (← realOf v "time")) := by
  unfold timeOf
  split
  · exact absurd ‹_› h
  · rfl

/-- A diagnostic under its name. -/
def diagnosticOf (f : String × Document) : Except (Fault Float) (String × Value Float) := do
  return (f.1, ← toDiagnostic f.2)

/-- The diagnostics of a document. -/
def diagnosticsOf (v : Document) : Except (Fault Float) (List (String × Value Float)) :=
  match v.get "kv" with
  | .object fields => fields.mapM diagnosticOf
  | _ => .ok []

theorem diagnosticsOf_of_object {v : Document} {fields : List (String × Document)}
    (h : v.get "kv" = .object fields) : diagnosticsOf v = fields.mapM diagnosticOf := by
  unfold diagnosticsOf
  rw [h]

theorem diagnosticsOf_of_not_object {v : Document} (h : ∀ fields, v.get "kv" ≠ .object fields) :
    diagnosticsOf v = .ok [] := by
  unfold diagnosticsOf
  split
  · exact absurd ‹_› (h _)
  · rfl

/-- Each field of a state is what the document says of it. -/
structure Decodes (codec : ArrayCodec V M) (v : Document) (s : State Float V M) : Prop where
  param : ArrayCodec.decodeOption codec.decodeVector (v.get "param") = .ok s.param
  prevParam : ArrayCodec.decodeOption codec.decodeVector (v.get "prev_param") = .ok s.prevParam
  bestParam : ArrayCodec.decodeOption codec.decodeVector (v.get "best_param") = .ok s.bestParam
  grad : ArrayCodec.decodeOption codec.decodeVector (v.get "grad") = .ok s.grad
  hessian : ArrayCodec.decodeOption codec.decodeMatrix (v.get "hessian") = .ok s.hessian
  cost : realOf v "cost" = .ok s.cost
  prevCost : realOf v "prev_cost" = .ok s.prevCost
  bestCost : realOf v "best_cost" = .ok s.bestCost
  prevBestCost : realOf v "prev_best_cost" = .ok s.prevBestCost
  targetCost : realOf v "target_cost" = .ok s.targetCost
  lastBestIter : s.lastBestIter = toCount (v.get "last_best_iter")
  curIter : s.curIter = toCount (v.get "cur_iter")
  maxIters : s.maxIters = toCount (v.get "max_iters")
  reason : v.get "termination_reason" = .text s.reason.label
  time : timeOf v = .ok s.time
  kv : diagnosticsOf v = .ok s.kv

/-- An array that is kept as it is stored is read as it is. -/
theorem decodeOption_stored (x : Document) :
    ArrayCodec.decodeOption ArrayCodec.stored.decodeVector x = StoredArray.decode x := by
  unfold ArrayCodec.decodeOption
  rcases StoredArray.decode x with _ | _ | _ <;> rfl

/-- The program that reads a state, with the time and the diagnostics as parts of their own. -/
theorem decodeState_eq (codec : ArrayCodec V M) (v : Document) :
    decodeState codec v = (do
      Schema.validateState v
      let param ← ArrayCodec.decodeOption codec.decodeVector (v.get "param")
      let prevParam ← ArrayCodec.decodeOption codec.decodeVector (v.get "prev_param")
      let bestParam ← ArrayCodec.decodeOption codec.decodeVector (v.get "best_param")
      let grad ← ArrayCodec.decodeOption codec.decodeVector (v.get "grad")
      let hessian ← ArrayCodec.decodeOption codec.decodeMatrix (v.get "hessian")
      let cost ← realOf v "cost"
      let prevCost ← realOf v "prev_cost"
      let bestCost ← realOf v "best_cost"
      let prevBestCost ← realOf v "prev_best_cost"
      let targetCost ← realOf v "target_cost"
      let reason := match v.get "termination_reason" with
        | .text s => (Reason.ofLabel? s).getD .notTerminated
        | _ => .notTerminated
      let time ← timeOf v
      let kv ← diagnosticsOf v
      return {
        param, prevParam, bestParam, grad, hessian, cost, prevCost, bestCost, prevBestCost,
        targetCost, reason, time, kv
        lastBestIter := toCount (v.get "last_best_iter")
        curIter := toCount (v.get "cur_iter")
        maxIters := toCount (v.get "max_iters") }) := by
  unfold decodeState
  -- all but the end is the same word for word
  refine bind_congr fun _ => bind_congr fun _ => bind_congr fun _ => bind_congr fun _ => ?_
  refine bind_congr fun _ => bind_congr fun _ => bind_congr fun _ => bind_congr fun _ => ?_
  refine bind_congr fun _ => bind_congr fun _ => bind_congr fun _ => ?_
  dsimp only
  split
  · rename_i ht
    rw [timeOf_of_null ht]
    split
    · rw [diagnosticsOf_of_object ‹_›]
      rfl
    · rw [diagnosticsOf_of_not_object ‹_›]
      rfl
  · rename_i ht
    rw [timeOf_of_ne_null ht]
    refine Eq.trans (bind_congr fun _ => ?_) (bind_assoc (realOf v "time") _ _).symm
    split
    · rw [diagnosticsOf_of_object ‹_›]
      rfl
    · rw [diagnosticsOf_of_not_object ‹_›]
      rfl

/-- A document is read as a state exactly if it is valid and each field is read as that of the
state. -/
theorem decodeState_eq_ok {codec : ArrayCodec V M} {v : Document} {s : State Float V M} :
    decodeState codec v = .ok s ↔ Schema.Valid v ∧ Decodes codec v s := by
  rw [decodeState_eq, bind_unit_eq_ok, Schema.validateState_eq_ok]
  refine and_congr_right fun hvalid => ?_
  constructor
  · intro h
    obtain ⟨r, hr⟩ := hvalid.reason
    obtain ⟨param, hparam, h⟩ := bind_eq_ok.mp h
    obtain ⟨prevParam, hprevParam, h⟩ := bind_eq_ok.mp h
    obtain ⟨bestParam, hbestParam, h⟩ := bind_eq_ok.mp h
    obtain ⟨grad, hgrad, h⟩ := bind_eq_ok.mp h
    obtain ⟨hessian, hhessian, h⟩ := bind_eq_ok.mp h
    obtain ⟨cost, hcost, h⟩ := bind_eq_ok.mp h
    obtain ⟨prevCost, hprevCost, h⟩ := bind_eq_ok.mp h
    obtain ⟨bestCost, hbestCost, h⟩ := bind_eq_ok.mp h
    obtain ⟨prevBestCost, hprevBestCost, h⟩ := bind_eq_ok.mp h
    obtain ⟨targetCost, htargetCost, h⟩ := bind_eq_ok.mp h
    obtain ⟨time, htime, h⟩ := bind_eq_ok.mp h
    obtain ⟨kv, hkv, h⟩ := bind_eq_ok.mp h
    -- the reason was checked against the schema, so the default is not used
    simp only [hr, Reason.ofLabel?_label, Option.getD_some] at h
    cases h
    exact {
      param := hparam, prevParam := hprevParam, bestParam := hbestParam, grad := hgrad
      hessian := hhessian, cost := hcost, prevCost := hprevCost, bestCost := hbestCost
      prevBestCost := hprevBestCost, targetCost := htargetCost, lastBestIter := rfl
      curIter := rfl, maxIters := rfl, reason := hr, time := htime, kv := hkv }
  · intro h
    simp only [h.param, h.prevParam, h.bestParam, h.grad, h.hessian, h.cost, h.prevCost,
      h.bestCost, h.prevBestCost, h.targetCost, h.time, h.kv, h.reason, Reason.ofLabel?_label,
      bind, Except.bind, Option.getD_some, ← h.lastBestIter, ← h.curIter, ← h.maxIters]
    rfl

end Descent.Document
