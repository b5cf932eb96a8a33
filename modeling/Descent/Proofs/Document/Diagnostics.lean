import Descent.Proofs.Document.Gate
import Descent.Proofs.Document.RoundTrip

/-!
# What becomes of diagnostics

Diagnostics are written as they are, but for measured values that are not finite, for which there
are words.  A reader takes every text among them for a measured value, be it one of the words or
not.  So what is no text is read back as it was; a text that stands for a measured value is read
back as that value; and for any other text the whole document is refused
(`Document.decodeState_diagnosed`).

What was a text and what was a value that is not finite cannot be told apart once it is written
(`Document.ofDiagnostic_eq_iff`).
-/

namespace Descent

open Act

namespace Value

variable {R : Type}

theorem lookup_insert_self (key : String) (v : Value R) (fields : List (String × Value R)) :
    lookup key (insert key v fields) = some v := by
  induction fields with
  | nil => simp [insert, lookup]
  | cons f fields ih =>
    obtain ⟨k, w⟩ := f
    by_cases hk : k = key
    · simp [insert, lookup, hk]
    · simp [insert, lookup, hk, ih]

theorem lookup_insert_of_ne {key key' : String} (h : key' ≠ key) (v : Value R)
    (fields : List (String × Value R)) :
    lookup key' (insert key v fields) = lookup key' fields := by
  induction fields with
  | nil => simp [insert, lookup, h.symm]
  | cons f fields ih =>
    obtain ⟨k, w⟩ := f
    by_cases hk : k = key
    · simp [insert, lookup, hk, h.symm]
    · simp [insert, lookup, hk, ih]

end Value

namespace Document

variable {V M : Type} {codec : ArrayCodec V M} {v : Document} {s s₀ : State Float V M}
  {kv : List (String × Value Float)}

/-! ### A diagnostic -/

/-- What a diagnostic is read back as: itself, or the measured value that a text stands for. -/
inductive Returns : Value Float → Value Float → Prop
  | kept {v : Value Float} (h : v.isText = false) : Returns v v
  | measured {t : String} {x : Float} (h : Text.measured? t = some x) :
      Returns (.text t) (.real x)

theorem Returns.self_iff {v : Value Float} : Returns v v ↔ v.isText = false := by
  constructor
  · intro h
    cases h with
    | kept h => exact h
  · exact .kept

/-- A diagnostic that was written is read as it would be by itself. -/
theorem toDiagnostic_written (v : Value Float) :
    toDiagnostic (ofDiagnostic v) = toDiagnostic v := by
  cases v with
  | real x => exact toDiagnostic_ofDiagnostic rfl
  | _ => rfl

theorem toDiagnostic_text (t : String) :
    toDiagnostic (.text t) = (Text.measured? t).elim (.error (.wrongValue (.unreadable t)))
      fun x => .ok (.real x) := by
  show (do return Value.real (← Value.toReal (.text t))) = _
  rw [toReal_text]
  cases Text.measured? t <;> rfl

theorem toDiagnostic_eq_ok {v w : Value Float} : toDiagnostic v = .ok w ↔ Returns v w := by
  cases v with
  | text t =>
    rw [toDiagnostic_text]
    cases ht : Text.measured? t with
    | none =>
      refine iff_of_false nofun fun h => ?_
      cases h with
      | kept h => cases h
      | measured h => cases ht.symm.trans h
    | some x =>
      constructor
      · intro h
        cases h
        exact .measured ht
      · intro h
        cases h with
        | kept h => cases h
        | measured h =>
          cases ht.symm.trans h
          rfl
  | _ =>
    constructor
    · intro h
      cases h
      exact .kept rfl
    · intro h
      cases h
      rfl

/-- Only a text that stands for no measured value is refused. -/
theorem raises_toDiagnostic (v : Value Float) :
    Raises (fun f => ∃ t, v = .text t ∧ Text.measured? t = none ∧
      f = .wrongValue (.unreadable t)) (toDiagnostic v) := by
  cases v with
  | text t =>
    rw [toDiagnostic_text]
    cases ht : Text.measured? t with
    | none => exact .error ⟨t, rfl, ht, rfl⟩
    | some x => exact .ok _
  | _ => exact .ok _

/-- The word for a value that is not finite is written as it is. -/
theorem ofDiagnostic_word {x : Float} (h : x.isFinite = false) :
    ofDiagnostic (ofReal x) = ofReal x := by
  rcases ofReal_cases x with ⟨hx, -⟩ | ⟨t, -, hx, -⟩
  · rw [h] at hx
    cases hx
  · rw [hx]
    rfl

theorem isFinite_of_ofReal {x : Float} {t : String} (h : ofReal x = .text t) :
    x.isFinite = false := by
  unfold ofReal at h
  split at h
  · rename_i hnan
    rw [Machine.eq_nan_of_isNaN hnan]
    decide +kernel
  · split at h
    · cases h
    · exact Bool.eq_false_iff.mpr ‹_›

theorem ofDiagnostic_cases (v : Value Float) :
    ofDiagnostic v = v ∨ ∃ x, x.isFinite = false ∧ v = .real x := by
  cases v with
  | real x =>
    rcases ofReal_cases x with ⟨-, h⟩ | ⟨t, -, h, -⟩
    · exact .inl h
    · exact .inr ⟨x, isFinite_of_ofReal h, rfl⟩
  | _ => exact .inl rfl

/-- Two diagnostics are written alike only if one is a value that is not finite and the other the
word for it. -/
theorem ofDiagnostic_eq_iff {v w : Value Float} :
    ofDiagnostic v = ofDiagnostic w ↔
      v = w ∨ ∃ x, x.isFinite = false ∧
        (v = .real x ∧ w = ofReal x ∨ w = .real x ∧ v = ofReal x) := by
  constructor
  · intro h
    rcases ofDiagnostic_cases v with hv | ⟨x, hx, rfl⟩ <;>
      rcases ofDiagnostic_cases w with hw | ⟨y, hy, rfl⟩
    · exact .inl (hv.symm.trans (h.trans hw))
    · exact .inr ⟨y, hy, .inr ⟨rfl, hv.symm.trans h⟩⟩
    · exact .inr ⟨x, hx, .inl ⟨rfl, (h.trans hw).symm⟩⟩
    · have hread : (ofReal x).toReal = (ofReal y).toReal := congrArg Value.toReal h
      rw [toReal_ofReal, toReal_ofReal] at hread
      exact .inl (congrArg Value.real (Except.ok.inj hread))
  · rintro (rfl | ⟨x, hx, ⟨rfl, rfl⟩ | ⟨rfl, rfl⟩⟩)
    · rfl
    · exact (ofDiagnostic_word hx).symm
    · exact ofDiagnostic_word hx

/-! ### Documents with other diagnostics -/

/-- A document with other diagnostics. -/
def withDiagnostics (kv : List (String × Value Float)) : Document → Document
  | .object fields =>
    .object (Value.insert "kv" (.object (kv.map fun f => (f.1, ofDiagnostic f.2))) fields)
  | v => v

theorem encodeState_withDiagnostics (codec : ArrayCodec V M) (s : State Float V M) :
    encodeState codec s = withDiagnostics s.kv <$> encodeState codec { s with kv := [] } := by
  unfold encodeState
  simp only [map_bind]
  refine bind_congr fun _ => bind_congr fun _ => bind_congr fun _ => bind_congr fun _ => ?_
  refine bind_congr fun _ => bind_congr fun _ => bind_congr fun _ => bind_congr fun _ => ?_
  refine bind_congr fun _ => bind_congr fun _ => bind_congr fun _ => bind_congr fun _ => ?_
  refine bind_congr fun _ => ?_
  -- of the fields that are written the diagnostics are the last
  cases s.time <;> simp [withDiagnostics, Value.insert]

theorem field?_kv_withDiagnostics (hv : v.isObject = true) :
    (v.withDiagnostics kv).field? "kv" =
      some (.object (kv.map fun f => (f.1, ofDiagnostic f.2))) := by
  cases v with
  | object fields => exact Value.lookup_insert_self "kv" _ fields
  | _ => cases hv

theorem field?_withDiagnostics {field : String} (h : field ≠ "kv") :
    (v.withDiagnostics kv).field? field = v.field? field := by
  cases v with
  | object fields => exact Value.lookup_insert_of_ne h _ fields
  | _ => rfl

theorem get_withDiagnostics {field : String} (h : field ≠ "kv") :
    (v.withDiagnostics kv).get field = v.get field := by
  unfold Value.get
  rw [field?_withDiagnostics h]

theorem diagnosticsOf_withDiagnostics (hv : v.isObject = true) :
    diagnosticsOf (v.withDiagnostics kv) = kv.mapM diagnosticOf := by
  have hobject : (v.withDiagnostics kv).get "kv" =
      .object (kv.map fun f => (f.1, ofDiagnostic f.2)) := by
    unfold Value.get
    rw [field?_kv_withDiagnostics hv]
    rfl
  rw [diagnosticsOf_of_object hobject, List.mapM_map]
  congr 1
  funext f
  show diagnosticOf (f.1, ofDiagnostic f.2) = _
  unfold diagnosticOf
  rw [toDiagnostic_written]

theorem valid_withDiagnostics (h : Schema.Valid v) : Schema.Valid (v.withDiagnostics kv) := by
  have hnumber : ∀ field ∈ Schema.numberFields, field ≠ "kv" := by decide
  have hcount : ∀ field ∈ Schema.countFields, field ≠ "kv" := by decide
  have harray : ∀ field ∈ Schema.arrayFields, field ≠ "kv" := by decide
  refine {
    isObject := ?_, version := ?_, kind := ?_, number := ?_, count := ?_, array := ?_
    reason := ?_, time := ?_, diagnostics := ?_ }
  · have hobject := h.isObject
    cases v with
    | object fields => rfl
    | _ => cases hobject
  · rw [get_withDiagnostics (by decide)]
    exact h.version
  · rw [get_withDiagnostics (by decide)]
    exact h.kind
  · intro field hfield
    rw [field?_withDiagnostics (hnumber field hfield)]
    exact h.number field hfield
  · intro field hfield
    rw [field?_withDiagnostics (hcount field hfield)]
    exact h.count field hfield
  · intro field hfield
    rw [field?_withDiagnostics (harray field hfield)]
    exact h.array field hfield
  · rw [get_withDiagnostics (by decide)]
    exact h.reason
  · rw [get_withDiagnostics (by decide)]
    exact h.time
  · intro x hx
    rw [field?_kv_withDiagnostics h.isObject] at hx
    cases hx
    rfl

theorem realOf_withDiagnostics {field : String} (h : field ≠ "kv") :
    realOf (v.withDiagnostics kv) field = realOf v field := by
  unfold realOf
  rw [get_withDiagnostics h]

theorem timeOf_withDiagnostics : timeOf (v.withDiagnostics kv) = timeOf v := by
  unfold timeOf
  rw [get_withDiagnostics (by decide), realOf_withDiagnostics (by decide)]

/-- A document that is read is read with other diagnostics as these are read. -/
theorem decodeState_withDiagnostics (h : decodeState codec v = .ok s₀) :
    decodeState codec (v.withDiagnostics kv) = do
      return { s₀ with kv := ← kv.mapM diagnosticOf } := by
  obtain ⟨hvalid, hd⟩ := decodeState_eq_ok.mp h
  have hvalidate : Schema.validateState (v.withDiagnostics kv) = .ok () :=
    Schema.validateState_eq_ok.mpr (valid_withDiagnostics hvalid)
  rw [decodeState_eq]
  simp (disch := decide) only [hvalidate, get_withDiagnostics, realOf_withDiagnostics,
    timeOf_withDiagnostics, diagnosticsOf_withDiagnostics hvalid.isObject]
  simp only [hd.param, hd.prevParam, hd.bestParam, hd.grad, hd.hessian, hd.cost, hd.prevCost,
    hd.bestCost, hd.prevBestCost, hd.targetCost, hd.time, hd.reason, Reason.ofLabel?_label,
    Option.getD_some, ← hd.lastBestIter, ← hd.curIter, ← hd.maxIters, bind, Except.bind]

/-! ### Writing diagnostics and reading them back -/

theorem diagnosticOf_eq_ok {f g : String × Value Float} :
    diagnosticOf f = .ok g ↔ g.1 = f.1 ∧ Returns f.2 g.2 := by
  unfold diagnosticOf
  rw [bind_eq_ok]
  constructor
  · rintro ⟨w, hw, h⟩
    cases h
    exact ⟨rfl, toDiagnostic_eq_ok.mp hw⟩
  · rintro ⟨hkey, hw⟩
    refine ⟨g.2, toDiagnostic_eq_ok.mpr hw, ?_⟩
    rw [← hkey]
    rfl

theorem raises_diagnosticOf (f : String × Value Float) :
    Raises (fun e => ∃ t, f.2 = .text t ∧ Text.measured? t = none ∧
      e = .wrongValue (.unreadable t)) (diagnosticOf f) :=
  (raises_toDiagnostic f.2).bind fun _ _ => .ok _

/-- **What becomes of diagnostics that are written and read back.**  If a state is written without
its diagnostics and then read back, as `s₀`, it is written with them too, whatever they are.  It is
read back, as `s₀` with what the diagnostics return as, exactly if every text among them stands for
a measured value, and refused for one that does not otherwise; so the diagnostics are kept exactly
if there is no text among them. -/
theorem decodeState_diagnosed (s : State Float V M) {s₀ : State Float V M} {v : Document}
    (hwritten : encodeState codec { s with kv := [] } = .ok v)
    (hread : decodeState codec v = .ok s₀) :
    ∃ doc, encodeState codec s = .ok doc ∧
      (∀ s', decodeState codec doc = .ok s' ↔ ∃ kv, s' = { s₀ with kv := kv } ∧
        List.Forall₂ (fun f g => g.1 = f.1 ∧ Returns f.2 g.2) s.kv kv) ∧
      ((∃ s', decodeState codec doc = .ok s' ∧ s'.kv = s.kv) ↔ ∀ f ∈ s.kv, f.2.isText = false) ∧
      ((∃ s', decodeState codec doc = .ok s') ↔
        ∀ f ∈ s.kv, ∀ t, f.2 = .text t → (Text.measured? t).isSome = true) ∧
      ∀ f, decodeState codec doc = .error f → ∃ key t, (key, .text t) ∈ s.kv ∧
        Text.measured? t = none ∧ f = .wrongValue (.unreadable t) := by
  have hdoc : encodeState codec s = .ok (v.withDiagnostics s.kv) := by
    rw [encodeState_withDiagnostics, hwritten]
    rfl
  have hdecode : decodeState codec (v.withDiagnostics s.kv) = do
      return { s₀ with kv := ← s.kv.mapM diagnosticOf } := decodeState_withDiagnostics hread
  -- the entries are read one by one, and the rest is what was read without them
  have hok : ∀ s', decodeState codec (v.withDiagnostics s.kv) = .ok s' ↔
      ∃ kv, s' = { s₀ with kv := kv } ∧
        List.Forall₂ (fun f g => g.1 = f.1 ∧ Returns f.2 g.2) s.kv kv := by
    intro s'
    rw [hdecode, bind_eq_ok]
    constructor
    · rintro ⟨kv, hkv, h⟩
      cases h
      exact ⟨kv, rfl, (mapM_eq_ok.mp hkv).imp fun _ _ => diagnosticOf_eq_ok.mp⟩
    · rintro ⟨kv, rfl, h⟩
      exact ⟨kv, mapM_eq_ok.mpr (h.imp fun _ _ => diagnosticOf_eq_ok.mpr), rfl⟩
  refine ⟨_, hdoc, hok, ?_, ?_, ?_⟩
  · constructor
    · rintro ⟨s', hs', hsame⟩ f hf
      obtain ⟨kv, rfl, h⟩ := (hok s').mp hs'
      obtain rfl : kv = s.kv := hsame
      exact Returns.self_iff.mp (List.forall₂_same.mp h f hf).2
    · intro h
      refine ⟨{ s₀ with kv := s.kv }, (hok _).mpr ⟨s.kv, rfl, ?_⟩, rfl⟩
      exact List.forall₂_same.mpr fun f hf => ⟨rfl, Returns.self_iff.mpr (h f hf)⟩
  · rw [hdecode, exists_bind_pure_eq_ok, exists_mapM_eq_ok]
    exact forall₂_congr fun f _ => exists_diagnosticOf
  · rw [hdecode]
    refine Raises.bind (.mapM fun f hf => (raises_diagnosticOf f).mono ?_) fun _ _ => .ok _
    rintro e ⟨t, ht, hmeasured, rfl⟩
    exact ⟨f.1, t, ht ▸ hf, hmeasured, rfl⟩

/-- A state with a text among its diagnostics. -/
def noted (t : String) : State Float StoredArray StoredArray where
  cost := .real 1.0
  kv := [("note", .text t), ("radius", .real 0.5)]

theorem storable_noted (t : String) : State.Storable { noted t with kv := [] } where
  array := by
    simp only [noted, List.forall_mem_cons, List.not_mem_nil, false_imp_iff, implies_true,
      reduceCtorEq, and_true]
  measured := by
    simp only [List.forall_mem_cons, List.not_mem_nil, false_imp_iff, implies_true, and_true]
    exact ⟨⟨_, rfl⟩, ⟨_, rfl⟩, ⟨_, rfl⟩, ⟨_, rfl⟩, ⟨_, rfl⟩⟩
  count := by
    simp only [List.forall_mem_cons, List.not_mem_nil, false_imp_iff, implies_true, and_true]
    exact ⟨⟨0, rfl, by decide⟩, ⟨0, rfl, by decide⟩, ⟨unlimited, rfl, by decide⟩⟩
  time := nofun
  kv := nofun

/-- The note `1.5` becomes a measured value, and a state with the note `hello` is written and not
read back. -/
theorem decodeState_diagnosed_noted :
    (∃ doc, encodeState ArrayCodec.stored (noted "1.5") = .ok doc ∧
      decodeState ArrayCodec.stored doc =
        .ok { noted "1.5" with kv := [("note", .real 1.5), ("radius", .real 0.5)] }) ∧
    ∃ doc, encodeState ArrayCodec.stored (noted "hello") = .ok doc ∧
      decodeState ArrayCodec.stored doc = .error (.wrongValue (.unreadable "hello")) := by
  have hwritten (t : String) := encodeState_eq (storable_noted t)
  have hread (t : String) := decodeState_ofState (storable_noted t)
  constructor
  · obtain ⟨doc, hdoc, hok, -⟩ := decodeState_diagnosed (noted "1.5") (hwritten _) (hread _)
    have hmeasured : Text.measured? "1.5" = some 1.5 := by decide +kernel
    refine ⟨doc, hdoc, (hok _).mpr ⟨_, rfl, ?_⟩⟩
    exact .cons ⟨rfl, .measured hmeasured⟩ (.cons ⟨rfl, .kept rfl⟩ .nil)
  · obtain ⟨doc, hdoc, -, -, hreads, hfault⟩ :=
      decodeState_diagnosed (noted "hello") (hwritten _) (hread _)
    have hunreadable : Text.measured? "hello" = none := by decide +kernel
    refine ⟨doc, hdoc, ?_⟩
    cases hdecode : decodeState ArrayCodec.stored doc with
    | ok s' =>
      have hsome := hreads.mp ⟨s', hdecode⟩ _ List.mem_cons_self "hello" rfl
      rw [hunreadable] at hsome
      cases hsome
    | error f =>
      -- there is one text only that the refusal can be of
      obtain ⟨key, t, hmem, -, rfl⟩ := hfault f hdecode
      obtain ⟨-, rfl⟩ : key = "note" ∧ t = "hello" := by simpa [noted] using hmem
      rfl

end Document

end Descent
