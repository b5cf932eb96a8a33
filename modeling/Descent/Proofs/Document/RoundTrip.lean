import Descent.Proofs.Document.State
import Mathlib.Algebra.BigOperators.Group.List.Basic

/-!
# Writing a state and reading it back

A state is storable if its arrays are of floating types and its quantities are what a run records
(`State.Storable`).  Such a state is written as `Document.ofState` says; the document is valid and
strict, and the state read from it is the one that was written, in every field
(`Document.decodeState_encodeState`).
-/

namespace Descent

open Act

/-! ### Names of floating types -/

namespace ElementType

/-- The floating types a backend has.  Entries are floats of 64 bits (`Element.real`), so of the
arrays of the type of 128 bits only those are meant whose entries need no more. -/
def floatingTypes : Backend → List ElementType
  | .numpy =>
    [floating 16, floating 32, floating 64, floating 128, swapped (floating 16),
      swapped (floating 32), swapped (floating 64), swapped (floating 128)]
  | .torch => [floating 16, floating 32, floating 64, brain] ++ NarrowFormat.all.map narrow

theorem isFloating_of_mem {backend : Backend} {t : ElementType} (h : t ∈ floatingTypes backend) :
    t.isFloating = true := by
  have hall : ∀ b : Backend, (floatingTypes b).all isFloating = true := by
    intro b
    cases b <;> rfl
  exact List.all_eq_true.mp (hall backend) t h

/-- A backend knows each of its floating types by the name that is written for it. -/
theorem ofName_label {backend : Backend} {t : ElementType} (h : t ∈ floatingTypes backend) :
    ofName backend t.label = .ok t := by
  cases backend with
  | numpy =>
    simp only [floatingTypes, List.mem_cons, List.not_mem_nil, or_false] at h
    rcases h with rfl | rfl | rfl | rfl | rfl | rfl | rfl | rfl <;> rfl
  | torch =>
    simp only [floatingTypes, NarrowFormat.all, List.map_cons, List.map_nil, List.cons_append,
      List.nil_append, List.mem_cons, List.not_mem_nil, or_false] at h
    rcases h with rfl | rfl | rfl | rfl | rfl | rfl | rfl | rfl <;> rfl

end ElementType

/-! ### Arrays -/

/-- The fields that a payload is written as. -/
def Payload.fields (p : Payload) : List (String × Document) :=
  [("backend", .text p.backend.label), ("dtype", p.element), ("shape", .list p.axes),
    ("data", .list p.entries)]

theorem Payload.in_fields (p : Payload) : p.In p.fields := ⟨rfl, rfl, rfl, rfl⟩

namespace StoredArray

/-- An array of a floating type of its backend: as many entries as its shape asks for, each of
them a value of the type, and a shape that the backend has. -/
structure Floating (a : StoredArray) : Prop where
  element : a.element ∈ ElementType.floatingTypes a.backend
  entries : ∃ xs : List Float, a.entries = xs.map .real ∧ ∀ x ∈ xs, a.element.kept a.backend x = x
  size : a.entries.length = Shape.size a.shape
  axes : ∀ n ∈ a.shape, (n : Int) ≤ Shape.maxLength
  allowed : Shape.isAllowed a.backend a.element.byteSize a.shape = true

/-- An entry as it is written. -/
def entryDocument : Element → Document
  | .real x => Document.ofReal x
  | _ => .null

/-- What an array is written as. -/
def payload (a : StoredArray) : Payload where
  backend := a.backend
  element := .text a.element.label
  axes := a.shape.map fun n : Nat => .int n
  entries := a.entries.map entryDocument

variable {a : StoredArray}

theorem encode_eq (h : a.Floating) : a.encode = .ok (.object a.payload.fields) := by
  have hdata : (a.entries.mapM fun e => do return Document.ofReal (← e.toReal)) =
      .ok (a.entries.map entryDocument) := by
    obtain ⟨xs, hentries, -⟩ := h.entries
    rw [hentries]
    refine mapM_eq_ok_map fun e he => ?_
    obtain ⟨x, -, rfl⟩ := List.mem_map.mp he
    rfl
  unfold encode
  rw [hdata]
  rfl

/-- The axes of an array are accepted as they are. -/
theorem mapM_axis? (shape : Shape) :
    (shape.map fun n : Nat => (.int n : Document)).mapM Schema.axis? =
      some (shape.map fun n : Nat => (n : Int)) := by
  rw [mapM_eq_some, List.forall₂_map_left_iff, List.forall₂_map_right_iff, List.forall₂_same]
  intro n _
  rw [Schema.axis?, if_pos (Int.natCast_nonneg n)]

/-- The product of the lengths, taken from either end. -/
theorem foldl_natCast (shape : Shape) :
    (shape.map fun n : Nat => (n : Int)).foldl (· * ·) 1 = (Shape.size shape : Int) := by
  rw [← List.prod_eq_foldl, Shape.size, ← List.prod_eq_foldr, Nat.cast_list_prod]

/-- The axes of an array are read as they are. -/
theorem mapM_length {shape : Shape} {backend : Backend}
    (h : ∀ n ∈ shape, (n : Int) ≤ Shape.maxLength) :
    (shape.map fun n : Nat => (.int n : Document)).mapM (length backend) =
      .ok (shape.map fun n : Nat => (n : Int)) := by
  rw [mapM_eq_ok, List.forall₂_map_left_iff, List.forall₂_map_right_iff, List.forall₂_same]
  exact fun n hn => Payload.length_int (Int.natCast_nonneg n) (h n hn)

theorem fits_payload (h : a.Floating) : a.payload.Fits := by
  refine ⟨_, mapM_axis? a.shape, ?_⟩
  rw [foldl_natCast, payload, List.length_map, h.size]

theorem decode_payload (h : a.Floating) : a.payload.decode = .ok a := by
  obtain ⟨xs, hentries, hkept⟩ := h.entries
  -- every entry is measured as the number it was written for
  have hdata : a.payload.entries.mapM Value.toReal = .ok xs := by
    show (a.entries.map entryDocument).mapM _ = _
    rw [hentries, mapM_eq_ok, List.forall₂_map_left_iff, List.forall₂_map_left_iff,
      List.forall₂_same]
    exact fun x _ => Document.toReal_ofReal x
  have hlabel : elementOf a.payload.backend a.payload.element = .ok a.element := by
    have hof := ElementType.ofName_label h.element
    show elementOf a.backend (.text a.element.label) = _
    cases hb : a.backend <;> rw [hb] at hof <;> exact hof
  have hlengths : a.payload.axes.mapM (length a.payload.backend) =
      .ok (a.shape.map fun n : Nat => (n : Int)) := mapM_length h.axes
  have hshape : a.payload.shape = a.shape := by
    rw [Payload.shape_eq hlengths, List.map_map]
    exact List.map_id a.shape
  rw [Payload.decode_eq_ok (fits_payload h) hdata hlabel
    (ElementType.isFloating_of_mem h.element) hlengths, hshape]
  -- the entries are exact in the element type, so storing them changes none
  have hentries' : xs.map (fun x => Element.real (a.element.kept a.backend x)) = a.entries := by
    rw [hentries]
    exact List.map_congr_left fun x hx => congrArg Element.real (hkept x hx)
  show (if Shape.isAllowed a.backend a.element.byteSize a.shape then
    Except.ok (StoredArray.mk a.backend a.element a.shape _) else _) = _
  rw [if_pos h.allowed]
  exact congrArg (fun es => Except.ok (StoredArray.mk a.backend a.element a.shape es)) hentries'

/-- An array of a floating type is read back as it was written. -/
theorem decode_encode (h : a.Floating) :
    decode (.object a.payload.fields) = .ok (some a) := by
  rw [decode, Payload.decodeFields_eq (Payload.in_fields _), decode_payload h]
  rfl

end StoredArray

/-! ### States -/

/-- Whether a value is a number, a truth value or nothing. -/
def Value.isSimple : Value Float → Bool
  | .null | .bool _ | .int _ | .real _ => true
  | .text _ | .list _ | .object _ => false

/-- A state as a run records it: arrays of floating types, measured values, counts that are not
negative, and diagnostics that are numbers, truth values or nothing. -/
structure State.Storable (s : State Float StoredArray StoredArray) : Prop where
  array : ∀ o ∈ [s.param, s.prevParam, s.bestParam, s.grad, s.hessian], ∀ a, o = some a → a.Floating
  measured : ∀ v ∈ [s.cost, s.prevCost, s.bestCost, s.prevBestCost, s.targetCost],
    ∃ x, v = .real x
  count : ∀ v ∈ [s.lastBestIter, s.curIter, s.maxIters], ∃ n : Int, v = .int n ∧ 0 ≤ n
  time : ∀ t, s.time = some t → ∃ x, t = .real x
  kv : ∀ f ∈ s.kv, f.2.isSimple = true

namespace State.Storable

variable {s : State Float StoredArray StoredArray}

/-- The five arrays one by one, as the fields of a document name them. -/
theorem arrays (h : s.Storable) :
    (∀ a, s.param = some a → a.Floating) ∧ (∀ a, s.prevParam = some a → a.Floating) ∧
      (∀ a, s.bestParam = some a → a.Floating) ∧ (∀ a, s.grad = some a → a.Floating) ∧
      ∀ a, s.hessian = some a → a.Floating := by
  simpa only [List.forall_mem_cons, List.not_mem_nil, false_imp_iff, implies_true, and_true]
    using h.array

theorem reals (h : s.Storable) :
    (∃ x, s.cost = .real x) ∧ (∃ x, s.prevCost = .real x) ∧ (∃ x, s.bestCost = .real x) ∧
      (∃ x, s.prevBestCost = .real x) ∧ ∃ x, s.targetCost = .real x := by
  simpa only [List.forall_mem_cons, List.not_mem_nil, false_imp_iff, implies_true, and_true]
    using h.measured

theorem counts (h : s.Storable) :
    (∃ n : Int, s.lastBestIter = .int n ∧ 0 ≤ n) ∧ (∃ n : Int, s.curIter = .int n ∧ 0 ≤ n) ∧
      ∃ n : Int, s.maxIters = .int n ∧ 0 ≤ n := by
  simpa only [List.forall_mem_cons, List.not_mem_nil, false_imp_iff, implies_true, and_true]
    using h.count

end State.Storable

namespace Document

/-- What an array that may be absent is written as. -/
def ofArray : Option StoredArray → Document
  | none => .null
  | some a => .object a.payload.fields

/-- What a state is written as. -/
def ofState (s : State Float StoredArray StoredArray) : Document :=
  .object [
    ("version", .text documentVersion), ("kind", .text DocumentKind.state.label),
    ("param", ofArray s.param), ("prev_param", ofArray s.prevParam),
    ("best_param", ofArray s.bestParam), ("grad", ofArray s.grad), ("hessian", ofArray s.hessian),
    ("cost", ofDiagnostic s.cost), ("prev_cost", ofDiagnostic s.prevCost),
    ("best_cost", ofDiagnostic s.bestCost), ("prev_best_cost", ofDiagnostic s.prevBestCost),
    ("target_cost", ofDiagnostic s.targetCost), ("last_best_iter", s.lastBestIter),
    ("cur_iter", s.curIter), ("max_iters", s.maxIters),
    ("termination_reason", .text s.reason.label), ("time", (s.time.map ofDiagnostic).getD .null),
    ("kv", .object (s.kv.map fun f => (f.1, ofDiagnostic f.2)))]

/-! ### Parts of a state -/

theorem encodeOption_eq {o : Option StoredArray} (h : ∀ a, o = some a → a.Floating) :
    ArrayCodec.encodeOption ArrayCodec.stored.encodeVector o = .ok (ofArray o) := by
  cases o with
  | none => rfl
  | some a => exact StoredArray.encode_eq (h a rfl)

theorem decode_ofArray {o : Option StoredArray} (h : ∀ a, o = some a → a.Floating) :
    StoredArray.decode (ofArray o) = .ok o := by
  cases o with
  | none => rfl
  | some a => exact StoredArray.decode_encode (h a rfl)

theorem ofMeasured_eq {v : Value Float} (h : ∃ x, v = .real x) :
    ofMeasured v = .ok (ofDiagnostic v) := by
  obtain ⟨x, rfl⟩ := h
  rfl

theorem toReal_ofDiagnostic {v : Value Float} (h : ∃ x, v = .real x) :
    (do return Value.real (← (ofDiagnostic v).toReal)) = .ok v := by
  obtain ⟨x, rfl⟩ := h
  rw [ofDiagnostic, toReal_ofReal]
  rfl

theorem ofCount_eq {v : Value Float} (h : ∃ n : Int, v = .int n ∧ 0 ≤ n) : ofCount v = .ok v := by
  obtain ⟨n, rfl, -⟩ := h
  rfl

/-- A diagnostic is read back as it was written. -/
theorem toDiagnostic_ofDiagnostic {v : Value Float} (h : v.isSimple = true) :
    toDiagnostic (ofDiagnostic v) = .ok v := by
  cases v with
  | real x =>
    rw [ofDiagnostic]
    rcases ofReal_cases x with ⟨-, hx⟩ | ⟨s, -, hx, -⟩
    · rw [hx]
      rfl
    · have hread := toReal_ofReal x
      rw [hx] at hread ⊢
      rw [toDiagnostic, hread]
      rfl
  | null | bool | int => rfl
  | text | list | object => cases h

variable {s : State Float StoredArray StoredArray}

/-- A storable state is written. -/
theorem encodeState_eq (h : s.Storable) : encodeState ArrayCodec.stored s = .ok (ofState s) := by
  obtain ⟨hparam, hprevParam, hbestParam, hgrad, hhessian⟩ := h.arrays
  obtain ⟨hcost, hprevCost, hbestCost, hprevBestCost, htargetCost⟩ := h.reals
  obtain ⟨hlastBestIter, hcurIter, hmaxIters⟩ := h.counts
  have hmatrix : ArrayCodec.encodeOption ArrayCodec.stored.encodeMatrix s.hessian =
      .ok (ofArray s.hessian) := encodeOption_eq hhessian
  unfold encodeState ofState
  simp only [encodeOption_eq hparam, encodeOption_eq hprevParam, encodeOption_eq hbestParam,
    encodeOption_eq hgrad, hmatrix, ofMeasured_eq hcost, ofMeasured_eq hprevCost,
    ofMeasured_eq hbestCost, ofMeasured_eq hprevBestCost, ofMeasured_eq htargetCost,
    ofCount_eq hlastBestIter, ofCount_eq hcurIter, ofCount_eq hmaxIters, bind, Except.bind]
  -- only the time may be missing
  cases htime : s.time with
  | none => rfl
  | some t =>
    simp only [ofMeasured_eq (h.time t htime)]
    rfl

theorem valid_ofState (h : s.Storable) : Schema.Valid (ofState s) where
  isObject := rfl
  version := rfl
  kind := rfl
  number := by
    -- a real number is written as a number or as one of the three words
    have hnumber {v : Value Float} (hv : ∃ x, v = .real x) :
        Schema.isNumber (ofDiagnostic v) = true := by
      obtain ⟨x, rfl⟩ := hv
      exact isNumber_ofReal x
    simp only [Schema.numberFields, List.forall_mem_cons, List.not_mem_nil, false_imp_iff,
      implies_true, and_true]
    obtain ⟨hcost, hprevCost, hbestCost, hprevBestCost, htargetCost⟩ := h.reals
    exact ⟨⟨_, rfl, hnumber hcost⟩, ⟨_, rfl, hnumber hprevCost⟩, ⟨_, rfl, hnumber hbestCost⟩,
      ⟨_, rfl, hnumber hprevBestCost⟩, ⟨_, rfl, hnumber htargetCost⟩⟩
  count := by
    have hisCount {v : Value Float} (hv : ∃ n : Int, v = .int n ∧ 0 ≤ n) :
        Schema.isCount v = true := by
      obtain ⟨n, rfl, hn⟩ := hv
      exact decide_eq_true hn
    simp only [Schema.countFields, List.forall_mem_cons, List.not_mem_nil, false_imp_iff,
      implies_true, and_true]
    obtain ⟨hlastBestIter, hcurIter, hmaxIters⟩ := h.counts
    exact ⟨⟨_, rfl, hisCount hlastBestIter⟩, ⟨_, rfl, hisCount hcurIter⟩,
      ⟨_, rfl, hisCount hmaxIters⟩⟩
  array := by
    -- a missing array is written as `null`
    have hencoded {o : Option StoredArray} (ho : ∀ a, o = some a → a.Floating) :
        ofArray o = .null ∨ ∃ fields p, ofArray o = .object fields ∧ Payload.In p fields ∧
          p.Fits := by
      cases o with
      | none => exact .inl rfl
      | some a =>
        exact .inr ⟨_, a.payload, rfl, Payload.in_fields _, StoredArray.fits_payload (ho a rfl)⟩
    simp only [Schema.arrayFields, List.forall_mem_cons, List.not_mem_nil, false_imp_iff,
      implies_true, and_true]
    obtain ⟨hparam, hprevParam, hbestParam, hgrad, hhessian⟩ := h.arrays
    exact ⟨⟨_, rfl, hencoded hparam⟩, ⟨_, rfl, hencoded hprevParam⟩, ⟨_, rfl, hencoded hbestParam⟩,
      ⟨_, rfl, hencoded hgrad⟩, ⟨_, rfl, hencoded hhessian⟩⟩
  reason := ⟨s.reason, rfl⟩
  time := by
    cases htime : s.time with
    | none =>
      left
      show (s.time.map ofDiagnostic).getD .null = _
      rw [htime]
      rfl
    | some t =>
      right
      obtain ⟨x, rfl⟩ := h.time t htime
      show Schema.isNumber ((s.time.map ofDiagnostic).getD .null) = true
      rw [htime]
      exact isNumber_ofReal x
  diagnostics := by
    intro kv hkv
    cases hkv
    rfl

theorem decodes_ofState (h : s.Storable) : Decodes ArrayCodec.stored (ofState s) s := by
  have hdecode {o : Option StoredArray} (ho : ∀ a, o = some a → a.Floating) :
      ArrayCodec.decodeOption ArrayCodec.stored.decodeVector (ofArray o) = .ok o := by
    rw [decodeOption_stored, decode_ofArray ho]
  -- counts are not converted
  have htoCount {v : Value Float} (hv : ∃ n : Int, v = .int n ∧ 0 ≤ n) : v = toCount v := by
    obtain ⟨n, rfl, -⟩ := hv
    rfl
  obtain ⟨hparam, hprevParam, hbestParam, hgrad, hhessian⟩ := h.arrays
  obtain ⟨hcost, hprevCost, hbestCost, hprevBestCost, htargetCost⟩ := h.reals
  obtain ⟨hlastBestIter, hcurIter, hmaxIters⟩ := h.counts
  -- nothing that is written for a time is `null`
  have htime : timeOf (ofState s) = .ok s.time := by
    have hget : (ofState s).get "time" = (s.time.map ofDiagnostic).getD .null := rfl
    cases ht : s.time with
    | none =>
      rw [ht] at hget
      exact timeOf_of_null hget
    | some t =>
      rw [ht] at hget
      obtain ⟨x, rfl⟩ := h.time t ht
      have hne : (ofState s).get "time" ≠ .null := by
        rw [hget]
        exact ofReal_ne_null x
      have hreal : realOf (ofState s) "time" = .ok (.real x) := by
        rw [realOf, hget]
        exact toReal_ofDiagnostic ⟨x, rfl⟩
      rw [timeOf_of_ne_null hne, hreal]
      rfl
  have hkv : diagnosticsOf (ofState s) = .ok s.kv := by
    have hobject : (ofState s).get "kv" = .object (s.kv.map fun f => (f.1, ofDiagnostic f.2)) := rfl
    rw [diagnosticsOf_of_object hobject, mapM_eq_ok, List.forall₂_map_left_iff,
      List.forall₂_same]
    intro f hf
    rw [diagnosticOf, toDiagnostic_ofDiagnostic (h.kv f hf)]
    rfl
  exact {
    param := hdecode hparam, prevParam := hdecode hprevParam, bestParam := hdecode hbestParam
    grad := hdecode hgrad, hessian := hdecode hhessian, cost := toReal_ofDiagnostic hcost
    prevCost := toReal_ofDiagnostic hprevCost, bestCost := toReal_ofDiagnostic hbestCost
    prevBestCost := toReal_ofDiagnostic hprevBestCost
    targetCost := toReal_ofDiagnostic htargetCost, lastBestIter := htoCount hlastBestIter
    curIter := htoCount hcurIter, maxIters := htoCount hmaxIters, reason := rfl, time := htime
    kv := hkv }

/-! ### Finite numbers -/

theorem areStrict_eq_true {vs : List Document} :
    Json.areStrict vs = true ↔ ∀ v ∈ vs, Json.isStrict v = true := by
  induction vs with
  | nil => exact iff_of_true rfl nofun
  | cons v vs ih => rw [Json.areStrict, Bool.and_eq_true, ih, List.forall_mem_cons]

theorem fieldsStrict_eq_true {fs : List (String × Document)} :
    Json.fieldsStrict fs = true ↔ ∀ f ∈ fs, Json.isStrict f.2 = true := by
  induction fs with
  | nil => exact iff_of_true rfl nofun
  | cons f fs ih =>
    obtain ⟨k, v⟩ := f
    rw [Json.fieldsStrict, Bool.and_eq_true, ih, List.forall_mem_cons]

theorem isStrict_ofDiagnostic {v : Value Float} (h : v.isSimple = true) :
    Json.isStrict (ofDiagnostic v) = true := by
  cases v with
  | real x => exact isStrict_ofReal x
  | null | bool | int => rfl
  | text | list | object => cases h

/-- Items are strict if what computes them gives strict ones only. -/
theorem areStrict_of_mapM {α : Type} {f : α → Except (Fault Float) Document}
    (hf : ∀ x doc, f x = .ok doc → Json.isStrict doc = true) {xs : List α} {docs : List Document}
    (h : xs.mapM f = .ok docs) : Json.areStrict docs = true := by
  rw [mapM_eq_ok] at h
  induction h with
  | nil => rfl
  | cons hdoc _ ih => rw [Json.areStrict, hf _ _ hdoc, ih, Bool.and_self]

/-- An array is written without a number that is not finite, whatever its entries. -/
theorem isStrict_encode {a : StoredArray} {doc : Document} (h : a.encode = .ok doc) :
    Json.isStrict doc = true := by
  unfold StoredArray.encode at h
  obtain ⟨data, hdata, h⟩ := bind_eq_ok.mp h
  cases h
  have haxes : Json.areStrict (a.shape.map fun n : Nat => .int n) = true := by
    refine areStrict_eq_true.mpr fun v hv => ?_
    obtain ⟨n, -, rfl⟩ := List.mem_map.mp hv
    rfl
  have hentries : Json.areStrict data = true := by
    refine areStrict_of_mapM (fun e doc he => ?_) hdata
    obtain ⟨x, -, hx⟩ := bind_eq_ok.mp he
    cases hx
    exact isStrict_ofReal x
  refine fieldsStrict_eq_true.mpr ?_
  simp only [List.forall_mem_cons, List.not_mem_nil, false_imp_iff, implies_true, and_true]
  exact ⟨rfl, rfl, haxes, hentries⟩

theorem isStrict_ofArray {o : Option StoredArray} (h : ∀ a, o = some a → a.Floating) :
    Json.isStrict (ofArray o) = true := by
  cases o with
  | none => rfl
  | some a => exact isStrict_encode (StoredArray.encode_eq (h a rfl))

/-- No number that is not finite is written. -/
theorem isStrict_ofState (h : s.Storable) : Json.isStrict (ofState s) = true := by
  -- no number is written raw that the text could not hold
  have hreal {v : Value Float} (hv : ∃ x, v = .real x) : Json.isStrict (ofDiagnostic v) = true := by
    obtain ⟨x, rfl⟩ := hv
    exact isStrict_ofReal x
  have hint {v : Value Float} (hv : ∃ n : Int, v = .int n ∧ 0 ≤ n) : Json.isStrict v = true := by
    obtain ⟨n, rfl, -⟩ := hv
    rfl
  have htime : Json.isStrict ((s.time.map ofDiagnostic).getD .null) = true := by
    cases ht : s.time with
    | none => rfl
    | some t => exact hreal (h.time t ht)
  have hkv : Json.fieldsStrict (s.kv.map fun f => (f.1, ofDiagnostic f.2)) = true := by
    refine fieldsStrict_eq_true.mpr fun f hf => ?_
    obtain ⟨g, hg, rfl⟩ := List.mem_map.mp hf
    exact isStrict_ofDiagnostic (h.kv g hg)
  obtain ⟨hparam, hprevParam, hbestParam, hgrad, hhessian⟩ := h.arrays
  obtain ⟨hcost, hprevCost, hbestCost, hprevBestCost, htargetCost⟩ := h.reals
  obtain ⟨hlastBestIter, hcurIter, hmaxIters⟩ := h.counts
  refine fieldsStrict_eq_true.mpr ?_
  simp only [List.forall_mem_cons, List.not_mem_nil, false_imp_iff, implies_true, and_true]
  exact ⟨rfl, rfl, isStrict_ofArray hparam, isStrict_ofArray hprevParam,
    isStrict_ofArray hbestParam, isStrict_ofArray hgrad, isStrict_ofArray hhessian, hreal hcost,
    hreal hprevCost, hreal hbestCost, hreal hprevBestCost, hreal htargetCost, hint hlastBestIter,
    hint hcurIter, hint hmaxIters, rfl, htime, hkv⟩

/-- A storable state is written as a valid and strict document, from which it is read back. -/
theorem decodeState_ofState (h : s.Storable) : decodeState ArrayCodec.stored (ofState s) = .ok s :=
  decodeState_eq_ok.mpr ⟨valid_ofState h, decodes_ofState h⟩

end Document

end Descent
