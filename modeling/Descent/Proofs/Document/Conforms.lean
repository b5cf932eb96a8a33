import Descent.Proofs.Document.RoundTrip

/-!
# The published rules and validation

`Schema.state` is a list of rules, one for each field of a state document, and
`Schema.validateState` is a program.  `Schema.Conforms` reads the rules: a field may be absent if
its rule does not require it, and its value is of the type that the rule names, or null if the rule
takes null.

A document conforms exactly if it is valid and does not give its time as null
(`Schema.conforms_state_iff`).  The rule of the time does not take null, although validation does
and a state without a time is written with it; with a rule that does, the two agree on every
document (`Schema.conforms_timed_iff`).  So the document of a state conforms exactly if the state
has a time and its counts are not negative (`Schema.validateState_iff_conforms`).
-/

namespace Descent

open Act (bind_eq_ok length_of_mapM_eq_ok)

namespace Schema

/-! ### Reading the rules -/

/-- A value is of the type that a rule names, and among the values that the rule lists. -/
def Rule.Types (r : Rule) (x : Document) : Prop :=
  match r.type with
  | .string => ∃ s, x = .text s ∧ (∀ c ∈ r.constant, s = c) ∧ ∀ words ∈ r.options, s ∈ words
  | .number =>
    (∃ n : ℤ, x = .int n) ∨ (∃ y : Float, x = .real y) ∨ ∃ s ∈ specialWords, x = .text s
  | .integer => ∃ n : ℤ, x = .int n ∧ ∀ m ∈ r.least, m ≤ n
  | .array => ∃ fields p, x = .object fields ∧ Payload.In p fields ∧ p.Fits
  | .dict => ∃ fields, x = .object fields

/-- A rule allows the value of a field, or its absence. -/
def Rule.Allows (r : Rule) : Option Document → Prop
  | none => r.required = false
  | some x => r.Types x ∨ (r.nullable = true ∧ x = .null)

/-- A document is an object, each field of which is as its rule says. -/
def Conforms (rules : List (String × Rule)) (v : Document) : Prop :=
  v.isObject = true ∧ ∀ f ∈ rules, f.2.Allows (v.field? f.1)

/-- The rules with one that takes null for a field. -/
def withNull (field : String) (rules : List (String × Rule)) : List (String × Rule) :=
  rules.map fun f => if f.1 = field then (f.1, { f.2 with nullable := true }) else f

/-! ### Single rules -/

theorem isNumber_iff {x : Document} :
    isNumber x = true ↔
      (∃ n : ℤ, x = .int n) ∨ (∃ y : Float, x = .real y) ∨ ∃ s ∈ specialWords, x = .text s := by
  cases x with
  | int n => exact iff_of_true rfl (.inl ⟨n, rfl⟩)
  | real y => exact iff_of_true rfl (.inr (.inl ⟨y, rfl⟩))
  | text s => simp [isNumber]
  | null | bool | list | object => simp [isNumber]

theorem isCount_iff {x : Document} : isCount x = true ↔ ∃ n : ℤ, x = .int n ∧ 0 ≤ n := by
  cases x with
  | int n => simp [isCount]
  | null | bool | real | text | list | object => simp [isCount]

variable {v : Document} {o : Option Document}

theorem allows_required {r : Rule} (h : r.required = true) :
    r.Allows o ↔ ∃ x, o = some x ∧ (r.Types x ∨ (r.nullable = true ∧ x = .null)) := by
  cases o with
  | none => simp [Rule.Allows, h]
  | some x => simp [Rule.Allows]

theorem allows_number :
    ({ type := .number, required := true } : Rule).Allows o ↔
      ∃ x, o = some x ∧ isNumber x = true := by
  rw [allows_required rfl]
  simp [Rule.Types, isNumber_iff]

theorem allows_count :
    ({ type := .integer, required := true, least := some 0 } : Rule).Allows o ↔
      ∃ x, o = some x ∧ isCount x = true := by
  rw [allows_required rfl]
  simp [Rule.Types, isCount_iff]

theorem allows_array :
    ({ type := .array, required := true, nullable := true } : Rule).Allows o ↔
      ∃ x, o = some x ∧
        (x = .null ∨ ∃ fields p, x = .object fields ∧ Payload.In p fields ∧ p.Fits) := by
  rw [allows_required rfl]
  simp only [Rule.Types, true_and, or_comm]

theorem allows_constant {field c : String} :
    ({ type := .string, required := true, constant := some c } : Rule).Allows (v.field? field) ↔
      v.get field = .text c := by
  rw [allows_required rfl]
  constructor
  · rintro ⟨x, hx, ⟨s, rfl, hs, -⟩ | ⟨hnull, -⟩⟩
    · rw [Value.get_of_field? hx, hs c rfl]
    · cases hnull
  · intro h
    refine ⟨_, Value.field?_of_get h nofun, .inl ⟨c, rfl, ?_, nofun⟩⟩
    rintro _ ⟨⟩
    rfl

theorem allows_reason {field : String} :
    ({ type := .string, required := true, options := some (Reason.all.map Reason.label) } :
        Rule).Allows (v.field? field) ↔ ∃ r : Reason, v.get field = .text r.label := by
  rw [allows_required rfl]
  constructor
  · rintro ⟨x, hx, ⟨s, rfl, -, hs⟩ | ⟨hnull, -⟩⟩
    · obtain ⟨r, -, rfl⟩ := List.mem_map.mp (hs _ rfl)
      exact ⟨r, Value.get_of_field? hx⟩
    · cases hnull
  · rintro ⟨r, h⟩
    refine ⟨_, Value.field?_of_get h nofun, .inl ⟨r.label, rfl, nofun, ?_⟩⟩
    rintro _ ⟨⟩
    have hall : r ∈ Reason.all := by cases r <;> decide
    exact List.mem_map_of_mem hall

theorem allows_diagnostics :
    ({ type := .dict, required := false } : Rule).Allows o ↔
      ∀ kv, o = some kv → kv.isObject = true := by
  cases o with
  | none => simp [Rule.Allows]
  | some x => cases x <;> simp [Rule.Allows, Rule.Types, Value.isObject]

/-- A time may be absent, and null if its rule says so. -/
theorem allows_time {nullable : Bool} {field : String} :
    ({ type := .number, required := false, nullable } : Rule).Allows (v.field? field) ↔
      (v.get field = .null ∨ isNumber (v.get field) = true) ∧
        (nullable = false → v.field? field ≠ some .null) := by
  cases h : v.field? field with
  | none => simp [Rule.Allows, Value.get, h]
  | some x =>
    rw [Value.get_of_field? h, Option.some_inj.ne]
    have htypes : ({ type := .number, required := false, nullable } : Rule).Types x ↔
        isNumber x = true := isNumber_iff.symm
    rw [Rule.Allows, htypes]
    by_cases hx : x = .null
    · subst hx
      cases nullable <;> simp [isNumber]
    · simp [hx]

/-! ### All rules -/

/-- The rules of a state document, with the rule of its time taking null or not. -/
def rules (nullable : Bool) : List (String × Rule) :=
  [("version", { type := .string, required := true, constant := some documentVersion }),
    ("kind", { type := .string, required := true, constant := some "state" }),
    ("termination_reason",
      { type := .string, required := true, options := some (Reason.all.map Reason.label) }),
    ("time", { type := .number, required := false, nullable }),
    ("kv", { type := .dict, required := false })] ++
  numberFields.map (fun f => (f, { type := .number, required := true })) ++
  countFields.map (fun f => (f, { type := .integer, required := true, least := some 0 })) ++
  arrayFields.map (fun f => (f, { type := .array, required := true, nullable := true }))

theorem conforms_rules {nullable : Bool} :
    Conforms (rules nullable) v ↔
      Valid v ∧ (nullable = false → v.field? "time" ≠ some .null) := by
  unfold Conforms rules
  simp only [List.forall_mem_append, List.forall_mem_map, List.forall_mem_cons, List.not_mem_nil,
    false_imp_iff, implies_true, and_true, allows_constant, allows_reason, allows_time,
    allows_diagnostics, allows_number, allows_count, allows_array]
  constructor
  · rintro ⟨hobject, ⟨⟨⟨hversion, hkind, hreason, ⟨htime, hnull⟩, hkv⟩, hnumber⟩, hcount⟩, harray⟩
    exact ⟨⟨hobject, hversion, hkind, hnumber, hcount, harray, hreason, htime, hkv⟩, hnull⟩
  · rintro ⟨⟨hobject, hversion, hkind, hnumber, hcount, harray, hreason, htime, hkv⟩, hnull⟩
    exact ⟨hobject, ⟨⟨⟨hversion, hkind, hreason, ⟨htime, hnull⟩, hkv⟩, hnumber⟩, hcount⟩, harray⟩

/-- A document conforms exactly if it is valid and does not give its time as null. -/
theorem conforms_state_iff :
    Conforms state v ↔ validateState v = .ok () ∧ v.field? "time" ≠ some .null := by
  have hstate : state = rules false := rfl
  rw [hstate, conforms_rules, validateState_eq_ok, imp_iff_right rfl]

/-- Validation accepts exactly the documents that conform to the rules with a time that may be
null. -/
theorem conforms_timed_iff : Conforms (withNull "time" state) v ↔ validateState v = .ok () := by
  have hstate : withNull "time" state = rules true := rfl
  rw [hstate, conforms_rules, validateState_eq_ok]
  exact and_iff_left nofun

end Schema

/-! ### Documents of states -/

/-- There are as many entries as the shape asks for. -/
def StoredArray.Filled (a : StoredArray) : Prop := a.entries.length = Shape.size a.shape

/-- What is written of an array with as many entries as its shape asks for is an encoded array. -/
theorem StoredArray.exists_in_of_encode {a : StoredArray} (ha : a.Filled) {doc : Document}
    (h : a.encode = .ok doc) : ∃ fields p, doc = .object fields ∧ Payload.In p fields ∧ p.Fits := by
  unfold encode at h
  obtain ⟨data, hdata, h⟩ := bind_eq_ok.mp h
  cases h
  let p : Payload :=
    ⟨a.backend, .text a.element.label, a.shape.map fun n : Nat => .int n, data⟩
  refine ⟨_, p, rfl, Payload.in_fields p, _, mapM_axis? a.shape, ?_⟩
  rw [foldl_natCast]
  exact congrArg Nat.cast ((length_of_mapM_eq_ok hdata).trans ha)

/-- The codecs of arrays as they are stored and of measured values, each with the vectors and
matrices that have as many entries as their shapes ask for. -/
inductive ArrayCodec.Whole : {V M : Type} → ArrayCodec V M → (V → Prop) → (M → Prop) → Prop
  | stored : Whole ArrayCodec.stored StoredArray.Filled StoredArray.Filled
  | tensors : Whole ArrayCodec.tensors (fun t => (StoredArray.ofTensor t).Filled)
      fun h => ∀ t, h = .matrix t → (StoredArray.ofTensor t).Filled

variable {V M : Type} {codec : ArrayCodec V M} {vector : V → Prop} {matrix : M → Prop}

namespace ArrayCodec.Whole

theorem exists_in_of_encodeVector (hcodec : codec.Whole vector matrix) {x : V} (hx : vector x)
    {doc : Document} (h : codec.encodeVector x = .ok doc) :
    ∃ fields p, doc = .object fields ∧ Payload.In p fields ∧ p.Fits := by
  cases hcodec with
  | stored | tensors => exact StoredArray.exists_in_of_encode hx h

theorem exists_in_of_encodeMatrix (hcodec : codec.Whole vector matrix) {x : M} (hx : matrix x)
    {doc : Document} (h : codec.encodeMatrix x = .ok doc) :
    ∃ fields p, doc = .object fields ∧ Payload.In p fields ∧ p.Fits := by
  cases hcodec with
  | stored => exact StoredArray.exists_in_of_encode hx h
  | tensors =>
    cases x with
    | matrix t => exact StoredArray.exists_in_of_encode (hx t rfl) h
    | function => cases h

end ArrayCodec.Whole

/-- The arrays of a state are of these kinds. -/
structure State.Holds (vector : V → Prop) (matrix : M → Prop) (s : State Float V M) : Prop where
  vector : ∀ o ∈ [s.param, s.prevParam, s.bestParam, s.grad], ∀ x, o = some x → vector x
  matrix : ∀ x, s.hessian = some x → matrix x

/-- The counts of a state are not negative, as integers. -/
def State.Counts (s : State Float V M) : Prop :=
  ∀ v ∈ [s.lastBestIter, s.curIter, s.maxIters], ∃ n : ℤ, v.toInt = .ok n ∧ 0 ≤ n

namespace Document

theorem array_of_encodeOption {α : Type} {encode : α → Except (Fault Float) Document}
    {o : Option α} {doc : Document}
    (hencode : ∀ x, o = some x → ∀ doc, encode x = .ok doc →
      ∃ fields p, doc = .object fields ∧ Payload.In p fields ∧ p.Fits)
    (h : ArrayCodec.encodeOption encode o = .ok doc) :
    doc = .null ∨ ∃ fields p, doc = .object fields ∧ Payload.In p fields ∧ p.Fits := by
  cases o with
  | none =>
    cases h
    exact .inl rfl
  | some x => exact .inr (hencode x rfl doc h)

theorem isNumber_of_ofMeasured {v : Value Float} {doc : Document} (h : ofMeasured v = .ok doc) :
    Schema.isNumber doc = true ∧ doc ≠ .null := by
  obtain ⟨x, -, h⟩ := bind_eq_ok.mp h
  cases h
  exact ⟨isNumber_ofReal x, ofReal_ne_null x⟩

theorem isCount_of_ofCount {v : Value Float} {doc : Document} (h : ofCount v = .ok doc) :
    Schema.isCount doc = true ↔ ∃ n : ℤ, v.toInt = .ok n ∧ 0 ≤ n := by
  obtain ⟨n, hn, h⟩ := bind_eq_ok.mp h
  cases h
  simp [hn, Schema.isCount]

/-- Each field of a document is what is written of that of a state. -/
structure Encodes (codec : ArrayCodec V M) (s : State Float V M) (doc : Document) : Prop where
  isObject : doc.isObject = true
  version : doc.get "version" = .text documentVersion
  kind : doc.get "kind" = .text DocumentKind.state.label
  vector : ∀ f ∈ [("param", s.param), ("prev_param", s.prevParam), ("best_param", s.bestParam),
    ("grad", s.grad)], ∃ x, ArrayCodec.encodeOption codec.encodeVector f.2 = .ok x ∧
      doc.field? f.1 = some x
  matrix : ∃ x, ArrayCodec.encodeOption codec.encodeMatrix s.hessian = .ok x ∧
    doc.field? "hessian" = some x
  measured : ∀ f ∈ [("cost", s.cost), ("prev_cost", s.prevCost), ("best_cost", s.bestCost),
    ("prev_best_cost", s.prevBestCost), ("target_cost", s.targetCost)],
      ∃ x, ofMeasured f.2 = .ok x ∧ doc.field? f.1 = some x
  count : ∀ f ∈ [("last_best_iter", s.lastBestIter), ("cur_iter", s.curIter),
    ("max_iters", s.maxIters)], ∃ x, ofCount f.2 = .ok x ∧ doc.field? f.1 = some x
  reason : doc.get "termination_reason" = .text s.reason.label
  time : ∃ x, s.time.elim (.ok .null) ofMeasured = .ok x ∧ doc.field? "time" = some x
  kv : doc.field? "kv" = some (.object (s.kv.map fun f => (f.1, ofDiagnostic f.2)))

theorem encodes_of_encodeState {s : State Float V M} {doc : Document}
    (h : encodeState codec s = .ok doc) : Encodes codec s doc := by
  unfold encodeState at h
  obtain ⟨param, hparam, h⟩ := bind_eq_ok.mp h
  obtain ⟨prevParam, hprevParam, h⟩ := bind_eq_ok.mp h
  obtain ⟨bestParam, hbestParam, h⟩ := bind_eq_ok.mp h
  obtain ⟨grad, hgrad, h⟩ := bind_eq_ok.mp h
  obtain ⟨hessian, hhessian, h⟩ := bind_eq_ok.mp h
  obtain ⟨cost, hcost, h⟩ := bind_eq_ok.mp h
  obtain ⟨prevCost, hprevCost, h⟩ := bind_eq_ok.mp h
  obtain ⟨bestCost, hbestCost, h⟩ := bind_eq_ok.mp h
  obtain ⟨prevBestCost, hprevBestCost, h⟩ := bind_eq_ok.mp h
  obtain ⟨targetCost, htargetCost, h⟩ := bind_eq_ok.mp h
  obtain ⟨lastBestIter, hlastBestIter, h⟩ := bind_eq_ok.mp h
  obtain ⟨curIter, hcurIter, h⟩ := bind_eq_ok.mp h
  obtain ⟨maxIters, hmaxIters, h⟩ := bind_eq_ok.mp h
  -- the time is written only if it is there
  have htime : ∃ time, s.time.elim (.ok .null) ofMeasured = .ok time ∧ doc = .object [
      ("version", .text documentVersion), ("kind", .text DocumentKind.state.label),
      ("param", param), ("prev_param", prevParam), ("best_param", bestParam), ("grad", grad),
      ("hessian", hessian), ("cost", cost), ("prev_cost", prevCost), ("best_cost", bestCost),
      ("prev_best_cost", prevBestCost), ("target_cost", targetCost),
      ("last_best_iter", lastBestIter), ("cur_iter", curIter), ("max_iters", maxIters),
      ("termination_reason", .text s.reason.label), ("time", time),
      ("kv", .object (s.kv.map fun f => (f.1, ofDiagnostic f.2)))] := by
    cases ht : s.time with
    | none =>
      rw [ht] at h
      cases h
      exact ⟨.null, rfl, rfl⟩
    | some t =>
      rw [ht] at h
      obtain ⟨time, htime, h⟩ := bind_eq_ok.mp h
      cases h
      exact ⟨time, htime, rfl⟩
  obtain ⟨time, htime, rfl⟩ := htime
  refine ⟨rfl, rfl, rfl, ?_, ⟨_, hhessian, rfl⟩, ?_, ?_, rfl, ⟨_, htime, rfl⟩, rfl⟩
  · simp only [List.forall_mem_cons, List.not_mem_nil, false_imp_iff, implies_true, and_true]
    exact ⟨⟨_, hparam, rfl⟩, ⟨_, hprevParam, rfl⟩, ⟨_, hbestParam, rfl⟩, ⟨_, hgrad, rfl⟩⟩
  · simp only [List.forall_mem_cons, List.not_mem_nil, false_imp_iff, implies_true, and_true]
    exact ⟨⟨_, hcost, rfl⟩, ⟨_, hprevCost, rfl⟩, ⟨_, hbestCost, rfl⟩, ⟨_, hprevBestCost, rfl⟩,
      ⟨_, htargetCost, rfl⟩⟩
  · simp only [List.forall_mem_cons, List.not_mem_nil, false_imp_iff, implies_true, and_true]
    exact ⟨⟨_, hlastBestIter, rfl⟩, ⟨_, hcurIter, rfl⟩, ⟨_, hmaxIters, rfl⟩⟩

namespace Encodes

variable {s : State Float V M} {doc : Document}

/-- The time that is written is null exactly if there is none. -/
theorem time_cases (h : Encodes codec s doc) :
    (doc.get "time" = .null ∨ Schema.isNumber (doc.get "time") = true) ∧
      (doc.field? "time" = some .null ↔ s.time = none) := by
  obtain ⟨time, htime, hfield⟩ := h.time
  rw [Value.get_of_field? hfield, hfield, Option.some_inj]
  cases ht : s.time with
  | none =>
    rw [ht] at htime
    cases htime
    exact ⟨.inl rfl, iff_of_true rfl rfl⟩
  | some t =>
    rw [ht] at htime
    obtain ⟨hnumber, hne⟩ := isNumber_of_ofMeasured htime
    exact ⟨.inr hnumber, iff_of_false hne nofun⟩

theorem number (h : Encodes codec s doc) :
    ∀ field ∈ Schema.numberFields, ∃ x, doc.field? field = some x ∧ Schema.isNumber x = true := by
  have hfields : Schema.numberFields = [("cost", s.cost), ("prev_cost", s.prevCost),
      ("best_cost", s.bestCost), ("prev_best_cost", s.prevBestCost),
      ("target_cost", s.targetCost)].map Prod.fst := rfl
  rw [hfields, List.forall_mem_map]
  intro f hf
  obtain ⟨x, hx, hfield⟩ := h.measured f hf
  exact ⟨x, hfield, (isNumber_of_ofMeasured hx).1⟩

theorem count_iff (h : Encodes codec s doc) :
    (∀ field ∈ Schema.countFields, ∃ x, doc.field? field = some x ∧ Schema.isCount x = true) ↔
      s.Counts := by
  let counts := [("last_best_iter", s.lastBestIter), ("cur_iter", s.curIter),
    ("max_iters", s.maxIters)]
  have hfields : Schema.countFields = counts.map Prod.fst := rfl
  have hvalues : s.Counts ↔
      ∀ v ∈ counts.map Prod.snd, ∃ n : ℤ, v.toInt = .ok n ∧ 0 ≤ n := Iff.rfl
  rw [hfields, hvalues, List.forall_mem_map, List.forall_mem_map]
  refine forall₂_congr fun f hf => ?_
  obtain ⟨x, hx, hfield⟩ := h.count f hf
  rw [← isCount_of_ofCount hx, hfield]
  simp only [Option.some_inj, exists_eq_left']

theorem array (h : Encodes codec s doc) (hcodec : codec.Whole vector matrix)
    (hs : s.Holds vector matrix) :
    ∀ field ∈ Schema.arrayFields, ∃ x, doc.field? field = some x ∧
      (x = .null ∨ ∃ fields p, x = .object fields ∧ Payload.In p fields ∧ p.Fits) := by
  let vectors := [("param", s.param), ("prev_param", s.prevParam), ("best_param", s.bestParam),
    ("grad", s.grad)]
  have hfields : Schema.arrayFields = vectors.map Prod.fst ++ ["hessian"] := rfl
  rw [hfields, List.forall_mem_append, List.forall_mem_map, List.forall_mem_singleton]
  constructor
  · intro f hf
    obtain ⟨x, hx, hfield⟩ := h.vector f hf
    have hf' : f.2 ∈ vectors.map Prod.snd := List.mem_map_of_mem hf
    refine ⟨x, hfield, array_of_encodeOption (fun a ha _ => ?_) hx⟩
    exact hcodec.exists_in_of_encodeVector (hs.vector f.2 hf' a ha)
  · obtain ⟨x, hx, hfield⟩ := h.matrix
    refine ⟨x, hfield, array_of_encodeOption (fun a ha _ => ?_) hx⟩
    exact hcodec.exists_in_of_encodeMatrix (hs.matrix a ha)

/-- What is written of a state is valid exactly if its counts are not negative. -/
theorem valid_iff (h : Encodes codec s doc) (hcodec : codec.Whole vector matrix)
    (hs : s.Holds vector matrix) : Schema.Valid doc ↔ s.Counts := by
  rw [← h.count_iff]
  refine ⟨fun hvalid => hvalid.count, fun hcount => ?_⟩
  refine ⟨h.isObject, h.version, h.kind, h.number, hcount, h.array hcodec hs,
    ⟨s.reason, h.reason⟩, h.time_cases.1, fun kv hkv => ?_⟩
  rw [h.kv] at hkv
  cases hkv
  rfl

end Encodes

end Document

namespace Schema

/-- Validation and the published rules agree on every document except for a time that is null,
which validation accepts and the rules do not take.  Rules that take it describe validation
exactly.  What is written of a state, with arrays that have as many entries as their shapes ask
for, is valid exactly if its counts are not negative, and conforms to the published rules exactly
if the state has a time as well. -/
theorem validateState_iff_conforms (hcodec : codec.Whole vector matrix) :
    (∀ v, Conforms state v ↔ validateState v = .ok () ∧ v.field? "time" ≠ some .null) ∧
    (∀ v, validateState v = .ok () ↔ Conforms (withNull "time" state) v) ∧
    ∀ s : State Float V M, s.Holds vector matrix → ∀ doc,
      Document.encodeState codec s = .ok doc →
        (validateState doc = .ok () ↔ s.Counts) ∧
        (Conforms state doc ↔ s.Counts ∧ s.time ≠ none) := by
  refine ⟨fun v => conforms_state_iff, fun v => conforms_timed_iff.symm, fun s hs doc hdoc => ?_⟩
  have hencodes := Document.encodes_of_encodeState hdoc
  have haccepted : validateState doc = .ok () ↔ s.Counts :=
    validateState_eq_ok.trans (hencodes.valid_iff hcodec hs)
  refine ⟨haccepted, ?_⟩
  rw [conforms_state_iff, haccepted, Ne, hencodes.time_cases.2]

/-- What is written of a new state is accepted by validation and does not conform to the published
rules; with a time it conforms. -/
theorem validateState_iff_conforms_new :
    ∃ fresh timed : Document,
      Document.encodeState ArrayCodec.stored {} = .ok fresh ∧ validateState fresh = .ok () ∧
        ¬ Conforms state fresh ∧
      Document.encodeState ArrayCodec.stored { time := some (.real 1.5) } = .ok timed ∧
        Conforms state timed := by
  have hstorable (time : Option (Value Float)) (h : ∀ t, time = some t → ∃ x, t = .real x) :
      State.Storable { time } := by
    refine ⟨by simp, by simp, ?_, h, nofun⟩
    simpa using (by decide : 0 ≤ unlimited)
  have hholds (time : Option (Value Float)) :
      State.Holds StoredArray.Filled StoredArray.Filled { time } := ⟨by simp, nofun⟩
  have hcounts (time : Option (Value Float)) :
      State.Counts ({ time } : State Float StoredArray StoredArray) := by
    rintro v hv
    simp only [List.mem_cons, List.not_mem_nil, or_false] at hv
    rcases hv with rfl | rfl | rfl
    · exact ⟨0, rfl, le_rfl⟩
    · exact ⟨0, rfl, le_rfl⟩
    · exact ⟨unlimited, rfl, by decide⟩
  -- the two states differ in their time only, which is what the schema asks for
  obtain ⟨-, -, hwritten⟩ := validateState_iff_conforms ArrayCodec.Whole.stored
  have hfresh := Document.encodeState_eq (hstorable none nofun)
  have htimed := Document.encodeState_eq (hstorable (some (.real 1.5)) (by simp))
  obtain ⟨haccepted, hconforms⟩ := hwritten {} (hholds none) _ hfresh
  obtain ⟨-, hconforms'⟩ := hwritten _ (hholds (some (.real 1.5))) _ htimed
  refine ⟨_, _, hfresh, haccepted.mpr (hcounts none), ?_, htimed, hconforms'.mpr ⟨hcounts _, nofun⟩⟩
  exact fun h => (hconforms.mp h).2 rfl

end Schema

end Descent
