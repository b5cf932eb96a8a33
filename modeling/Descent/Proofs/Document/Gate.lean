import Descent.Proofs.Document.State

/-!
# What validation leaves open

Reading a state document fails in more ways than validation finds, and validation itself can fail
on a value it did not foresee.  `Document.decodeState_outcome` is the whole story for documents
whose arrays name floating types: a state is read exactly from the valid documents that are
`Document.Readable`, and what is refused is refused for a wrong value except where a value of a
wrong type (`Document.Mistyped`) or an integer out of range (`Document.Oversized`) was met.
-/

namespace Descent

open Act

/-- Fields are those of one payload. -/
theorem Payload.In.unique {p q : Payload} {fields : List (String × Document)} (hp : p.In fields)
    (hq : q.In fields) : p = q := by
  have hlabel : p.backend.label = q.backend.label :=
    Value.text.inj (Option.some_inj.mp (hp.backend.symm.trans hq.backend))
  have hbackend : p.backend = q.backend := by
    have h : Backend.ofLabel? p.backend.label = some q.backend :=
      Backend.ofLabel?_eq_some.mpr hlabel
    exact Option.some_inj.mp ((Backend.ofLabel?_eq_some.mpr rfl).symm.trans h)
  have helement := Option.some_inj.mp (hp.element.symm.trans hq.element)
  have haxes := Value.list.inj (Option.some_inj.mp (hp.axes.symm.trans hq.axes))
  have hentries := Value.list.inj (Option.some_inj.mp (hp.entries.symm.trans hq.entries))
  cases p
  cases q
  simp_all

namespace Document

variable {v : Document}

/-- The document holds an encoded array under the name of a field. -/
def Holds (v : Document) (field : String) (p : Payload) : Prop :=
  ∃ fields, v.field? field = some (.object fields) ∧ p.In fields

theorem Holds.unique {field : String} {p q : Payload} (hp : Holds v field p)
    (hq : Holds v field q) : p = q := by
  obtain ⟨fields, hv, hp⟩ := hp
  obtain ⟨fields', hv', hq⟩ := hq
  cases hv.symm.trans hv'
  exact hp.unique hq

/-- Every array of the document that names a type names a floating one. -/
def NamesFloating (v : Document) : Prop :=
  ∀ field ∈ Schema.arrayFields, ∀ p, Holds v field p → p.NamesFloating

/-- The fields that are measured values, if they are there. -/
def measuredFields : List String := "time" :: Schema.numberFields

/-- What reading a state takes beyond what validation asks for: every array is readable, every
integer among the measured values is in range, and every diagnostic that is a text stands for a
measured value. -/
structure Readable (v : Document) : Prop where
  array : ∀ field ∈ Schema.arrayFields, ∀ p, Holds v field p → p.Readable
  number : ∀ field ∈ measuredFields, ∀ n, v.field? field = some (.int n) →
    (Binary.ofInt? n).isSome = true
  diagnostic : ∀ fields, v.field? "kv" = some (.object fields) →
    ∀ key s, (key, .text s) ∈ fields → (Text.measured? s).isSome = true

/-- A value of a type that validation cannot handle, or that reading cannot although validation
can. -/
inductive Mistyped (v : Document) : Prop where
  | unforeseen (h : Schema.Unforeseen v)
  | array {field : String} {p : Payload} (hfield : field ∈ Schema.arrayFields)
      (hp : Holds v field p) (h : p.Mistyped)

/-- An integer beyond the range of measured values where one is wanted. -/
inductive Oversized (v : Document) : Prop where
  | array {field : String} {p : Payload} (hfield : field ∈ Schema.arrayFields)
      (hp : Holds v field p) (h : p.Oversized)
  | number {field : String} {n : Int} (hfield : field ∈ measuredFields)
      (hv : v.field? field = some (.int n)) (h : Binary.ofInt? n = none)

/-- The fault is one for a wrong value, or there is a value of a wrong type or an integer out of
range to account for it. -/
def Explains (v : Document) (f : Fault Float) : Prop :=
  f.kind = "ValueError" ∨ (f.kind = "TypeError" ∧ Mistyped v) ∨
    (f.kind = "OverflowError" ∧ Oversized v)

/-! ### Arrays -/

/-- An array field of a valid document holds nothing, or a payload and is read as it is. -/
theorem decode_field {field : String} (hv : Schema.Valid v) (hfield : field ∈ Schema.arrayFields) :
    ((∀ p, ¬ Holds v field p) ∧ StoredArray.decode (v.get field) = .ok none) ∨
      ∃ p, Holds v field p ∧ p.Fits ∧ StoredArray.decode (v.get field) = some <$> p.decode := by
  obtain ⟨x, hx, rfl | ⟨fields, p, rfl, hin, hfits⟩⟩ := hv.array field hfield
  · left
    refine ⟨fun p ⟨fields, h, _⟩ => ?_, ?_⟩
    · rw [hx] at h
      cases h
    · rw [Value.get, hx]
      rfl
  · right
    refine ⟨p, ⟨fields, hx, hin⟩, hfits, ?_⟩
    rw [Value.get, hx, Option.getD_some, StoredArray.decode, Payload.decodeFields_eq hin]
    cases p.decode <;> rfl

theorem exists_decode_field {field : String} (hv : Schema.Valid v) (hname : NamesFloating v)
    (hfield : field ∈ Schema.arrayFields) :
    (∃ a, StoredArray.decode (v.get field) = .ok a) ↔ ∀ p, Holds v field p → p.Readable := by
  rcases decode_field hv hfield with ⟨hnone, h⟩ | ⟨p, hp, hfits, h⟩
  · exact iff_of_true ⟨none, h⟩ fun p hp => absurd hp (hnone p)
  · have hread := Payload.exists_decode hfits (hname field hfield p hp)
    rw [h]
    constructor
    · rintro ⟨a, ha⟩ q hq
      rw [hq.unique hp]
      cases hd : p.decode with
      | error f => rw [hd] at ha; cases ha
      | ok b => exact hread.mp ⟨b, hd⟩
    · intro hall
      obtain ⟨b, hb⟩ := hread.mpr (hall p hp)
      exact ⟨some b, by rw [hb]; rfl⟩

theorem raises_decode_field {field : String} (hv : Schema.Valid v) (hname : NamesFloating v)
    (hfield : field ∈ Schema.arrayFields) :
    Raises (Explains v) (StoredArray.decode (v.get field)) := by
  rcases decode_field hv hfield with ⟨-, h⟩ | ⟨p, hp, hfits, h⟩
  · rw [h]
    exact .ok _
  · have hraises := Payload.raises_decode hfits (hname field hfield p hp)
    rw [h]
    cases hd : p.decode with
    | ok b => exact .ok _
    | error f =>
      refine .error ((hraises f hd).imp_right (Or.imp ?_ ?_))
      · exact fun ⟨hf, h⟩ => ⟨hf, .array hfield hp h⟩
      · exact fun ⟨hf, h⟩ => ⟨hf, .array hfield hp h⟩

/-! ### Measured values -/

/-- The words for values that are not finite stand for measured values. -/
theorem standsForReal_of_isNumber {x : Document} (h : Schema.isNumber x = true) :
    standsForReal x = true ↔ ∀ n, x = .int n → (Binary.ofInt? n).isSome = true := by
  cases x with
  | int n => simp [standsForReal]
  | real x => exact iff_of_true rfl fun _ hn => by cases hn
  | text s =>
    refine iff_of_true ?_ fun _ hn => by cases hn
    have hs : s = "nan" ∨ s = "inf" ∨ s = "-inf" := by
      simpa [Schema.isNumber, Schema.specialWords] using h
    rcases hs with rfl | rfl | rfl <;> decide +kernel
  | null | bool | list | object => cases h

theorem exists_realOf {field : String} (h : Schema.isNumber (v.get field) = true) :
    (∃ y, realOf v field = .ok y) ↔
      ∀ n, v.field? field = some (.int n) → (Binary.ofInt? n).isSome = true := by
  rw [realOf, exists_bind_pure_eq_ok, exists_toReal, standsForReal_of_isNumber h]
  refine forall_congr' fun n => imp_congr_left ?_
  exact ⟨fun hn => Value.field?_of_get hn nofun, Value.get_of_field?⟩

theorem raises_realOf {field : String} (hfield : field ∈ measuredFields)
    (h : Schema.isNumber (v.get field) = true) : Raises (Explains v) (realOf v field) := by
  refine Raises.bind ((Payload.raises_toReal _).mono ?_) fun _ _ => .ok _
  rintro f (hf | ⟨-, hnumber, htext⟩ | ⟨hf, n, hn, hof⟩)
  · exact .inl hf
  · generalize v.get field = x at h hnumber htext
    cases x with
    | int | real => cases hnumber
    | text => cases htext
    | null | bool | list | object => cases h
  · exact .inr (.inr ⟨hf, .number hfield (Value.field?_of_get hn nofun) hof⟩)

theorem isNumber_get {field : String} (hv : Schema.Valid v) (hfield : field ∈ Schema.numberFields) :
    Schema.isNumber (v.get field) = true := by
  obtain ⟨x, hx, hnumber⟩ := hv.number field hfield
  rw [Value.get, hx]
  exact hnumber

/-! ### Time and diagnostics -/

theorem exists_timeOf (hv : Schema.Valid v) :
    (∃ t, timeOf v = .ok t) ↔
      ∀ n, v.field? "time" = some (.int n) → (Binary.ofInt? n).isSome = true := by
  by_cases ht : v.get "time" = .null
  · refine iff_of_true ⟨none, timeOf_of_null ht⟩ fun n hn => ?_
    rw [Value.get_of_field? hn] at ht
    cases ht
  · rw [timeOf_of_ne_null ht, exists_bind_pure_eq_ok]
    exact exists_realOf (hv.time.resolve_left ht)

theorem raises_timeOf (hv : Schema.Valid v) : Raises (Explains v) (timeOf v) := by
  by_cases ht : v.get "time" = .null
  · rw [timeOf_of_null ht]
    exact .ok _
  · rw [timeOf_of_ne_null ht]
    exact Raises.bind (raises_realOf List.mem_cons_self (hv.time.resolve_left ht)) fun _ _ => .ok _

theorem exists_diagnosticOf {key : String} {x : Document} :
    (∃ y, diagnosticOf (key, x) = .ok y) ↔
      ∀ s, x = .text s → (Text.measured? s).isSome = true := by
  cases x with
  | text s =>
    rw [diagnosticOf, exists_bind_pure_eq_ok, toDiagnostic, exists_bind_pure_eq_ok, exists_toReal]
    simp [standsForReal]
  | null | bool | int | real | list | object =>
    exact iff_of_true ⟨_, rfl⟩ fun _ hs => by cases hs

theorem exists_diagnosticsOf :
    (∃ kv, diagnosticsOf v = .ok kv) ↔
      ∀ fields, v.field? "kv" = some (.object fields) →
        ∀ key s, (key, .text s) ∈ fields → (Text.measured? s).isSome = true := by
  cases hkv : v.get "kv" with
  | object fields =>
    rw [diagnosticsOf_of_object hkv, exists_mapM_eq_ok, Value.field?_of_get hkv nofun]
    constructor
    · rintro h _ hfields key s hs
      cases hfields
      exact exists_diagnosticOf.mp (h _ hs) s rfl
    · rintro h ⟨key, x⟩ hx
      refine exists_diagnosticOf.mpr fun s hs => ?_
      exact h fields rfl key s (hs ▸ hx)
  | null | bool | int | real | text | list =>
    -- nothing but an object holds diagnostics, and nothing is read from the rest
    refine iff_of_true ⟨[], diagnosticsOf_of_not_object ?_⟩ fun fields hf => ?_
    · rw [hkv]
      exact nofun
    · rw [Value.get_of_field? hf] at hkv
      cases hkv

theorem raises_diagnosticsOf : Raises (Explains v) (diagnosticsOf v) := by
  unfold diagnosticsOf
  split
  · refine Raises.mapM fun x _ => Raises.bind ?_ fun _ _ => .ok _
    unfold toDiagnostic
    split
    · refine Raises.bind ((Payload.raises_toReal _).mono ?_) fun _ _ => .ok _
      rintro f (hf | ⟨-, -, htext⟩ | ⟨-, n, hn, -⟩)
      · exact .inl hf
      · cases htext
      · cases hn
    · exact .ok _
  · exact .ok _

/-! ### The outcome -/

/-- The parts of a document are read exactly if there is a state that they are the fields of. -/
theorem exists_decodes (hv : Schema.Valid v) :
    (∃ s, Decodes ArrayCodec.stored v s) ↔
      (∀ field ∈ Schema.arrayFields, ∃ a, StoredArray.decode (v.get field) = .ok a) ∧
      (∀ field ∈ Schema.numberFields, ∃ y, realOf v field = .ok y) ∧
      (∃ t, timeOf v = .ok t) ∧ ∃ kv, diagnosticsOf v = .ok kv := by
  simp only [Schema.arrayFields, Schema.numberFields, List.forall_mem_cons, List.not_mem_nil,
    false_imp_iff, implies_true, and_true, ← decodeOption_stored]
  constructor
  · rintro ⟨s, h⟩
    exact ⟨⟨⟨_, h.param⟩, ⟨_, h.prevParam⟩, ⟨_, h.bestParam⟩, ⟨_, h.grad⟩, ⟨_, h.hessian⟩⟩,
      ⟨⟨_, h.cost⟩, ⟨_, h.prevCost⟩, ⟨_, h.bestCost⟩, ⟨_, h.prevBestCost⟩, ⟨_, h.targetCost⟩⟩,
      ⟨_, h.time⟩, ⟨_, h.kv⟩⟩
  · rintro ⟨⟨⟨param, hparam⟩, ⟨prevParam, hprevParam⟩, ⟨bestParam, hbestParam⟩, ⟨grad, hgrad⟩,
      ⟨hessian, hhessian⟩⟩, ⟨⟨cost, hcost⟩, ⟨prevCost, hprevCost⟩, ⟨bestCost, hbestCost⟩,
      ⟨prevBestCost, hprevBestCost⟩, ⟨targetCost, htargetCost⟩⟩, ⟨time, htime⟩, ⟨kv, hkv⟩⟩
    obtain ⟨reason, hreason⟩ := hv.reason
    exact ⟨{
        param, prevParam, bestParam, grad, hessian, cost, prevCost, bestCost, prevBestCost
        targetCost, reason, time, kv
        lastBestIter := toCount (v.get "last_best_iter")
        curIter := toCount (v.get "cur_iter")
        maxIters := toCount (v.get "max_iters") },
      ⟨hparam, hprevParam, hbestParam, hgrad, hhessian, hcost, hprevCost, hbestCost,
        hprevBestCost, htargetCost, rfl, rfl, rfl, hreason, htime, hkv⟩⟩

/-- A state is read exactly from the documents that are valid and readable. -/
theorem exists_decodeState (hname : NamesFloating v) :
    (∃ s, decodeState ArrayCodec.stored v = .ok s) ↔
      Schema.validateState v = .ok () ∧ Readable v := by
  simp only [decodeState_eq_ok, Schema.validateState_eq_ok, exists_and_left]
  refine and_congr_right fun hv => (exists_decodes hv).trans ?_
  -- what each field needs is said field by field
  have harray : (∀ field ∈ Schema.arrayFields, ∃ a, StoredArray.decode (v.get field) = .ok a) ↔
      ∀ field ∈ Schema.arrayFields, ∀ p, Holds v field p → p.Readable :=
    forall₂_congr fun _ hfield => exists_decode_field hv hname hfield
  have hnumber : (∀ field ∈ Schema.numberFields, ∃ y, realOf v field = .ok y) ↔
      ∀ field ∈ Schema.numberFields, ∀ n, v.field? field = some (.int n) →
        (Binary.ofInt? n).isSome = true :=
    forall₂_congr fun _ hfield => exists_realOf (isNumber_get hv hfield)
  rw [harray, hnumber, exists_timeOf hv, exists_diagnosticsOf]
  constructor
  · rintro ⟨ha, hn, ht, hd⟩
    exact ⟨ha, List.forall_mem_cons.mpr ⟨ht, hn⟩, hd⟩
  · rintro ⟨ha, hn, hd⟩
    exact ⟨ha, (List.forall_mem_cons.mp hn).2, (List.forall_mem_cons.mp hn).1, hd⟩

theorem raises_decodeState (hname : NamesFloating v) :
    Raises (Explains v) (decodeState ArrayCodec.stored v) := by
  rw [decodeState_eq]
  refine Raises.bind ((Schema.raises_validateState v).mono ?_) fun _ hvalid => ?_
  · exact fun f hf => hf.imp_right fun ⟨hkind, h⟩ => .inl ⟨hkind, .unforeseen h⟩
  have hv : Schema.Valid v := Schema.validateState_eq_ok.mp hvalid
  have harray {field : String} (hfield : field ∈ Schema.arrayFields) : Raises (Explains v)
      (ArrayCodec.decodeOption ArrayCodec.stored.decodeVector (v.get field)) := by
    rw [decodeOption_stored]
    exact raises_decode_field hv hname hfield
  have hreal {field : String} (hfield : field ∈ Schema.numberFields) :
      Raises (Explains v) (realOf v field) :=
    raises_realOf (List.mem_cons_of_mem _ hfield) (isNumber_get hv hfield)
  -- the fields in the order in which they are read: arrays, numbers, time, diagnostics
  refine (harray (by decide)).bind fun _ _ => ?_
  refine (harray (by decide)).bind fun _ _ => ?_
  refine (harray (by decide)).bind fun _ _ => ?_
  refine (harray (by decide)).bind fun _ _ => ?_
  refine Raises.bind (harray (by decide)) fun _ _ => ?_
  refine (hreal (by decide)).bind fun _ _ => ?_
  refine (hreal (by decide)).bind fun _ _ => ?_
  refine (hreal (by decide)).bind fun _ _ => ?_
  refine (hreal (by decide)).bind fun _ _ => ?_
  refine (hreal (by decide)).bind fun _ _ => ?_
  refine (raises_timeOf hv).bind fun _ _ => ?_
  exact raises_diagnosticsOf.bind fun _ _ => .ok _

/-- The outcome of reading a document whose arrays name floating types.  A state is read exactly
if the document is valid and readable, and a refusal is one for a wrong value unless a value of a
wrong type or an integer out of range accounts for it. -/
theorem decodeState_outcome (v : Document) (hname : NamesFloating v) :
    ((∃ s, decodeState ArrayCodec.stored v = .ok s) ↔
      Schema.validateState v = .ok () ∧ Readable v) ∧
    ∀ f, decodeState ArrayCodec.stored v = .error f →
      f.kind = "ValueError" ∨ (f.kind = "TypeError" ∧ Mistyped v) ∨
        (f.kind = "OverflowError" ∧ Oversized v) :=
  ⟨exists_decodeState hname, raises_decodeState hname⟩

/-- The document of a state without arrays, with a reason and diagnostics. -/
def bare (reason kv : Document) : Document :=
  .object [
    ("version", .text documentVersion), ("kind", .text DocumentKind.state.label),
    ("param", .null), ("prev_param", .null), ("best_param", .null), ("grad", .null),
    ("hessian", .null), ("cost", .text "nan"), ("prev_cost", .text "nan"),
    ("best_cost", .text "inf"), ("prev_best_cost", .text "inf"), ("target_cost", .text "-inf"),
    ("last_best_iter", .int 0), ("cur_iter", .int 0), ("max_iters", .int 1000),
    ("termination_reason", reason), ("time", .null), ("kv", kv)]

theorem namesFloating_bare (reason kv : Document) : NamesFloating (bare reason kv) := by
  intro field hfield p hp
  obtain ⟨fields, hv, -⟩ := hp
  simp only [Schema.arrayFields, List.mem_cons, List.not_mem_nil, or_false] at hfield
  rcases hfield with rfl | rfl | rfl | rfl | rfl <;> cases hv

/-- A reason that is a list is refused for its type, and a valid document with a diagnostic that
is a word is not read. -/
theorem decodeState_outcome_bare :
    decodeState ArrayCodec.stored (bare (.list []) (.object [])) = .error .wrongType ∧
      Mistyped (bare (.list []) (.object [])) ∧
      (let v := bare (.text "converged") (.object [("note", .text "word")])
       Schema.validateState v = .ok () ∧ ¬ ∃ s, decodeState ArrayCodec.stored v = .ok s) := by
  have hfault : decodeState ArrayCodec.stored (bare (.list []) (.object [])) =
      .error .wrongType := rfl
  refine ⟨hfault, ?_, rfl, fun hs => ?_⟩
  · have h := (decodeState_outcome _ (namesFloating_bare _ _)).2 _ hfault
    rcases h with h | ⟨-, h⟩ | ⟨h, -⟩
    · exact absurd h (by decide)
    · exact h
    · exact absurd h (by decide)
  · obtain ⟨-, hread⟩ := (decodeState_outcome _ (namesFloating_bare _ _)).1.mp hs
    have h := hread.diagnostic _ rfl "note" "word" List.mem_cons_self
    exact absurd h (by decide +kernel)

end Document

end Descent
