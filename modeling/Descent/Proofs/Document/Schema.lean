import Descent.Document.Schema
import Descent.Proofs.Act.Result

/-!
# What a valid document is

`Schema.Valid` says what a state document holds, and `Schema.validateState_eq_ok` that validation
accepts exactly these documents; of an array it says that there is a `Payload` whose entries are as
many as its shape asks for.  A document that is refused is refused for a wrong value, except where
validation itself meets a value that it cannot look up or measure (`Schema.Unforeseen`,
`Schema.raises_validateState`).
-/

namespace Descent

theorem Value.get_of_field? {v x : Document} {key : String} (h : v.field? key = some x) :
    v.get key = x := by
  rw [Value.get, h]
  rfl

theorem Value.field?_of_get {v x : Document} {key : String} (h : v.get key = x)
    (hx : x ≠ .null) : v.field? key = some x := by
  unfold Value.get at h
  cases hv : v.field? key with
  | none =>
    rw [hv] at h
    exact absurd h.symm hx
  | some y =>
    rw [hv] at h
    exact congrArg some h

theorem Reason.ofLabel?_eq_some {s : String} {r : Reason} :
    Reason.ofLabel? s = some r ↔ s = r.label := by
  unfold ofLabel?
  constructor
  · intro h
    exact (eq_of_beq (List.find?_some (p := fun q : Reason => q.label == s) h)).symm
  · rintro rfl
    cases r <;> rfl

@[simp]
theorem Reason.ofLabel?_label (r : Reason) : Reason.ofLabel? r.label = some r :=
  ofLabel?_eq_some.mpr rfl

theorem Backend.ofLabel?_eq_some {s : String} {b : Backend} :
    Backend.ofLabel? s = some b ↔ s = b.label := by
  unfold ofLabel?
  constructor
  · intro h
    split at h
    · cases h
      exact eq_of_beq ‹_›
    · split at h
      · cases h
        exact eq_of_beq ‹_›
      · cases h
  · rintro rfl
    cases b <;> rfl

/-- What an encoded array holds. -/
structure Payload where
  backend : Backend
  element : Document
  axes : List Document
  entries : List Document

/-- The fields are those of an encoded array. -/
structure Payload.In (p : Payload) (fields : List (String × Document)) : Prop where
  backend : Value.lookup "backend" fields = some (.text p.backend.label)
  element : Value.lookup "dtype" fields = some p.element
  axes : Value.lookup "shape" fields = some (.list p.axes)
  entries : Value.lookup "data" fields = some (.list p.entries)

/-- There are as many entries as the axes ask for. -/
def Payload.Fits (p : Payload) : Prop :=
  ∃ lengths, p.axes.mapM Schema.axis? = some lengths ∧
    (p.entries.length : Int) = lengths.foldl (· * ·) 1

namespace Schema

open Act

/-! ### Single demands -/

@[simp]
theorem demand_eq_ok {holds : Bool} {fault : Fault Float} {u : Unit} :
    demand holds fault = .ok u ↔ holds = true := by
  unfold demand
  cases holds <;> simp

theorem raises_demand {P : Fault Float → Prop} {holds : Bool} {fault : Fault Float}
    (h : P fault) : Raises P (demand holds fault) := by
  unfold demand
  cases holds
  · exact .error h
  · exact .ok _

theorem demandKeys_eq_ok {field : String} {fields : List (String × Document)}
    {keys : List String} :
    demandKeys field fields keys = .ok () ↔
      ∀ key ∈ keys, (Value.lookup key fields).isSome = true := by
  induction keys with
  | nil => simp [demandKeys]
  | cons key rest ih =>
    rw [demandKeys, bind_eq_ok, List.forall_mem_cons, ← ih]
    simp only [demand_eq_ok, exists_and_left, exists_const]

theorem raises_demandKeys (field : String) (fields : List (String × Document))
    (keys : List String) :
    Raises (·.kind = "ValueError") (demandKeys field fields keys) := by
  induction keys with
  | nil => exact .ok _
  | cons key rest ih =>
    exact Raises.bind (raises_demand rfl) fun _ _ => ih

section Fields

variable {v : Document} {check : String → Document → Except (Fault Float) Unit}
  {fields : List String}

theorem validateFields_eq_ok :
    validateFields v check fields = .ok () ↔
      ∀ field ∈ fields, ∃ x, v.field? field = some x ∧ check field x = .ok () := by
  induction fields with
  | nil => simp [validateFields]
  | cons field rest ih =>
    rw [validateFields, List.forall_mem_cons, ← ih]
    cases hv : v.field? field with
    | none =>
      dsimp only
      simp [bind_eq_ok]
    | some x =>
      dsimp only
      simp only [bind_eq_ok, Option.some_inj, exists_eq_left']
      exact ⟨fun ⟨_, h, hrest⟩ => ⟨h, hrest⟩, fun ⟨h, hrest⟩ => ⟨(), h, hrest⟩⟩

theorem raises_validateFields {P : Fault Float → Prop} (hmissing : ∀ field, P (.fieldMissing field))
    (hcheck : ∀ field ∈ fields, ∀ x, v.field? field = some x → Raises P (check field x)) :
    Raises P (validateFields v check fields) := by
  induction fields with
  | nil => exact .ok _
  | cons field rest ih =>
    rw [validateFields]
    have hrest := ih fun field' h => hcheck field' (List.mem_cons_of_mem _ h)
    cases hv : v.field? field with
    | none => exact (Raises.error (hmissing field)).bind fun _ _ => hrest
    | some x => exact (hcheck field List.mem_cons_self x hv).bind fun _ _ => hrest

end Fields

/-! ### Arrays -/

theorem axes?_eq_some {v : Document} {lengths : List Int} :
    axes? v = some lengths ↔ ∃ vs, v = .list vs ∧ vs.mapM axis? = some lengths := by
  cases v with
  | list vs => simp [axes?]
  | null | bool | int | real | text | object => exact iff_of_false nofun nofun

/-- The fields of an encoded array are accepted. -/
theorem validateArray_of_in {field : String} {fields : List (String × Document)} {p : Payload}
    (h : p.In fields) (hfits : p.Fits) : validateArray field (.object fields) = .ok () := by
  obtain ⟨lengths, haxes, hsize⟩ := hfits
  have hkeys : demandKeys field fields ["backend", "dtype", "shape", "data"] = .ok () :=
    demandKeys_eq_ok.mpr (by simp [h.backend, h.element, h.axes, h.entries])
  have hknown : (Backend.ofLabel? p.backend.label).isSome = true :=
    Option.isSome_iff_exists.mpr ⟨p.backend, Backend.ofLabel?_eq_some.mpr rfl⟩
  have hlengths : axes? (.list p.axes) = some lengths := axes?_eq_some.mpr ⟨_, rfl, haxes⟩
  unfold validateArray
  simp only [bind_eq_ok, hkeys, h.backend, h.axes, h.entries, Option.getD_some, hknown, hlengths,
    hsize, decide_true, if_pos, demand_eq_ok, and_self, exists_const]

/-- Fields that are accepted are those of an encoded array. -/
theorem exists_in_of_validateArray {field : String} {fields : List (String × Document)}
    (h : validateArray field (.object fields) = .ok ()) : ∃ p : Payload, p.In fields ∧ p.Fits := by
  unfold validateArray at h
  simp only [bind_eq_ok, demand_eq_ok] at h
  obtain ⟨_, hkeys, -, hknown, hshape⟩ := h
  -- each key that is asked for is there, and its value passed the check of its own
  have hsome := demandKeys_eq_ok.mp hkeys
  obtain ⟨b, hb⟩ := Option.isSome_iff_exists.mp (hsome "backend" (by simp))
  obtain ⟨element, helement⟩ := Option.isSome_iff_exists.mp (hsome "dtype" (by simp))
  obtain ⟨shape, hs⟩ := Option.isSome_iff_exists.mp (hsome "shape" (by simp))
  obtain ⟨data, hd⟩ := Option.isSome_iff_exists.mp (hsome "data" (by simp))
  simp only [hb, hs, hd, Option.getD_some] at hknown hshape
  obtain ⟨backend, hbackend⟩ : ∃ backend : Backend, b = .text backend.label := by
    cases b with
    | text s =>
      obtain ⟨backend, h⟩ := Option.isSome_iff_exists.mp hknown
      exact ⟨backend, congrArg Value.text (Backend.ofLabel?_eq_some.mp h)⟩
    | null | bool | int | real | list | object => cases hknown
  cases hl : axes? shape with
  | none => rw [hl] at hshape; cases hshape
  | some lengths =>
    obtain ⟨axes, rfl, haxes⟩ := axes?_eq_some.mp hl
    simp only [hl] at hshape
    cases data with
    | list entries =>
      simp only [decide_eq_true_iff] at hshape
      split at hshape
      · refine ⟨⟨backend, element, axes, entries⟩, ⟨?_, helement, hs, hd⟩, lengths, haxes, ?_⟩
        · rw [hb, hbackend]
        · assumption
      · obtain ⟨_, -, h⟩ := bind_eq_ok.mp hshape
        cases h
    | null | bool | int | real | text | object =>
      obtain ⟨_, -, h⟩ := bind_eq_ok.mp hshape
      cases h

/-- An array field holds nothing or an encoded array. -/
theorem validateArray_eq_ok {field : String} {v : Document} :
    validateArray field v = .ok () ↔
      v = .null ∨ ∃ fields p, v = .object fields ∧ Payload.In p fields ∧ p.Fits := by
  constructor
  · intro h
    cases v with
    | null => exact .inl rfl
    | object fields =>
      obtain ⟨p, hp⟩ := exists_in_of_validateArray h
      exact .inr ⟨fields, p, rfl, hp⟩
    | bool | int | real | text | list => cases h
  · rintro (rfl | ⟨fields, p, rfl, hin, hfits⟩)
    · rfl
    · exact validateArray_of_in hin hfits

/-- The data of an array is nothing that has a length. -/
def Unmeasured (fields : List (String × Document)) : Prop :=
  ∃ d, Value.lookup "data" fields = some d ∧ extent d = .error .wrongType

theorem raises_extent (d : Document) :
    Raises (fun f => f = .wrongType ∧ extent d = .error .wrongType) (extent d) := by
  intro f h
  cases d with
  | list | text | object => cases h
  | null | bool | int | real =>
    cases h
    exact ⟨rfl, rfl⟩

theorem raises_validateArray (field : String) (fields : List (String × Document)) :
    Raises (fun f => f.kind = "ValueError" ∨ f.kind = "TypeError" ∧ Unmeasured fields)
      (validateArray field (.object fields)) := by
  unfold validateArray
  refine ((raises_demandKeys _ _ _).mono fun _ => .inl).bind fun _ hkeys => ?_
  refine (raises_demand (.inl rfl)).bind fun _ _ => ?_
  obtain ⟨data, hd⟩ := Option.isSome_iff_exists.mp (demandKeys_eq_ok.mp hkeys "data" (by simp))
  simp only [hd, Option.getD_some]
  split
  · exact .error (.inl rfl)
  · split
    · split
      · exact .ok _
      · refine Raises.bind ((raises_extent _).mono ?_) fun _ _ => .error (.inl rfl)
        rintro f ⟨rfl, hf⟩
        exact .inr ⟨rfl, _, hd, hf⟩
    · rw [if_neg (by decide)]
      refine Raises.bind ((raises_extent _).mono ?_) fun _ _ => .error (.inl rfl)
      rintro f ⟨rfl, hf⟩
      exact .inr ⟨rfl, _, hd, hf⟩

/-! ### Documents -/

/-- What a state document holds. -/
structure Valid (v : Document) : Prop where
  isObject : v.isObject = true
  version : v.get "version" = .text documentVersion
  kind : v.get "kind" = .text DocumentKind.state.label
  number : ∀ field ∈ numberFields, ∃ x, v.field? field = some x ∧ isNumber x = true
  count : ∀ field ∈ countFields, ∃ x, v.field? field = some x ∧ isCount x = true
  array : ∀ field ∈ arrayFields, ∃ x, v.field? field = some x ∧
    (x = .null ∨ ∃ fields p, x = .object fields ∧ Payload.In p fields ∧ p.Fits)
  reason : ∃ r : Reason, v.get "termination_reason" = .text r.label
  time : v.get "time" = .null ∨ isNumber (v.get "time") = true
  diagnostics : ∀ kv, v.field? "kv" = some kv → kv.isObject = true

theorem validateReason_eq_ok {v : Document} :
    validateReason v = .ok () ↔ ∃ r : Reason, v = .text r.label := by
  cases v with
  | text s =>
    rw [validateReason, demand_eq_ok, Option.isSome_iff_exists]
    simp only [Reason.ofLabel?_eq_some, Value.text.injEq]
  | null | bool | int | real | list | object => exact iff_of_false nofun nofun

theorem validateHead_eq_ok {kind : DocumentKind} {v : Document} :
    validateHead kind v = .ok () ↔
      v.get "version" = .text documentVersion ∧ v.get "kind" = .text kind.label := by
  unfold validateHead
  simp only [bind_unit_eq_ok, demand_eq_ok]
  refine and_congr ?_ ?_
  all_goals
    split
    · rename_i h
      rw [h, beq_iff_eq, Value.text.injEq]
    · rename_i h
      exact iff_of_false nofun fun h' => h _ h'

/-- Validation accepts exactly the valid documents. -/
theorem validateState_eq_ok {v : Document} : validateState v = .ok () ↔ Valid v := by
  unfold validateState
  simp only [bind_unit_eq_ok, demand_eq_ok, validateHead_eq_ok, validateFields_eq_ok,
    validateArray_eq_ok, validateReason_eq_ok]
  -- the last two demands are made only where their fields are given
  constructor
  · rintro ⟨hobject, ⟨hversion, hkind⟩, hnumber, hcount, harray, hreason, hrest⟩
    have htime : v.get "time" = .null ∨ isNumber (v.get "time") = true := by
      split at hrest
      · exact .inl ‹_›
      · exact .inr (demand_eq_ok.mp (bind_unit_eq_ok.mp hrest).1)
    refine ⟨hobject, hversion, hkind, hnumber, hcount, harray, hreason, htime, fun kv hkv => ?_⟩
    rw [hkv] at hrest
    split at hrest
    all_goals exact demand_eq_ok.mp (bind_unit_eq_ok.mp hrest).2
  · rintro ⟨hobject, hversion, hkind, hnumber, hcount, harray, hreason, ht, hdiagnostics⟩
    refine ⟨hobject, ⟨hversion, hkind⟩, hnumber, hcount, harray, hreason, ?_⟩
    cases hkv : v.field? "kv" with
    | none =>
      split
      · rfl
      · exact bind_unit_eq_ok.mpr ⟨demand_eq_ok.mpr (ht.resolve_left ‹_›), rfl⟩
    | some kv =>
      have hdiagnostic := hdiagnostics kv hkv
      split
      · exact demand_eq_ok.mpr hdiagnostic
      · exact bind_unit_eq_ok.mpr
          ⟨demand_eq_ok.mpr (ht.resolve_left ‹_›), demand_eq_ok.mpr hdiagnostic⟩

/-! ### Refusals -/

/-- A value that validation cannot look up, or whose length it cannot tell. -/
inductive Unforeseen (v : Document) : Prop where
  | reason (h : (v.get "termination_reason").isHashable = false)
  | data {field : String} {fields : List (String × Document)} (hfield : field ∈ arrayFields)
      (hv : v.field? field = some (.object fields)) (h : Unmeasured fields)

theorem raises_validateReason (v : Document) :
    Raises (fun f => f.kind = "ValueError" ∨ f.kind = "TypeError" ∧ v.isHashable = false)
      (validateReason v) := by
  cases v with
  | text s => exact raises_demand (.inl rfl)
  | null | bool | int | real => exact .error (.inl rfl)
  | list | object => exact .error (.inr ⟨rfl, rfl⟩)

theorem raises_validateHead (kind : DocumentKind) (v : Document) :
    Raises (·.kind = "ValueError") (validateHead kind v) := by
  unfold validateHead
  exact Raises.bind (raises_demand rfl) fun _ _ => raises_demand rfl

/-- What is not the document of a method is refused for a wrong value. -/
theorem raises_validateMethod (v : Document) :
    Raises (·.kind = "ValueError") (validateMethod v) := by
  unfold validateMethod
  refine Raises.bind (raises_demand rfl) fun _ _ => ?_
  refine (raises_validateHead .solver v).bind fun _ _ => ?_
  exact Raises.bind (raises_demand rfl) fun _ _ => raises_demand rfl

/-- A document is refused for a wrong value, or else because of a value that was not foreseen. -/
theorem raises_validateState (v : Document) :
    Raises (fun f => f.kind = "ValueError" ∨ f.kind = "TypeError" ∧ Unforeseen v)
      (validateState v) := by
  unfold validateState
  refine Raises.bind (raises_demand (.inl rfl)) fun _ _ => ?_
  refine ((raises_validateHead .state v).mono fun _ => .inl).bind fun _ _ => ?_
  -- numbers, counts and arrays; only the data of an array can raise a `TypeError`
  refine Raises.bind (raises_validateFields (fun _ => .inl rfl) ?_) fun _ _ => ?_
  · intro _ _ _ _
    exact raises_demand (.inl rfl)
  refine Raises.bind (raises_validateFields (fun _ => .inl rfl) ?_) fun _ _ => ?_
  · intro _ _ _ _
    exact raises_demand (.inl rfl)
  refine Raises.bind (raises_validateFields (fun _ => .inl rfl) ?_) fun _ _ => ?_
  · intro field hfield x hx
    cases x with
    | null => exact .ok _
    | object fields =>
      refine (raises_validateArray field fields).mono fun f hf => ?_
      exact hf.imp_right fun ⟨hkind, h⟩ => ⟨hkind, .data hfield hx h⟩
    | bool | int | real | text | list => exact .error (.inl rfl)
  -- so can the reason, when it is no text
  refine Raises.bind ((raises_validateReason _).mono ?_) fun _ _ => ?_
  · intro f hf
    exact hf.imp_right fun ⟨hkind, h⟩ => ⟨hkind, .reason h⟩
  dsimp only
  split
  · refine Raises.bind (.ok _) fun _ _ => ?_
    split
    · exact .ok _
    · exact raises_demand (.inl rfl)
  · refine Raises.bind (raises_demand (.inl rfl)) fun _ _ => ?_
    split
    · exact .ok _
    · exact raises_demand (.inl rfl)

end Schema

end Descent
