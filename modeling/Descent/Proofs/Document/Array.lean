import Descent.Proofs.Document.Measured
import Descent.Proofs.Document.Schema

/-!
# Reading arrays

A type of entries is floating if a measured value stored in it is a measured value again
(`ElementType.storeValue_real`), the nearest one of the type (`ElementType.kept`).  The array of a
payload that fits and names such a type, if it names one, is read exactly if the payload is
readable (`Payload.exists_decode`): its entries stand for measured values, its axes are integers,
and its backend has arrays of its shape.  `Payload.raises_decode` says how it fails.
-/

namespace Descent

open Act

/-! ### Floating types -/

namespace ElementType

/-- Whether the entries of a type are floating-point numbers. -/
def isFloating : ElementType → Bool
  | floating _ | brain | narrow _ => true
  | swapped t => t.isFloating
  | bool | integer _ _ | complex _ | object | text _ | bytes _ | raw => false

/-- A measured value as it is kept by a floating type, in whichever order its bytes are. -/
def kept (backend : Backend) : ElementType → Float → Float
  | swapped t, x => t.kept backend x
  | t, x => t.nearest backend x

theorem storeValue_real {t : ElementType} (backend : Backend) (h : t.isFloating = true)
    (x : Float) : t.storeValue backend (.real x) = .ok (.real (t.kept backend x)) := by
  induction t with
  | floating | brain | narrow => rfl
  | swapped t ih =>
    rw [storeValue]
    exact ih h
  | bool | integer | complex | object | text | bytes | raw => cases h

theorem fitted_eq {t : ElementType} (h : t.isFloating = true) (vs : List (Value Float)) :
    t.fitted vs = t := by
  induction t with
  | floating | brain | narrow => rfl
  | swapped t ih => exact congrArg swapped (ih h)
  | bool | integer | complex | object | text | bytes | raw => cases h

/-- Measured values are stored in a floating type each as it is kept. -/
theorem storeAll_real {t : ElementType} (backend : Backend) (h : t.isFloating = true)
    (xs : List Float) :
    t.storeAll backend (xs.map .real) = .ok (t, xs.map fun x => .real (t.kept backend x)) := by
  have hstore : (xs.map Value.real).mapM (t.storeValue backend) =
      .ok (xs.map fun x => .real (t.kept backend x)) := by
    rw [mapM_eq_ok, List.forall₂_map_left_iff, List.forall₂_map_right_iff, List.forall₂_same]
    exact fun x _ => storeValue_real backend h x
  unfold storeAll
  rw [fitted_eq h]
  dsimp only
  rw [hstore]
  rfl

end ElementType

/-! ### Shapes -/

namespace Shape

/-- Lengths that are not negative are the shape of as many entries as their product says. -/
theorem fill_of_nonneg {backend : Backend} {lengths : List Int} {count : Nat}
    (h : ∀ n ∈ lengths, 0 ≤ n) (hsize : (count : Int) = lengths.foldl (· * ·) 1) :
    fill backend lengths count = .ok (lengths.map Int.toNat) := by
  have hnone : lengths.filter (· < 0) = [] := by
    rw [List.filter_eq_nil_iff]
    intro n hn
    have := h n hn
    simp only [decide_eq_true_iff]
    omega
  have hall : lengths.filter (0 ≤ ·) = lengths :=
    List.filter_eq_self.mpr fun n hn => decide_eq_true (h n hn)
  unfold fill
  simp only [hnone, knownSize, hall, hsize, if_true]

end Shape

namespace Payload

variable {p : Payload}

/-- A type that is named by a text is floating. -/
def NamesFloating (p : Payload) : Prop :=
  ∀ s, p.element = .text s →
    ∃ t, ElementType.ofName p.backend s = .ok t ∧ t.isFloating = true

theorem isFloating_of_elementOf {t : ElementType} (hname : p.NamesFloating)
    (h : StoredArray.elementOf p.backend p.element = .ok t) : t.isFloating = true := by
  cases helement : p.element with
  | text s =>
    obtain ⟨t', ht', hfloating⟩ := hname s helement
    have hof : ElementType.ofName p.backend s = .ok t := by
      rw [helement] at h
      cases hb : p.backend <;> rw [hb] at h <;> exact h
    rw [ht'] at hof
    cases hof
    exact hfloating
  | null =>
    -- no name: one backend takes its own type, the other refuses
    rw [helement] at h
    cases hb : p.backend <;> rw [hb] at h <;> cases h
    rfl
  | bool | int | real | list | object =>
    rw [helement] at h
    cases hb : p.backend <;> rw [hb] at h <;> cases h

/-! ### Axes -/

theorem axis?_eq_some {v : Document} {n : Int} (h : Schema.axis? v = some n) :
    (v = .int n ∧ 0 ≤ n) ∨ ∃ b, v = .bool b := by
  cases v with
  | int m =>
    rw [Schema.axis?, Option.ite_none_right_eq_some] at h
    obtain ⟨hm, h⟩ := h
    cases h
    exact .inl ⟨rfl, hm⟩
  | bool b => exact .inr ⟨b, rfl⟩
  | null | real | text | list | object => cases h

theorem length_eq_ok {backend : Backend} {v : Document} {n : Int}
    (h : StoredArray.length backend v = .ok n) : v = .int n ∧ n ≤ Shape.maxLength := by
  cases v with
  | int m =>
    unfold StoredArray.length at h
    dsimp only at h
    split at h
    · cases h
      exact ⟨rfl, And.right ‹_›⟩
    · cases backend <;> cases h
  | null | bool | real | text | list | object => cases h

theorem length_int {backend : Backend} {n : Int} (h : 0 ≤ n) (hmax : n ≤ Shape.maxLength) :
    StoredArray.length backend (.int n) = .ok n := by
  have hmin : -Shape.maxLength - 1 ≤ n := by
    have : -Shape.maxLength - 1 ≤ 0 := by decide
    omega
  exact if_pos ⟨hmin, hmax⟩

/-- Axes that were accepted and can be read are read as they were accepted. -/
theorem lengths_eq {backend : Backend} {axes : List Document} {lengths lengths' : List Int}
    (h : axes.mapM Schema.axis? = some lengths)
    (h' : axes.mapM (StoredArray.length backend) = .ok lengths') :
    lengths' = lengths ∧ ∀ n ∈ lengths, 0 ≤ n := by
  rw [mapM_eq_some] at h
  rw [mapM_eq_ok] at h'
  induction h generalizing lengths' with
  | nil =>
    cases h'
    exact ⟨rfl, nofun⟩
  | cons haxis _ ih =>
    cases h' with
    | cons hlength hrest =>
      obtain ⟨rfl, hall⟩ := ih hrest
      obtain ⟨rfl, -⟩ := length_eq_ok hlength
      rcases axis?_eq_some haxis with ⟨hn, hnonneg⟩ | ⟨b, hb⟩
      · cases hn
        exact ⟨rfl, List.forall_mem_cons.mpr ⟨hnonneg, hall⟩⟩
      · cases hb

/-- The length that an axis says. -/
def extent : Document → Nat
  | .int n => n.toNat
  | _ => 0

/-- The shape that the axes say. -/
def shape (p : Payload) : Shape := p.axes.map extent

theorem shape_eq {lengths : List Int}
    (h : p.axes.mapM (StoredArray.length p.backend) = .ok lengths) :
    p.shape = lengths.map Int.toNat := by
  rw [mapM_eq_ok] at h
  have hpair : List.Forall₂ (fun x y => extent x = Int.toNat y) p.axes lengths := by
    refine h.imp fun x y hxy => ?_
    rw [(length_eq_ok hxy).1]
    rfl
  rw [shape, ← List.forall₂_eq_eq_eq, List.forall₂_map_left_iff, List.forall₂_map_right_iff]
  exact hpair

/-! ### Reading a payload -/

/-- The array of a payload. -/
def decode (p : Payload) : Except (Fault Float) StoredArray := do
  let data ← p.entries.mapM Value.toReal
  let element ← StoredArray.elementOf p.backend p.element
  let (element, entries) ← element.storeAll p.backend (data.map .real)
  let lengths ← p.axes.mapM (StoredArray.length p.backend)
  return ⟨p.backend, element, ← Shape.resolve p.backend element lengths entries.length, entries⟩

/-- The fields of a payload are read as the payload is. -/
theorem decodeFields_eq {fields : List (String × Document)} (h : p.In fields) :
    StoredArray.decodeFields fields = p.decode := by
  unfold StoredArray.decodeFields decode Document.key
  rw [h.backend, h.element, h.axes, h.entries]
  cases p.backend <;> rfl

/-- What reading the array of a payload takes beyond what the schema asks for. -/
structure Readable (p : Payload) : Prop where
  entries : ∀ x ∈ p.entries, Document.standsForReal x = true
  element : ∃ t, StoredArray.elementOf p.backend p.element = .ok t ∧
    Shape.isAllowed p.backend t.byteSize p.shape = true
  axes : ∀ v ∈ p.axes, ∃ n : Int, v = .int n ∧ n ≤ Shape.maxLength

/-- The axes of a payload that fits are a shape for its entries, if the backend has such arrays. -/
theorem resolve_eq {t : ElementType} {lengths : List Int} (hfits : p.Fits)
    (haxes : p.axes.mapM (StoredArray.length p.backend) = .ok lengths) :
    Shape.resolve p.backend t lengths p.entries.length =
      if Shape.isAllowed p.backend t.byteSize p.shape then .ok p.shape
      else .error p.backend.misfit := by
  obtain ⟨lengths', haccepted, hsize⟩ := hfits
  obtain ⟨rfl, hnonneg⟩ := lengths_eq haccepted haxes
  unfold Shape.resolve
  rw [Shape.fill_of_nonneg hnonneg hsize, ← shape_eq haxes]
  rfl

/-- A payload that fits, names a floating type and can be read is read as the array with its
shape and its entries. -/
theorem decode_eq_ok {t : ElementType} {xs : List Float} {lengths : List Int} (hfits : p.Fits)
    (hdata : p.entries.mapM Value.toReal = .ok xs)
    (helement : StoredArray.elementOf p.backend p.element = .ok t) (ht : t.isFloating = true)
    (haxes : p.axes.mapM (StoredArray.length p.backend) = .ok lengths) :
    p.decode =
      if Shape.isAllowed p.backend t.byteSize p.shape then
        .ok ⟨p.backend, t, p.shape, xs.map fun x => .real (t.kept p.backend x)⟩
      else .error p.backend.misfit := by
  unfold decode
  simp only [hdata, helement, ElementType.storeAll_real _ ht, haxes, bind, Except.bind,
    List.length_map, length_of_mapM_eq_ok hdata, resolve_eq hfits haxes]
  by_cases hallowed : Shape.isAllowed p.backend t.byteSize p.shape = true
  · rw [if_pos hallowed, if_pos hallowed]
    rfl
  · rw [if_neg hallowed, if_neg hallowed]

/-- A payload that fits and names a floating type, if it names one, is read exactly if it can
be. -/
theorem exists_decode (hfits : p.Fits) (hname : p.NamesFloating) :
    (∃ a, p.decode = .ok a) ↔ p.Readable := by
  constructor
  · rintro ⟨a, ha⟩
    -- read back what the stages of the reader found, then what the whole of it says
    have ha' := ha
    obtain ⟨xs, hdata, ha⟩ := bind_eq_ok.mp ha
    obtain ⟨t, helement, ha⟩ := bind_eq_ok.mp ha
    have ht := isFloating_of_elementOf hname helement
    rw [ElementType.storeAll_real _ ht] at ha
    obtain ⟨_, hstore, ha⟩ := bind_eq_ok.mp ha
    cases hstore
    obtain ⟨lengths, haxes, -⟩ := bind_eq_ok.mp ha
    rw [decode_eq_ok hfits hdata helement ht haxes] at ha'
    refine ⟨fun x hx => ?_, ⟨t, helement, ?_⟩, fun v hv => ?_⟩
    · exact Document.exists_toReal.mp (exists_mapM_eq_ok.mp ⟨xs, hdata⟩ x hx)
    · exact Classical.byContradiction fun h => by
        rw [if_neg h] at ha'
        cases ha'
    · obtain ⟨n, hn⟩ := exists_mapM_eq_ok.mp ⟨lengths, haxes⟩ v hv
      exact ⟨n, length_eq_ok hn⟩
  · rintro ⟨hentries, ⟨t, helement, hallowed⟩, haxes⟩
    obtain ⟨xs, hdata⟩ : ∃ xs, p.entries.mapM Value.toReal = .ok xs :=
      exists_mapM_eq_ok.mpr fun x hx => Document.exists_toReal.mpr (hentries x hx)
    obtain ⟨lengths, hlengths⟩ :
        ∃ lengths, p.axes.mapM (StoredArray.length p.backend) = .ok lengths := by
      -- the axes that the schema takes are integers and truths; the readable ones are integers
      obtain ⟨lengths', haccepted, -⟩ := hfits
      refine exists_mapM_eq_ok.mpr fun v hv => ?_
      obtain ⟨n, rfl, hmax⟩ := haxes v hv
      obtain ⟨m, hm⟩ := exists_of_mapM_eq_some haccepted _ hv
      rcases axis?_eq_some hm with ⟨h, hnonneg⟩ | ⟨b, h⟩
      · cases h
        exact ⟨n, length_int hnonneg hmax⟩
      · cases h
    have ht := isFloating_of_elementOf hname helement
    rw [decode_eq_ok hfits hdata helement ht hlengths, if_pos hallowed]
    exact ⟨_, rfl⟩

/-! ### Refusals -/

/-- A value of a type that reading the array does not take, although the schema does. -/
inductive Mistyped (p : Payload) : Prop where
  | entry {x : Document} (hx : x ∈ p.entries) (hnumber : x.number? = none)
      (htext : x.isText = false)
  | element (h : StoredArray.elementOf p.backend p.element = .error .wrongType)
      (htext : p.element.isText = false)
  | truth {b : Bool} (h : .bool b ∈ p.axes)
  | axis {n : Int} (hb : p.backend = .torch) (h : .int n ∈ p.axes) (hn : Shape.maxLength < n)

/-- An entry that is an integer beyond the range of measured values. -/
def Oversized (p : Payload) : Prop := ∃ n, .int n ∈ p.entries ∧ Binary.ofInt? n = none

/-- How a value is refused where a measured one is wanted. -/
theorem raises_toReal (v : Document) :
    Raises (fun f => f.kind = "ValueError" ∨
      (f.kind = "TypeError" ∧ v.number? = none ∧ v.isText = false) ∨
      (f.kind = "OverflowError" ∧ ∃ n, v = .int n ∧ Binary.ofInt? n = none)) v.toReal := by
  cases v with
  | text s =>
    rw [Document.toReal_text]
    cases Text.measured? s
    · exact .error (.inl rfl)
    · exact .ok _
  | int n =>
    rw [Document.toReal_int]
    cases hn : Binary.ofInt? n
    · exact .error (.inr (.inr ⟨rfl, n, rfl, hn⟩))
    · exact .ok _
  | real => exact .ok _
  | bool b => cases b <;> exact .ok _
  | null | list | object => exact .error (.inr (.inl ⟨rfl, rfl, rfl⟩))

theorem raises_elementOf (hname : p.NamesFloating) :
    Raises (fun f => f.kind = "TypeError" ∧ p.Mistyped)
      (StoredArray.elementOf p.backend p.element) := by
  intro f hf
  cases helement : p.element with
  | text s =>
    obtain ⟨t, ht, -⟩ := hname s helement
    have hof : StoredArray.elementOf p.backend p.element = .ok t := by
      rw [helement]
      cases hb : p.backend <;> rw [hb] at ht <;> exact ht
    rw [hof] at hf
    cases hf
  | null | bool | int | real | list | object =>
    have hwrong : f = .wrongType := by
      rw [helement] at hf
      cases hb : p.backend <;> rw [hb] at hf <;> cases hf <;> rfl
    subst hwrong
    refine ⟨rfl, .element hf ?_⟩
    rw [helement]
    rfl

theorem raises_length {v : Document} (hv : v ∈ p.axes) {n : Int} (hn : Schema.axis? v = some n) :
    Raises (fun f => f.kind = "ValueError" ∨ f.kind = "TypeError" ∧ p.Mistyped)
      (StoredArray.length p.backend v) := by
  rcases axis?_eq_some hn with ⟨rfl, hnonneg⟩ | ⟨b, rfl⟩
  · by_cases hmax : n ≤ Shape.maxLength
    · rw [length_int hnonneg hmax]
      exact .ok _
    · have hlong : ¬ (-Shape.maxLength - 1 ≤ n ∧ n ≤ Shape.maxLength) := fun h => hmax h.2
      unfold StoredArray.length
      dsimp only
      rw [if_neg hlong]
      cases hb : p.backend with
      | numpy => exact .error (.inl rfl)
      | torch => exact .error (.inr ⟨rfl, .axis hb hv (by omega)⟩)
  · exact .error (.inr ⟨rfl, .truth hv⟩)

/-- A payload is refused for a wrong value, or else because of a value of a wrong type or an
integer out of range. -/
theorem raises_decode (hfits : p.Fits) (hname : p.NamesFloating) :
    Raises (fun f => f.kind = "ValueError" ∨ (f.kind = "TypeError" ∧ p.Mistyped) ∨
      (f.kind = "OverflowError" ∧ p.Oversized)) p.decode := by
  refine Raises.bind (Raises.mapM fun x hx => ?_) fun xs hdata => ?_
  · refine (raises_toReal x).mono ?_
    rintro f (hf | ⟨hf, hnumber, htext⟩ | ⟨hf, n, rfl, hn⟩)
    · exact .inl hf
    · exact .inr (.inl ⟨hf, .entry hx hnumber htext⟩)
    · exact .inr (.inr ⟨hf, n, hx, hn⟩)
  refine Raises.bind ((raises_elementOf hname).mono fun f hf => .inr (.inl hf))
    fun t helement => ?_
  -- a floating type stores every real number
  refine Raises.bind ?_ fun stored hstored => ?_
  · rw [ElementType.storeAll_real _ (isFloating_of_elementOf hname helement)]
    exact .ok _
  refine Raises.bind (Raises.mapM fun v hv => ?_) fun lengths haxes => ?_
  · obtain ⟨_, haccepted, -⟩ := hfits
    obtain ⟨n, hn⟩ := exists_of_mapM_eq_some haccepted v hv
    exact (raises_length hv hn).mono fun f hf => hf.imp_right .inl
  refine Raises.bind ?_ fun _ _ => .ok _
  rw [ElementType.storeAll_real _ (isFloating_of_elementOf hname helement)] at hstored
  cases hstored
  rw [List.length_map, length_of_mapM_eq_ok hdata, resolve_eq hfits haxes]
  split
  · exact .ok _
  · rename_i hallowed
    cases hb : p.backend with
    | numpy => exact .error (.inl rfl)
    | torch =>
      rw [hb] at hallowed
      exact absurd rfl hallowed

end Payload

end Descent
