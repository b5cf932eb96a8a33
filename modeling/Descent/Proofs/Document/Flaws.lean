import Descent.Proofs.Document.Gate
import Descent.Proofs.Document.Method

/-!
# Flaws of a method's document

Only the envelope of a method's document is validated, so its parameters can be flawed in ways that
are not refused as a wrong value: one can be missing, be of a wrong type, be an integer out of
range, or be an array that its backend does not have.  `Document.Flaw` lists these flaws with the
kind of the fault that each of them leads to.

A computation that is `Act.Judged` by flaws succeeds only where there are none, and what it refuses
is refused for a wrong value or for one of the flaws.
-/

namespace Descent

namespace Act

variable {α β : Type} {r : Except (Fault Float) α}

/-- The result is there only if there is no flaw, and a fault is one for a wrong value or of the
kind of a flaw. -/
structure Judged (flaw : String → Prop) (r : Except (Fault Float) α) : Prop where
  clean : ∀ x, r = .ok x → ∀ kind, ¬ flaw kind
  blamed : ∀ f, r = .error f → f.kind = "ValueError" ∨ flaw f.kind

namespace Judged

variable {flaw flaw' : String → Prop}

/-- A success shows that there is no flaw. -/
theorem of_ok {x : α} (h : ∀ kind, ¬ flaw kind) :
    Judged flaw (.ok x : Except (Fault Float) α) :=
  ⟨fun _ _ => h, nofun⟩

/-- A refusal shows the flaw it is for. -/
theorem of_error {f : Fault Float} (h : f.kind = "ValueError" ∨ flaw f.kind) :
    Judged flaw (.error f : Except (Fault Float) α) := by
  refine ⟨nofun, fun f' hf => ?_⟩
  cases hf
  exact h

theorem congr (h : Judged flaw r) (hiff : ∀ kind, flaw kind ↔ flaw' kind) : Judged flaw' r := by
  have hflaw : flaw = flaw' := funext fun kind => propext (hiff kind)
  exact hflaw ▸ h

/-- The flaws of a computation are those of its first and of its second part. -/
protected theorem bind {g : α → Except (Fault Float) β} (h : Judged flaw r)
    (hg : ∀ x, r = .ok x → Judged flaw' (g x)) :
    Judged (fun kind => flaw kind ∨ flaw' kind) (r >>= g) := by
  constructor
  · intro y hy kind
    obtain ⟨x, hx, hgx⟩ := bind_eq_ok.mp hy
    exact not_or_intro (h.clean x hx kind) ((hg x hx).clean y hgx kind)
  · intro f hf
    rcases bind_eq_error.mp hf with hr | ⟨x, hx, hgx⟩
    · exact (h.blamed f hr).imp_right .inl
    · exact ((hg x hx).blamed f hgx).imp_right .inr

/-- A first part that refuses wrong values only has no flaws. -/
theorem after {g : α → Except (Fault Float) β} (h : Raises (·.kind = "ValueError") r)
    (hg : ∀ x, r = .ok x → Judged flaw (g x)) : Judged flaw (r >>= g) := by
  constructor
  · intro y hy
    obtain ⟨x, hx, hgx⟩ := bind_eq_ok.mp hy
    exact (hg x hx).clean y hgx
  · intro f hf
    rcases bind_eq_error.mp hf with hr | ⟨x, hx, hgx⟩
    · exact .inl (h f hr)
    · exact (hg x hx).blamed f hgx

/-- What is made of the answer in the end shows no flaw. -/
theorem map (h : Judged flaw r) (g : α → β) : Judged flaw (r >>= fun x => .ok (g x)) :=
  (h.bind fun _ _ => .of_ok fun _ => id).congr fun _ => .of_eq (or_false _)

/-- The faults of a part, its flaws being flaws of the whole. -/
theorem raises (h : Judged flaw r) (hflaw : ∀ kind, flaw kind → flaw' kind) :
    Raises (fun f => f.kind = "ValueError" ∨ flaw' f.kind) r :=
  fun f hf => (h.blamed f hf).imp_right (hflaw f.kind)

/-- The flaws of a list are those of its items. -/
protected theorem mapM {f : β → Except (Fault Float) α} {flaws : β → String → Prop} {xs : List β}
    (h : ∀ x ∈ xs, Judged (flaws x) (f x)) :
    Judged (fun kind => ∃ x ∈ xs, flaws x kind) (xs.mapM f) := by
  constructor
  · rintro ys hys kind ⟨x, hx, hflaw⟩
    obtain ⟨y, hy⟩ := exists_mapM_eq_ok.mp ⟨ys, hys⟩ x hx
    exact (h x hx).clean y hy kind hflaw
  · have hraises : Raises (fun f => f.kind = "ValueError" ∨ ∃ x ∈ xs, flaws x f.kind)
        (xs.mapM f) :=
      .mapM fun x hx e he => ((h x hx).blamed e he).imp_right fun hflaw => ⟨x, hx, hflaw⟩
    exact hraises

end Judged

end Act

open Act

namespace Document

/-! ### Values -/

/-- A value that is no number where one is compared. -/
def Unordered (x : Document) (fault : String) : Prop := fault = "TypeError" ∧ x.number? = none

/-- A value that is neither a number nor a text. -/
def Unreadable (x : Document) (fault : String) : Prop :=
  fault = "TypeError" ∧ x.number? = none ∧ x.isText = false

/-- An integer beyond the range of measured values. -/
def TooLarge (x : Document) (fault : String) : Prop :=
  fault = "OverflowError" ∧ ∃ n, x.number? = some (.int n) ∧ Binary.ofInt? n = none

/-- An infinite value where a count is wanted. -/
def Endless (x : Document) (fault : String) : Prop :=
  fault = "OverflowError" ∧ ∃ r : Float, x = .real r ∧ r.isNaN = false ∧ r.isFinite = false

theorem judged_toNumber (x : Document) : Judged (Unordered x) x.toNumber := by
  unfold Value.toNumber
  cases hx : x.number? with
  | none => exact .of_error (.inr ⟨rfl, hx⟩)
  | some n =>
    refine .of_ok fun kind h => ?_
    cases hx.symm.trans h.2

/-- A number that a value stands for becomes a measured one unless it is too large. -/
theorem judged_number_toReal {x : Document} {n : Number Float} (h : x.toNumber = .ok n) :
    Judged (TooLarge x) n.toReal := by
  have hx : x.number? = some n := by
    unfold Value.toNumber at h
    cases hx : x.number? with
    | none =>
      rw [hx] at h
      cases h
    | some m =>
      rw [hx] at h
      cases h
      rfl
  cases n with
  | real r =>
    refine .of_ok fun kind hflaw => ?_
    obtain ⟨-, m, hm, -⟩ := hflaw
    cases hx.symm.trans hm
  | int n =>
    have hreal : (Number.int n : Number Float).toReal =
        (Binary.ofInt? n).elim (.error (.outOfRange .integerRange)) .ok := toReal_int n
    rw [hreal]
    cases hn : Binary.ofInt? n with
    | none => exact .of_error (.inr ⟨rfl, n, hx, hn⟩)
    | some y =>
      refine .of_ok fun kind hflaw => ?_
      obtain ⟨-, m, hm, hof⟩ := hflaw
      cases hx.symm.trans hm
      cases hn.symm.trans hof

/-- A value is read as a measured one unless it is neither a number nor a text, or too large. -/
theorem judged_toReal (x : Document) :
    Judged (fun fault => Unreadable x fault ∨ TooLarge x fault) x.toReal := by
  constructor
  · intro y hy kind h
    rcases h with ⟨-, hnumber, htext⟩ | ⟨-, n, hn, hof⟩
    · cases x with
      | bool | int | real => cases hnumber
      | text => cases htext
      | null | list | object => cases hy
    · cases x with
      -- a truth stands for zero or one, which are not too large
      | bool b => cases b <;> cases hn <;> revert hof <;> decide +kernel
      | int m =>
        cases hn
        rw [toReal_int, hof] at hy
        cases hy
      | real | text | null | list | object => cases hn
  · intro f hf
    rcases Payload.raises_toReal x f hf with h | h | ⟨hkind, n, rfl, hof⟩
    · exact .inl h
    · exact .inr (.inl h)
    · exact .inr (.inr ⟨hkind, n, rfl, hof⟩)

/-- A value is read as an integer unless it is neither a number nor a text, or infinite. -/
theorem judged_toInt (x : Document) :
    Judged (fun fault => Unreadable x fault ∨ Endless x fault) x.toInt := by
  cases x with
  | null | list | object => exact .of_error (.inr (.inl ⟨rfl, rfl, rfl⟩))
  | bool | int =>
    refine .of_ok fun kind h => ?_
    rcases h with ⟨-, hnumber, -⟩ | ⟨-, r, hr, -⟩
    · cases hnumber
    · cases hr
  | text s =>
    refine ⟨fun _ _ kind h => ?_, fun f hf => .inl ?_⟩
    · rcases h with ⟨-, -, htext⟩ | ⟨-, r, hr, -⟩
      · cases htext
      · cases hr
    · unfold Value.toInt at hf
      dsimp only at hf
      split at hf <;> cases hf
      rfl
  | real r =>
    unfold Value.toInt
    dsimp only
    -- neither the unknown number nor the infinite ones are integers
    by_cases hnan : r.isNaN = true
    · rw [if_pos hnan]
      exact .of_error (.inl rfl)
    rw [if_neg hnan]
    by_cases hfinite : r.isFinite = true
    · rw [if_pos hfinite]
      refine .of_ok fun kind h => ?_
      rcases h with ⟨-, hnumber, -⟩ | ⟨-, r', hr, -, hinfinite⟩
      · cases hnumber
      · cases hr
        exact Bool.false_ne_true (hinfinite.symm.trans hfinite)
    · rw [if_neg hfinite]
      exact .of_error (.inr (.inr ⟨rfl, r, rfl, Bool.eq_false_iff.mpr hnan,
        Bool.eq_false_iff.mpr hfinite⟩))

theorem judged_key (fields : List (String × Document)) (name : String) :
    Judged (fun fault => fault = "KeyError" ∧ Value.lookup name fields = none)
      (key fields name) := by
  unfold key
  cases h : Value.lookup name fields with
  | none => exact .of_error (.inr ⟨rfl, rfl⟩)
  | some x => exact .of_ok fun _ hflaw => nomatch hflaw.2

theorem key_eq_ok {fields : List (String × Document)} {name : String} {x : Document} :
    key fields name = .ok x ↔ Value.lookup name fields = some x := by
  unfold key
  cases Value.lookup name fields <;> simp

/-! ### Arrays -/

/-- The backend that a value names, the first one unless it names the second. -/
def namedBackend : Document → Backend
  | .text "torch" => .torch
  | _ => .numpy

/-- The backend that the fields of an array name. -/
def backendOf (fields : List (String × Document)) : Backend :=
  namedBackend ((Value.lookup "backend" fields).getD .null)

/-- What the field of an array lists. -/
def itemsOf (key : String) (fields : List (String × Document)) : List Document :=
  match Value.lookup key fields with
  | some (.list vs) => vs
  | some (.text s) => s.toList.map fun c => .text (String.singleton c)
  | some (.object fs) => fs.map fun f => .text f.1
  | _ => []

/-- The type that an array names in a text, if it does, is a floating one of its backend. -/
def ArrayNamesFloating (fields : List (String × Document)) : Prop :=
  ∀ s, Value.lookup "dtype" fields = some (.text s) →
    ∃ t, ElementType.ofName (backendOf fields) s = .ok t ∧ t.isFloating = true

/-- Whether a value lists something. -/
def isListing : Document → Bool
  | .list _ | .text _ | .object _ => true
  | _ => false

/-- A field of an array that is missing, or lists nothing. -/
def Unlisted (name : String) (fields : List (String × Document)) (fault : String) : Prop :=
  (fault = "KeyError" ∧ Value.lookup name fields = none) ∨
    (fault = "TypeError" ∧ ∃ x, Value.lookup name fields = some x ∧ isListing x = false)

/-- A type of entries that is neither a text nor, in the first backend, left open. -/
def Untyped (backend : Backend) (x : Document) (fault : String) : Prop :=
  fault = "TypeError" ∧ x.isText = false ∧ (x = .null → backend = .torch)

/-- A length of an axis that is no integer, or in the second backend beyond its range. -/
def Unmeasurable (backend : Backend) (x : Document) (fault : String) : Prop :=
  fault = "TypeError" ∧ ∀ n, x = .int n →
    backend = .torch ∧ ¬ (-Shape.maxLength - 1 ≤ n ∧ n ≤ Shape.maxLength)

/-- Lengths that are no shape of the second backend for the entries. -/
def Unshaped (fields : List (String × Document)) (fault : String) : Prop :=
  fault = "RuntimeError" ∧ backendOf fields = .torch ∧
    ∃ lengths : List Int, itemsOf "shape" fields = lengths.map .int ∧
      ∀ s, Shape.fill .torch lengths (itemsOf "data" fields).length ≠ .ok s

/-- What can be wrong with the fields of an array. -/
inductive ArrayFlaw (fields : List (String × Document)) (fault : String) : Prop
  | data (h : Unlisted "data" fields fault)
  | entry {x : Document} (hx : x ∈ itemsOf "data" fields)
      (h : Unreadable x fault ∨ TooLarge x fault)
  | axes (h : Unlisted "shape" fields fault)
  | lacking {name : String} (hname : name = "backend" ∨ name = "dtype")
      (hfault : fault = "KeyError") (h : Value.lookup name fields = none)
  | element {x : Document} (hx : Value.lookup "dtype" fields = some x)
      (h : Untyped (backendOf fields) x fault)
  | axis {x : Document} (hx : x ∈ itemsOf "shape" fields)
      (h : Unmeasurable (backendOf fields) x fault)
  | shape (h : Unshaped fields fault)

section Arrays

variable {fields : List (String × Document)} {name : String}

theorem judged_listed (x : Document) :
    Judged (fun fault => fault = "TypeError" ∧ isListing x = false) (listed x) := by
  cases x with
  | list | text | object => exact .of_ok fun _ h => nomatch h.2
  | null | bool | int | real => exact .of_error (.inr ⟨rfl, rfl⟩)

/-- The items of a field are there unless it is missing or lists nothing. -/
theorem judged_items (name : String) (fields : List (String × Document)) :
    Judged (Unlisted name fields) (key fields name >>= listed) := by
  constructor
  · rintro xs hxs kind (h | ⟨hkind, x, hx, h⟩)
    · obtain ⟨x, hx, -⟩ := bind_eq_ok.mp hxs
      exact (judged_key fields name).clean x hx kind h
    · rw [key_eq_ok.mpr hx] at hxs
      exact (judged_listed x).clean xs hxs kind ⟨hkind, h⟩
  · refine ((judged_key fields name).raises fun _ => .inl).bind fun x hx => ?_
    exact (judged_listed x).raises fun _ h => .inr ⟨h.1, x, key_eq_ok.mp hx, h.2⟩

theorem items_eq_ok {xs : List Document} (h : (key fields name >>= listed) = .ok xs) :
    itemsOf name fields = xs := by
  obtain ⟨x, hx, hlisted⟩ := bind_eq_ok.mp h
  rw [key_eq_ok] at hx
  unfold itemsOf
  rw [hx]
  cases x with
  | list | text | object =>
    cases hlisted
    rfl
  | null | bool | int | real => cases hlisted

theorem judged_elementOf {x : Document} (hx : Value.lookup "dtype" fields = some x)
    (hname : ArrayNamesFloating fields) :
    Judged (Untyped (backendOf fields) x) (StoredArray.elementOf (backendOf fields) x) := by
  cases x with
  | text s =>
    obtain ⟨t, ht, -⟩ := hname s hx
    have hof : StoredArray.elementOf (backendOf fields) (.text s) = .ok t := by
      cases hb : backendOf fields <;> rw [hb] at ht <;> exact ht
    rw [hof]
    exact .of_ok fun _ h => nomatch h.2.1
  | null =>
    cases backendOf fields with
    | numpy => exact .of_ok fun _ h => nomatch h.2.2 rfl
    | torch => exact .of_error (.inr ⟨rfl, rfl, fun _ => rfl⟩)
  | bool | int | real | list | object =>
    cases backendOf fields <;> exact .of_error (.inr ⟨rfl, rfl, nofun⟩)

theorem isFloating_of_elementOf {x : Document} {t : ElementType}
    (hx : Value.lookup "dtype" fields = some x) (hname : ArrayNamesFloating fields)
    (h : StoredArray.elementOf (backendOf fields) x = .ok t) : t.isFloating = true := by
  refine Payload.isFloating_of_elementOf (p := ⟨backendOf fields, x, [], []⟩) (fun s hs => ?_) h
  exact hname s (hx.trans (congrArg some hs))

theorem judged_length (backend : Backend) (x : Document) :
    Judged (Unmeasurable backend x) (StoredArray.length backend x) := by
  cases x with
  | int n =>
    unfold StoredArray.length
    dsimp only
    by_cases hn : -Shape.maxLength - 1 ≤ n ∧ n ≤ Shape.maxLength
    · rw [if_pos hn]
      exact .of_ok fun _ h => (h.2 n rfl).2 hn
    · rw [if_neg hn]
      cases backend with
      | numpy => exact .of_error (.inl rfl)
      | torch =>
        refine .of_error (.inr ⟨rfl, fun m hm => ?_⟩)
        cases hm
        exact ⟨rfl, hn⟩
  | null | bool | real | text | list | object => exact .of_error (.inr ⟨rfl, nofun⟩)

theorem lengths_eq_ok {backend : Backend} {xs : List Document} {lengths : List Int}
    (h : xs.mapM (StoredArray.length backend) = .ok lengths) : xs = lengths.map .int := by
  have hpair := mapM_eq_ok.mp h
  rw [← List.forall₂_eq_eq_eq, List.forall₂_map_right_iff]
  exact hpair.imp fun x n hn => (Payload.length_eq_ok hn).1

theorem raises_fill (backend : Backend) (lengths : List Int) (count : Nat) :
    Raises (· = backend.misfit) (Shape.fill backend lengths count) := by
  unfold Shape.fill
  dsimp only
  split
  · split
    · exact .ok _
    · exact .error rfl
  · split
    · exact .error rfl
    · split
      · exact .error rfl
      · exact .ok _
  · exact .error rfl

/-- The first backend refuses a shape as a wrong value, the second one as a shape. -/
theorem judged_resolve (backend : Backend) (t : ElementType) (lengths : List Int) (count : Nat) :
    Judged (fun fault => fault = "RuntimeError" ∧ backend = .torch ∧
      ∀ s, Shape.fill .torch lengths count ≠ .ok s) (Shape.resolve backend t lengths count) := by
  unfold Shape.resolve
  cases backend with
  | numpy =>
    -- this one refuses with a `ValueError`, which is allowed anywhere
    refine ⟨fun _ _ _ h => (nomatch h.2.1), fun f hf => .inl ?_⟩
    rcases bind_eq_error.mp hf with hfill | ⟨s, -, hs⟩
    · exact congrArg Fault.kind (raises_fill .numpy lengths count f hfill)
    · split at hs <;> cases hs
      rfl
  | torch =>
    cases hfill : Shape.fill .torch lengths count with
    | ok s => exact .of_ok fun _ h => h.2.2 s rfl
    | error f =>
      have hf : f = Backend.torch.misfit := raises_fill .torch lengths count f hfill
      exact .of_error (.inr ⟨congrArg Fault.kind hf, rfl, nofun⟩)

/-- Reading the fields of an array, part by part. -/
theorem decodeFields_eq (fields : List (String × Document)) :
    StoredArray.decodeFields fields = (do
      let items ← key fields "data" >>= listed
      let data ← items.mapM Value.toReal
      let axes ← key fields "shape" >>= listed
      let _ ← key fields "backend"
      let type ← key fields "dtype"
      let element ← StoredArray.elementOf (backendOf fields) type
      let stored ← element.storeAll (backendOf fields) (data.map .real)
      let lengths ← axes.mapM (StoredArray.length (backendOf fields))
      let shape ← Shape.resolve (backendOf fields) stored.1 lengths stored.2.length
      return ⟨backendOf fields, stored.1, shape, stored.2⟩) := by
  unfold StoredArray.decodeFields
  simp only [bind_assoc]
  refine bind_congr fun _ => bind_congr fun _ => bind_congr fun _ => bind_congr fun _ => ?_
  refine bind_congr fun _ => key_bind_congr fun w hw => ?_
  -- the backend is read twice, to the same end
  have hbackend : backendOf fields = namedBackend w := by
    rw [backendOf, hw]
    rfl
  rw [hbackend]
  rfl

/-- An array is read unless there is something wrong with its fields. -/
theorem judged_decodeFields (hname : ArrayNamesFloating fields) :
    Judged (ArrayFlaw fields) (StoredArray.decodeFields fields) := by
  -- as many entries are stored as there are items
  have hcount {items : List Document} {data : List Float} {type : Document} {t : ElementType}
      {stored : ElementType × List Element} (htypeof : Value.lookup "dtype" fields = some type)
      (ht : StoredArray.elementOf (backendOf fields) type = .ok t)
      (hdata : items.mapM Value.toReal = .ok data)
      (hstored : t.storeAll (backendOf fields) (data.map .real) = .ok stored) :
      stored.2.length = items.length := by
    rw [ElementType.storeAll_real _ (isFloating_of_elementOf htypeof hname ht)] at hstored
    cases hstored
    rw [List.length_map, length_of_mapM_eq_ok hdata]
  -- the parts are read in turn, and each is judged on its own
  rw [decodeFields_eq]
  constructor
  · -- what was read has no flaw: every part of it was read
    intro a ha kind hflaw
    obtain ⟨items, hitems, ha⟩ := bind_eq_ok.mp ha
    obtain ⟨data, hdata, ha⟩ := bind_eq_ok.mp ha
    obtain ⟨axes, haxes, ha⟩ := bind_eq_ok.mp ha
    obtain ⟨b, hb, ha⟩ := bind_eq_ok.mp ha
    obtain ⟨type, htype, ha⟩ := bind_eq_ok.mp ha
    obtain ⟨t, ht, ha⟩ := bind_eq_ok.mp ha
    obtain ⟨stored, hstored, ha⟩ := bind_eq_ok.mp ha
    obtain ⟨lengths, hlengths, ha⟩ := bind_eq_ok.mp ha
    obtain ⟨shape, hshape, -⟩ := bind_eq_ok.mp ha
    have htypeof : Value.lookup "dtype" fields = some type := key_eq_ok.mp htype
    cases hflaw with
    | data h => exact (judged_items "data" fields).clean items hitems kind h
    | @entry x hx h =>
      rw [items_eq_ok hitems] at hx
      exact (Judged.mapM fun x _ => judged_toReal x).clean data hdata kind ⟨x, hx, h⟩
    | axes h => exact (judged_items "shape" fields).clean axes haxes kind h
    | lacking hkey hfault h =>
      rcases hkey with rfl | rfl
      · exact (judged_key fields "backend").clean b hb kind ⟨hfault, h⟩
      · exact (judged_key fields "dtype").clean type htype kind ⟨hfault, h⟩
    | element hx h =>
      cases hx.symm.trans htypeof
      exact (judged_elementOf htypeof hname).clean t ht kind h
    | @axis x hx h =>
      rw [items_eq_ok haxes] at hx
      exact (Judged.mapM fun x _ => judged_length (backendOf fields) x).clean lengths hlengths kind
        ⟨x, hx, h⟩
    | shape h =>
      obtain ⟨hkind, htorch, lengths', hlengths', hnone⟩ := h
      have hsame : lengths' = lengths :=
        List.map_injective_iff.mpr (fun _ _ => Value.int.inj)
          (hlengths'.symm.trans ((items_eq_ok haxes).trans (lengths_eq_ok hlengths)))
      rw [hsame, items_eq_ok hitems, ← hcount htypeof ht hdata hstored] at hnone
      exact (judged_resolve _ _ _ _).clean shape hshape kind ⟨hkind, htorch, hnone⟩
  · -- and what is raised reports a flaw, that of the first part that has one
    refine ((judged_items "data" fields).raises fun _ => .data).bind fun items hitems => ?_
    have hentry : ∀ x ∈ items, x ∈ itemsOf "data" fields := fun x hx => items_eq_ok hitems ▸ hx
    refine ((Judged.mapM fun x _ => judged_toReal x).raises
      fun _ ⟨x, hx, h⟩ => .entry (hentry x hx) h).bind fun data hdata => ?_
    refine ((judged_items "shape" fields).raises fun _ => .axes).bind fun axes haxes => ?_
    refine ((judged_key fields "backend").raises
      fun _ h => .lacking (.inl rfl) h.1 h.2).bind fun _ _ => ?_
    refine ((judged_key fields "dtype").raises
      fun _ h => .lacking (.inr rfl) h.1 h.2).bind fun type htype => ?_
    have htypeof : Value.lookup "dtype" fields = some type := key_eq_ok.mp htype
    refine ((judged_elementOf htypeof hname).raises
      fun _ => .element htypeof).bind fun t ht => ?_
    have hstore := ElementType.storeAll_real (backendOf fields)
      (isFloating_of_elementOf htypeof hname ht) data
    refine Raises.bind (hstore ▸ .ok _) fun stored hstored => ?_
    have haxis : ∀ x ∈ axes, x ∈ itemsOf "shape" fields := fun x hx => items_eq_ok haxes ▸ hx
    refine ((Judged.mapM fun x _ => judged_length (backendOf fields) x).raises
      fun _ ⟨x, hx, h⟩ => .axis (haxis x hx) h).bind fun lengths hlengths => ?_
    refine ((judged_resolve _ _ _ _).raises fun _ h => .shape ?_).bind fun _ _ => .ok _
    obtain ⟨hkind, htorch, hnone⟩ := h
    refine ⟨hkind, htorch, lengths, (items_eq_ok haxes).trans (lengths_eq_ok hlengths), ?_⟩
    rw [items_eq_ok hitems, ← hcount htypeof ht hdata hstored]
    exact hnone

end Arrays

end Document

end Descent
