import Descent.Proofs.Document.RoundTrip
import Descent.Proofs.Scalar.Whole

/-!
# Arrays written and read back

Every entry of an array is written as a measured value, whatever the type of its entries is, and
stored in that type again when it is read.  Truth values and floating-point numbers come back as
they were.  An integer comes back as the one that the machine float nearest to it stands for
(`Element.rounded`), if that is one of the type; unsigned integers of sixty-four bits do not come
back in the second backend at all (`ElementType.refuses`).

So an array of any of the types (`StoredArray.Typed`) is written, and it is read back as it was
exactly if its integers are short and its type does not refuse measured values
(`StoredArray.decode_encode_iff`).
-/

namespace Descent

open Act

/-! ### Types of entries -/

namespace ElementType

/-- Truth values, integers of eight to sixty-four bits and floating-point numbers of sixteen to
sixty-four bits. -/
def plainTypes : List ElementType := bool :: integers ++ [floating 16, floating 32, floating 64]

/-- These types in a backend: the first one has them with their bytes in the opposite order too, the
second one has a further floating type of sixteen bits. -/
def arrayTypes : Backend → List ElementType
  | .numpy => plainTypes ++ (plainTypes.filter hasOrder).map swapped
  | .torch => plainTypes ++ [brain]

/-- Whether a type is one of truth values, integers or floating-point numbers, in whichever order
its bytes are. -/
def isPlain : ElementType → Bool
  | bool | floating _ | brain => true
  | integer _ bits => decide (8 ≤ bits) && decide (bits ≤ 64)
  | swapped t => t.isPlain
  | narrow _ | complex _ | object | text _ | bytes _ | raw => false

/-- Whether a type has integers of more than thirty-two bits. -/
def isWide : ElementType → Bool
  | integer _ bits => decide (32 < bits)
  | swapped t => t.isWide
  | _ => false

/-- Whether no measured value is stored in a type: the second backend takes only integers for
unsigned ones of sixty-four bits. -/
def refuses (backend : Backend) : ElementType → Bool
  | integer signed bits => backend == .torch && (!signed && bits == 64)
  | swapped t => t.refuses backend
  | _ => false

/-- An entry is a value of a type. -/
def Holds (backend : Backend) : ElementType → Element → Prop
  | swapped t, e => t.Holds backend e
  | bool, .bool _ => True
  | integer signed bits, .int n => within n (bounds signed bits) = true
  | t, .real x => t.isFloating = true ∧ t.kept backend x = x
  | _, _ => False

theorem isPlain_of_mem {backend : Backend} {t : ElementType} (h : t ∈ arrayTypes backend) :
    t.isPlain = true := by
  have hall : ∀ b : Backend, (arrayTypes b).all isPlain = true := by
    intro b
    cases b <;> rfl
  exact List.all_eq_true.mp (hall backend) t h

/-- A backend knows each of the types by the name that is written for it. -/
theorem ofName_label_of_mem {backend : Backend} {t : ElementType} (h : t ∈ arrayTypes backend) :
    ofName backend t.label = .ok t := by
  have hall : ∀ b : Backend, ∀ t ∈ arrayTypes b, (ofName b t.label).toOption = some t := by
    intro b
    cases b <;> decide +kernel
  have hname := hall backend t h
  cases hof : ofName backend t.label with
  | error f =>
    rw [hof] at hname
    cases hname
  | ok t' =>
    rw [hof] at hname
    cases hname
    rfl

theorem fitted_of_isPlain {t : ElementType} (h : t.isPlain = true) (vs : List (Value Float)) :
    t.fitted vs = t := by
  induction t with
  | bool | integer | floating | brain => rfl
  | swapped t ih => exact congrArg swapped (ih h)
  | narrow | complex | object | text | bytes | raw => cases h

end ElementType

/-! ### Entries -/

namespace Element

/-- An entry as the measured value that is written for it. -/
def measured : Element → Float
  | bool b => if b then 1.0 else 0.0
  | int n => (Binary.ofInt? n).getD 0.0
  | real x => x
  | text _ | pair => 0.0

/-- An entry as it comes back: an integer as what the machine float nearest to it stands for. -/
def rounded : Element → Element
  | int n => int (Machine.roundInt n)
  | e => e

end Element

namespace ElementType

variable {backend : Backend} {signed : Bool} {bits : Nat} {n : ℤ} {x : Float}

theorem natAbs_le_of_within (h : within n (bounds signed bits) = true) : n.natAbs ≤ 2 ^ bits := by
  have hhalf : Nat.pow 2 (bits - 1) ≤ 2 ^ bits := Nat.pow_le_pow_right (by decide) (Nat.sub_le _ _)
  have hwhole : Nat.pow 2 bits = 2 ^ bits := rfl
  unfold within bounds at h
  cases signed <;> simp only [Bool.and_eq_true, decide_eq_true_eq, if_true, if_false,
    Bool.false_eq_true] at h <;> omega

/-- Every integer of a type of at most sixty-four bits becomes a machine float. -/
theorem exists_ofInt?_of_within (hbits : bits ≤ 64) (h : within n (bounds signed bits) = true) :
    ∃ x, Binary.ofInt? n = some x :=
  Machine.exists_ofInt? ((natAbs_le_of_within h).trans (Nat.pow_le_pow_right (by decide) hbits))

/-- The greatest integer of a type lies above zero. -/
theorem zero_lt_bounds (hbits : 8 ≤ bits) : 0 < (bounds signed bits).2 := by
  have hhalf : 2 ^ 7 ≤ Nat.pow 2 (bits - 1) := Nat.pow_le_pow_right (by decide) (by omega)
  have hwhole : 2 ^ 8 ≤ Nat.pow 2 bits := Nat.pow_le_pow_right (by decide) hbits
  unfold bounds
  cases signed <;> simp only [if_true, if_false, Bool.false_eq_true] <;> omega

/-- In the first backend, what an integer became is stored as what it was rounded to, if that is one
of the type. -/
theorem boundInteger_ofInt? (hx : Binary.ofInt? n = some x) :
    boundInteger signed bits (.real x) =
      if within (Machine.roundInt n) (bounds signed bits) then .ok (.int (Machine.roundInt n))
      else .error .outOfRange := by
  have hfinite : Scalar.isFinite x = true := Machine.isFinite_ofInt? hx
  have hnan : Scalar.isNaN x = false := Unpacked.isNaN_of_isFinite hfinite
  show (if Scalar.isNaN x then .error .wrongValue
    else if Scalar.isFinite x && within (Scalar.truncate x) (bounds signed bits) then
      .ok (.int (Scalar.truncate x))
    else .error .outOfRange : Except (Fault Float) Element) = _
  rw [hnan, hfinite, Machine.truncate_ofInt? hx, Bool.true_and]
  rfl

/-- So it is in the second one, whose comparisons with the bounds are exact. -/
theorem checkedReal_ofInt? (hbits : 8 ≤ bits ∧ bits ≤ 64)
    (hrefuses : (!signed && bits == 64) = false) (hx : Binary.ofInt? n = some x)
    (h : within (Machine.roundInt n) (bounds signed bits) = true) :
    checkedReal signed bits x = .ok (.int (Machine.roundInt n)) := by
  have hfinite : Scalar.isFinite x = true := Machine.isFinite_ofInt? hx
  have hnan : Scalar.isNaN x = false := Unpacked.isNaN_of_isFinite hfinite
  have hfloor : Scalar.floor x = Machine.roundInt n := Machine.floor_ofInt? hx
  obtain ⟨hlow, hhigh⟩ := Bool.and_eq_true_iff.mp h
  rw [decide_eq_true_eq] at hlow hhigh
  have habove : (Number.int (bounds signed bits).1).le (.real x) = true := by
    show (!Scalar.isNaN x && !Number.realLtInt x (bounds signed bits).1) = true
    rw [hnan, Number.realLtInt, if_pos hfinite, hfloor, decide_eq_false (not_lt.mpr hlow)]
    rfl
  have hbelow : (Number.real x).le (.int (bounds signed bits).2) = true := by
    -- the greatest integer of the type becomes a float that is not below one of the same value
    obtain ⟨y, hy⟩ : ∃ y, Binary.ofInt? (bounds signed bits).2 = some y := by
      have hgreatest : within (bounds signed bits).2 (bounds signed bits) = true :=
        Bool.and_eq_true_iff.mpr ⟨decide_eq_true (hlow.trans hhigh), decide_eq_true le_rfl⟩
      exact exists_ofInt?_of_within hbits.2 hgreatest
    have hof : (Scalar.ofInt? (bounds signed bits).2 : Option Float) = some y := hy
    show Number.realLeInt x (bounds signed bits).2 = true
    rw [Number.realLeInt, if_pos hfinite, hfloor, hof]
    dsimp only
    rcases hhigh.lt_or_eq with hlt | heq
    · rw [decide_eq_true hlt, Bool.true_or]
    · have hxy := Machine.le_ofInt? hx (zero_lt_bounds hbits.1) hy heq
      rw [decide_eq_true heq, decide_eq_true hxy]
      exact Bool.or_true _
  have hchecked : checkedReal signed bits x =
      if !signed && bits == 64 then .error .wrongType
      else if (Number.int (bounds signed bits).1).le (.real x) &&
        (Number.real x).le (.int (bounds signed bits).2) then .ok (.int (Scalar.truncate x))
      else .error .wrongShape := rfl
  rw [hchecked, hrefuses, habove, hbelow, Machine.truncate_ofInt? hx]
  rfl

/-- What an integer became is stored as what it was rounded to, if that is one of the type. -/
theorem storeInteger_ofInt? (hbits : 8 ≤ bits ∧ bits ≤ 64)
    (hrefuses : (integer signed bits).refuses backend = false) (hx : Binary.ofInt? n = some x)
    (h : within (Machine.roundInt n) (bounds signed bits) = true) :
    storeInteger backend signed bits (.real x) = .ok (.int (Machine.roundInt n)) := by
  cases backend with
  | numpy => exact (boundInteger_ofInt? hx).trans (if_pos h)
  | torch => exact checkedReal_ofInt? hbits hrefuses hx h

/-- Nothing else is stored for it. -/
theorem eq_of_storeInteger {e : Element} (hx : Binary.ofInt? n = some x)
    (h : storeInteger backend signed bits (.real x) = .ok e) :
    e = .int (Machine.roundInt n) := by
  cases backend with
  | numpy =>
    rw [storeInteger, boundInteger_ofInt? hx] at h
    split at h <;> cases h
    rfl
  | torch =>
    rw [← Machine.truncate_ofInt? hx]
    unfold storeInteger checkedReal at h
    dsimp only at h
    split at h
    · cases h
    · split at h <;> cases h
      rfl

variable {t : ElementType} {e : Element}

theorem holds_bool (h : bool.Holds backend e) : ∃ b, e = .bool b := by
  cases e with
  | bool b => exact ⟨b, rfl⟩
  | real => exact absurd h.1 Bool.false_ne_true
  | int | text | pair => exact h.elim

theorem holds_integer (h : (integer signed bits).Holds backend e) :
    ∃ n, e = .int n ∧ within n (bounds signed bits) = true := by
  cases e with
  | int n => exact ⟨n, rfl, h⟩
  | real => exact absurd h.1 Bool.false_ne_true
  | bool | text | pair => exact h.elim

theorem holds_floating (ht : t.isFloating = true) (h : t.Holds backend e) :
    ∃ x, e = .real x ∧ t.kept backend x = x := by
  induction t with
  | swapped t ih => exact ih ht h
  | floating | brain | narrow =>
    cases e with
    | real x => exact ⟨x, rfl, h.2⟩
    | bool | int | text | pair => exact h.elim
  | bool | integer | complex | object | text | bytes | raw => cases ht

/-- An entry of a type is written as a measured value. -/
theorem toReal_measured (ht : t.isPlain = true) (he : t.Holds backend e) :
    e.toReal = .ok e.measured := by
  induction t with
  | swapped t ih => exact ih ht he
  | bool =>
    obtain ⟨b, rfl⟩ := holds_bool he
    rfl
  | integer signed bits =>
    obtain ⟨n, rfl, hn⟩ := holds_integer he
    have hbits : bits ≤ 64 := of_decide_eq_true (Bool.and_eq_true_iff.mp ht).2
    obtain ⟨x, hx⟩ := exists_ofInt?_of_within hbits hn
    rw [Element.measured, hx]
    exact Number.toReal_int_eq_ok.mpr hx
  | floating | brain =>
    obtain ⟨x, rfl, -⟩ := holds_floating rfl he
    rfl
  | narrow | complex | object | text | bytes | raw => cases ht

/-- A truth value is stored as it was. -/
theorem storeValue_bool (b : Bool) :
    bool.storeValue backend (.real (if b then 1.0 else 0.0)) = .ok (.bool b) := by
  have hsame : ∀ b : Bool,
      (!(Number.real (if b then 1.0 else 0.0)).same (.int 0 : Number Float)) = b := by
    decide +kernel
  exact congrArg (Except.ok ∘ Element.bool) (hsame b)

/-- An entry of a type is stored as what it was rounded to, if that is one of the type again and the
type takes measured values. -/
theorem storeValue_measured (ht : t.isPlain = true) (hrefuses : t.refuses backend = false)
    (he : t.Holds backend e) (hrounded : t.Holds backend e.rounded) :
    t.storeValue backend (.real e.measured) = .ok e.rounded := by
  induction t with
  | swapped t ih =>
    rw [storeValue]
    exact ih ht hrefuses he hrounded
  | bool =>
    obtain ⟨b, rfl⟩ := holds_bool he
    exact storeValue_bool b
  | integer signed bits =>
    -- an integer of this width is in the range of the real numbers
    obtain ⟨n, rfl, hn⟩ := holds_integer he
    obtain ⟨hlow, hhigh⟩ := Bool.and_eq_true_iff.mp ht
    have hbits := And.intro (of_decide_eq_true hlow) (of_decide_eq_true hhigh)
    obtain ⟨x, hx⟩ := exists_ofInt?_of_within hbits.2 hn
    rw [Element.measured, hx]
    exact storeInteger_ofInt? hbits hrefuses hx hrounded
  | floating | brain =>
    obtain ⟨x, rfl, hx⟩ := holds_floating rfl he
    rw [storeValue_real backend rfl]
    exact congrArg (Except.ok ∘ Element.real) hx
  | narrow | complex | object | text | bytes | raw => cases ht

/-- Nothing else is stored for it. -/
theorem eq_rounded_of_storeValue {e' : Element} (ht : t.isPlain = true) (he : t.Holds backend e)
    (h : t.storeValue backend (.real e.measured) = .ok e') : e' = e.rounded := by
  induction t with
  | swapped t ih =>
    rw [storeValue] at h
    exact ih ht he h
  | bool =>
    obtain ⟨b, rfl⟩ := holds_bool he
    exact (Except.ok.inj ((storeValue_bool b).symm.trans h)).symm
  | integer signed bits =>
    obtain ⟨n, rfl, hn⟩ := holds_integer he
    have hbits : bits ≤ 64 := of_decide_eq_true (Bool.and_eq_true_iff.mp ht).2
    obtain ⟨x, hx⟩ := exists_ofInt?_of_within hbits hn
    rw [Element.measured, hx] at h
    exact eq_of_storeInteger hx h
  | floating | brain =>
    obtain ⟨x, rfl, hx⟩ := holds_floating rfl he
    rw [storeValue_real backend rfl] at h
    cases h
    exact congrArg Element.real hx
  | narrow | complex | object | text | bytes | raw => cases ht

/-- The first backend refuses an entry that was rounded to none of the type. -/
theorem storeValue_numpy_of_not_holds (ht : t.isPlain = true) (he : t.Holds .numpy e)
    (hrounded : ¬ t.Holds .numpy e.rounded) :
    t.storeValue .numpy (.real e.measured) = .error .outOfRange := by
  induction t with
  | swapped t ih =>
    rw [storeValue]
    exact ih ht he hrounded
  | bool =>
    -- a flag is measured without loss
    obtain ⟨b, rfl⟩ := holds_bool he
    exact absurd he hrounded
  | integer signed bits =>
    obtain ⟨n, rfl, hn⟩ := holds_integer he
    have hbits : bits ≤ 64 := of_decide_eq_true (Bool.and_eq_true_iff.mp ht).2
    obtain ⟨x, hx⟩ := exists_ofInt?_of_within hbits hn
    rw [Element.measured, hx]
    exact (boundInteger_ofInt? hx).trans (if_neg hrounded)
  | floating | brain =>
    -- and so is a number of a floating type
    obtain ⟨x, rfl, hx⟩ := holds_floating rfl he
    exact absurd he hrounded
  | narrow | complex | object | text | bytes | raw => cases ht

/-- Where a type refuses measured values, it refuses every one. -/
theorem storeValue_of_refuses (h : t.refuses backend = true) (x : Float) :
    t.storeValue backend (.real x) = .error .wrongType := by
  induction t with
  | swapped t ih =>
    rw [storeValue]
    exact ih h
  | integer signed bits =>
    obtain ⟨hbackend, hsixtyFour⟩ := Bool.and_eq_true_iff.mp h
    obtain rfl := beq_iff_eq.mp hbackend
    show checkedReal signed bits x = _
    unfold checkedReal
    dsimp only
    rw [if_pos hsixtyFour]
  | bool | floating | brain | narrow | complex | object | text | bytes | raw => cases h

theorem refuses_numpy (t : ElementType) : t.refuses .numpy = false := by
  induction t with
  | swapped t ih => exact ih
  | integer | bool | floating | brain | narrow | complex | object | text | bytes | raw => rfl

theorem refuses_of_not_isWide (hwide : t.isWide = false) : t.refuses backend = false := by
  induction t with
  | swapped t ih => exact ih hwide
  | integer signed bits =>
    have hbits : ¬ 32 < bits := of_decide_eq_false hwide
    have hsixtyFour : (bits == 64) = false := beq_eq_false_iff_ne.mpr (by omega)
    rw [refuses, hsixtyFour, Bool.and_false, Bool.and_false]
  | bool | floating | brain | narrow | complex | object | text | bytes | raw => rfl

/-- An entry is rounded to itself exactly if it is no integer or a short one. -/
theorem rounded_eq_self (ht : t.isPlain = true) (he : t.Holds backend e) :
    e.rounded = e ↔ ∀ n, e = .int n → BinaryFormat.Short n.natAbs := by
  cases e with
  | int n =>
    have hx := Number.toReal_int_eq_ok.mp (toReal_measured ht he)
    rw [Element.rounded, Element.int.injEq, Machine.roundInt_eq_self hx]
    exact ⟨fun h _ hn => by cases hn; exact h, fun h => h n rfl⟩
  | bool | real | text | pair => exact iff_of_true rfl nofun

/-- Integers of at most thirty-two bits are short. -/
theorem short_of_not_isWide (ht : t.isPlain = true) (hwide : t.isWide = false)
    (h : t.Holds backend (.int n)) : BinaryFormat.Short n.natAbs := by
  induction t with
  | swapped t ih => exact ih ht hwide h
  | integer signed bits =>
    have hbits : bits ≤ 32 := not_lt.mp (of_decide_eq_false hwide)
    have hle : n.natAbs ≤ 2 ^ 32 :=
      (natAbs_le_of_within h).trans (Nat.pow_le_pow_right (by decide) hbits)
    exact BinaryFormat.short_of_lt (hle.trans_lt (by decide))
  | bool | floating | brain => exact h.elim
  | narrow | complex | object | text | bytes | raw => cases ht

end ElementType

/-! ### Arrays -/

namespace StoredArray

/-- An array of one of the types of its backend: its entries are values of the type, as many as its
shape asks for, and the backend has the shape. -/
structure Typed (a : StoredArray) : Prop where
  element : a.element ∈ ElementType.arrayTypes a.backend
  entries : ∀ e ∈ a.entries, a.element.Holds a.backend e
  size : a.entries.length = Shape.size a.shape
  axes : ∀ n ∈ a.shape, (n : Int) ≤ Shape.maxLength
  allowed : Shape.isAllowed a.backend a.element.byteSize a.shape = true

/-- Every integer in an array is short. -/
def Short (a : StoredArray) : Prop := ∀ n, .int n ∈ a.entries → BinaryFormat.Short n.natAbs

/-- An array has entries that its type does not take back. -/
def Refused (a : StoredArray) : Prop :=
  a.element.refuses a.backend = true ∧ a.entries ≠ []

/-- An array with its integers rounded. -/
def rounded (a : StoredArray) : StoredArray := { a with entries := a.entries.map Element.rounded }

/-- What an array is written as. -/
def written (a : StoredArray) : Payload where
  backend := a.backend
  element := .text a.element.label
  axes := a.shape.map fun n : Nat => .int n
  entries := a.entries.map fun e => Document.ofReal e.measured

variable {a : StoredArray}

theorem encode_eq_written (h : a.Typed) : a.encode = .ok (.object a.written.fields) := by
  have ht := ElementType.isPlain_of_mem h.element
  have hdata : (a.entries.mapM fun e => do return Document.ofReal (← e.toReal)) =
      .ok (a.entries.map fun e => Document.ofReal e.measured) := by
    refine mapM_eq_ok_map fun e he => ?_
    rw [ElementType.toReal_measured ht (h.entries e he)]
    rfl
  unfold encode
  rw [hdata]
  rfl

/-- An array is read back as the one whose entries are what is stored for those that were
written. -/
theorem decode_written (h : a.Typed) :
    decode (.object a.written.fields) =
      ((a.entries.mapM fun e => a.element.storeValue a.backend (.real e.measured)) >>=
        fun es => .ok (some { a with entries := es })) := by
  have ht := ElementType.isPlain_of_mem h.element
  -- the entries are measured, the label and the shape are read back, and the rest is storing
  have hdata : a.written.entries.mapM Value.toReal = .ok (a.entries.map Element.measured) := by
    show (a.entries.map fun e => Document.ofReal e.measured).mapM Value.toReal = _
    rw [mapM_eq_ok, List.forall₂_map_left_iff, List.forall₂_map_right_iff, List.forall₂_same]
    exact fun e _ => Document.toReal_ofReal e.measured
  have hlabel : elementOf a.backend (.text a.element.label) = .ok a.element := by
    have hof := ElementType.ofName_label_of_mem h.element
    cases hb : a.backend <;> rw [hb] at hof <;> exact hof
  have hlengths : a.written.axes.mapM (length a.backend) =
      .ok (a.shape.map fun n : Nat => (n : Int)) := mapM_length h.axes
  have hresolve : Shape.resolve a.backend a.element (a.shape.map fun n : Nat => (n : Int))
      a.entries.length = .ok a.shape := by
    have hfits : a.written.Fits := by
      refine ⟨_, mapM_axis? a.shape, ?_⟩
      rw [foldl_natCast, written, List.length_map, h.size]
    have hshape : a.written.shape = a.shape := by
      rw [Payload.shape_eq hlengths, List.map_map]
      exact List.map_id a.shape
    have hcount : a.written.entries.length = a.entries.length := List.length_map _
    have hresolve := Payload.resolve_eq (t := a.element) hfits hlengths
    rw [hcount, hshape] at hresolve
    exact hresolve.trans (if_pos h.allowed)
  have hstore : a.element.storeAll a.backend ((a.entries.map Element.measured).map .real) =
      ((a.entries.mapM fun e => a.element.storeValue a.backend (.real e.measured)) >>=
        fun es => .ok (a.element, es)) := by
    unfold ElementType.storeAll
    rw [ElementType.fitted_of_isPlain ht, List.map_map]
    dsimp only
    rw [List.mapM_map]
    rfl
  rw [decode, Payload.decodeFields_eq (Payload.in_fields _)]
  show ((a.written.entries.mapM Value.toReal >>= fun data =>
    elementOf a.backend (.text a.element.label) >>= fun t =>
    t.storeAll a.backend (data.map .real) >>= fun stored =>
    a.written.axes.mapM (length a.backend) >>= fun lengths =>
    Shape.resolve a.backend stored.1 lengths stored.2.length >>= fun shape =>
    Except.ok (StoredArray.mk a.backend stored.1 shape stored.2)) >>= fun b => .ok (some b)) = _
  rw [hdata, hlabel]
  show ((a.element.storeAll a.backend ((a.entries.map Element.measured).map .real) >>= _) >>= _) = _
  rw [hstore]
  cases hes : a.entries.mapM fun e => a.element.storeValue a.backend (.real e.measured) with
  | error f => rfl
  | ok es =>
    have hcount := length_of_mapM_eq_ok hes
    show ((a.written.axes.mapM (length a.backend) >>= fun lengths =>
      Shape.resolve a.backend a.element lengths es.length >>= fun shape =>
      Except.ok (StoredArray.mk a.backend a.element shape es)) >>= fun b => .ok (some b)) = _
    rw [hlengths, hcount]
    show ((Shape.resolve a.backend a.element (a.shape.map fun n : Nat => (n : Int))
      a.entries.length >>= _) >>= _) = _
    rw [hresolve]
    rfl

theorem rounded_eq_self (h : a.Typed) : a.rounded = a ↔ a.Short := by
  have ht := ElementType.isPlain_of_mem h.element
  have hmap : a.rounded = a ↔ ∀ e ∈ a.entries, e.rounded = id e := by
    rw [← List.map_inj_left, List.map_id]
    refine ⟨fun hround => congrArg StoredArray.entries hround, fun hentries => ?_⟩
    rw [rounded, hentries]
  rw [hmap]
  constructor
  · exact fun hall n hn =>
      (ElementType.rounded_eq_self ht (h.entries _ hn)).mp (hall _ hn) n rfl
  · refine fun hshort e he => (ElementType.rounded_eq_self ht (h.entries e he)).mpr ?_
    rintro n rfl
    exact hshort n he

/-- Only the entries can keep the rounded array from being one of its type. -/
theorem typed_rounded_iff (h : a.Typed) :
    a.rounded.Typed ↔ ∀ e ∈ a.entries, a.element.Holds a.backend e.rounded := by
  constructor
  · exact fun hrounded e he => hrounded.entries _ (List.mem_map_of_mem he)
  · intro hall
    refine ⟨h.element, fun e' he' => ?_, (List.length_map _).trans h.size, h.axes, h.allowed⟩
    obtain ⟨e, he, rfl⟩ := List.mem_map.mp he'
    exact hall e he

/-- An array is read back with its integers rounded, if they are of its type then. -/
theorem decode_of_typed_rounded (h : a.Typed) (hrefused : ¬ a.Refused)
    (hrounded : a.rounded.Typed) :
    decode (.object a.written.fields) = .ok (some a.rounded) := by
  have ht := ElementType.isPlain_of_mem h.element
  have hall := (typed_rounded_iff h).mp hrounded
  have hstore : (a.entries.mapM fun e => a.element.storeValue a.backend (.real e.measured)) =
      .ok (a.entries.map Element.rounded) := by
    refine mapM_eq_ok_map fun e he => ?_
    have hrefuses : a.element.refuses a.backend = false :=
      Bool.eq_false_iff.mpr fun hr => hrefused ⟨hr, List.ne_nil_of_mem he⟩
    exact ElementType.storeValue_measured ht hrefuses (h.entries e he) (hall e he)
  rw [decode_written h, hstore]
  rfl

/-- An array that is read back as it was has short integers. -/
theorem short_of_decode (h : a.Typed)
    (hdecode : decode (.object a.written.fields) = .ok (some a)) : a.Short := by
  have ht := ElementType.isPlain_of_mem h.element
  rw [decode_written h] at hdecode
  obtain ⟨es, hes, heq⟩ := bind_eq_ok.mp hdecode
  have hentries : es = a.entries :=
    congrArg StoredArray.entries (Option.some_inj.mp (Except.ok.inj heq))
  rw [hentries, mapM_eq_ok, List.forall₂_same] at hes
  intro n hn
  have hself := ElementType.eq_rounded_of_storeValue ht (h.entries _ hn) (hes _ hn)
  exact (ElementType.rounded_eq_self ht (h.entries _ hn)).mp hself.symm n rfl

theorem decode_of_refused (h : a.Typed) (hrefused : a.Refused) :
    decode (.object a.written.fields) = .error .wrongType := by
  obtain ⟨hrefuses, hne⟩ := hrefused
  obtain ⟨e, es, hentries⟩ := List.exists_cons_of_ne_nil hne
  rw [decode_written h, hentries, List.mapM_cons, ElementType.storeValue_of_refuses hrefuses]
  rfl

/-- The first backend refuses an array with an integer that was rounded to none of its type. -/
theorem decode_of_not_typed_rounded (h : a.Typed) (hbackend : a.backend = .numpy)
    (hrounded : ¬ a.rounded.Typed) :
    decode (.object a.written.fields) = .error .outOfRange := by
  have ht := ElementType.isPlain_of_mem h.element
  have hentries := h.entries
  rw [typed_rounded_iff h] at hrounded
  rw [decode_written h]
  rw [hbackend] at hentries hrounded ⊢
  -- each entry is stored as it was, or it is too large once it is measured
  have hstore : ∀ e ∈ a.entries, a.element.Holds .numpy e.rounded ∨
      a.element.storeValue .numpy (.real e.measured) = .error .outOfRange := fun e he =>
    or_iff_not_imp_left.mpr (ElementType.storeValue_numpy_of_not_holds ht (hentries e he))
  have hraises : Raises (fun f => f = .outOfRange)
      (a.entries.mapM fun e => a.element.storeValue .numpy (.real e.measured)) := by
    refine Raises.mapM fun e he => ?_
    rcases hstore e he with hholds | herror
    · rw [ElementType.storeValue_measured ht (ElementType.refuses_numpy _) (hentries e he) hholds]
      exact .ok _
    · rw [herror]
      exact .error rfl
  cases hes : a.entries.mapM fun e => a.element.storeValue .numpy (.real e.measured) with
  | error f =>
    obtain rfl := hraises f hes
    rfl
  | ok es =>
    -- then no entry was too large
    refine absurd (fun e he => ?_) hrounded
    obtain ⟨e', he'⟩ := exists_mapM_eq_ok.mp ⟨es, hes⟩ e he
    rcases hstore e he with hholds | herror
    · exact hholds
    · rw [herror] at he'
      cases he'

/-- **What is written of an array is read back as it was exactly if its integers are short.**  An
array of any type of its backend, of any shape and with any entries, is written.  It is read back in
every bit if its type is not one of integers of sixty-four bits; of the others, those whose
integers stay in the type when they are rounded are read back with their integers rounded.  The
first backend refuses the rest; the second one refuses all unsigned integers of sixty-four bits. -/
theorem decode_encode_iff (h : a.Typed) :
    ∃ doc, a.encode = .ok doc ∧
      (decode doc = .ok (some a) ↔ a.Short ∧ ¬ a.Refused) ∧
      (a.element.isWide = false → decode doc = .ok (some a)) ∧
      (¬ a.Refused → a.rounded.Typed → decode doc = .ok (some a.rounded)) ∧
      (a.Refused → decode doc = .error .wrongType) ∧
      (a.backend = .numpy → ¬ a.rounded.Typed → decode doc = .error .outOfRange) := by
  have ht := ElementType.isPlain_of_mem h.element
  -- the integers that fit a real number are their own rounding
  have hkept (hshort : a.Short) (hrefused : ¬ a.Refused) :
      decode (.object a.written.fields) = .ok (some a) := by
    have hself := (rounded_eq_self h).mpr hshort
    have hdecode := decode_of_typed_rounded h hrefused (hself.symm ▸ h)
    rwa [hself] at hdecode
  refine ⟨_, encode_eq_written h, ⟨fun hdecode => ⟨short_of_decode h hdecode, ?_⟩, ?_⟩, ?_,
    decode_of_typed_rounded h, decode_of_refused h, decode_of_not_typed_rounded h⟩
  · intro hrefused
    rw [decode_of_refused h hrefused] at hdecode
    cases hdecode
  · exact fun hboth => hkept hboth.1 hboth.2
  · intro hwide
    refine hkept (fun n hn => ElementType.short_of_not_isWide ht hwide (h.entries _ hn)) ?_
    intro hrefused
    have hrefuses := hrefused.1
    rw [ElementType.refuses_of_not_isWide hwide] at hrefuses
    cases hrefuses

/-- An array of one integer of sixty-four bits. -/
def wide (backend : Backend) (signed : Bool) (n : ℤ) : StoredArray :=
  ⟨backend, .integer signed 64, [1], [.int n]⟩

theorem typed_wide {backend : Backend} {signed : Bool} {n : ℤ}
    (h : ElementType.within n (ElementType.bounds signed 64) = true) :
    (wide backend signed n).Typed where
  element := by
    show ElementType.integer signed 64 ∈ ElementType.arrayTypes backend
    cases backend <;> cases signed <;> decide
  entries := List.forall_mem_singleton.mpr h
  size := rfl
  axes := List.forall_mem_singleton.mpr (by decide)
  allowed := by
    show Shape.isAllowed backend (64 / 8) [1] = true
    cases backend <;> decide +kernel

/-- The integer 3 is read back; the one after the fifty-third power of two is read back as that
power; the greatest integer of the type is refused; and so is 3 as an unsigned integer of the second
backend. -/
theorem decode_encode_iff_wide :
    (∃ doc, (wide .numpy true 3).encode = .ok doc ∧
      decode doc = .ok (some (wide .numpy true 3))) ∧
    (∃ doc, (wide .numpy true (2 ^ 53 + 1)).encode = .ok doc ∧
      decode doc = .ok (some (wide .numpy true (2 ^ 53)))) ∧
    (∃ doc, (wide .numpy true (2 ^ 63 - 1)).encode = .ok doc ∧
      decode doc = .error .outOfRange) ∧
    ∃ doc, (wide .torch false 3).encode = .ok doc ∧ decode doc = .error .wrongType := by
  have hkept : (wide .numpy true 3).Typed := typed_wide (by decide)
  have hmoved : (wide .numpy true (2 ^ 53 + 1)).Typed := typed_wide (by decide)
  have hlost : (wide .numpy true (2 ^ 63 - 1)).Typed := typed_wide (by decide)
  have hunsigned : (wide .torch false 3).Typed := typed_wide (by decide)
  have haccepts {signed : Bool} {n : ℤ} : ¬ (wide .numpy signed n).Refused := fun h => by
    cases h.1
  have hpower : (wide .numpy true (2 ^ 53 + 1)).rounded = wide .numpy true (2 ^ 53) := by
    decide +kernel
  -- `2 ^ 63 - 1` is measured as `2 ^ 63`
  have hbeyond : ¬ (wide .numpy true (2 ^ 63 - 1)).rounded.Typed := fun h => by
    have hholds : ElementType.within (Machine.roundInt (2 ^ 63 - 1))
        (ElementType.bounds true 64) = true := h.entries _ (List.mem_singleton_self _)
    exact absurd hholds (by decide +kernel)
  obtain ⟨doc₁, hdoc₁, hiff, -⟩ := decode_encode_iff hkept
  obtain ⟨doc₂, hdoc₂, -, -, hround, -⟩ := decode_encode_iff hmoved
  obtain ⟨doc₃, hdoc₃, -, -, -, -, hrefuse⟩ := decode_encode_iff hlost
  obtain ⟨doc₄, hdoc₄, -, -, -, hrefuse', -⟩ := decode_encode_iff hunsigned
  refine ⟨⟨doc₁, hdoc₁, hiff.mpr ⟨?_, haccepts⟩⟩, ⟨doc₂, hdoc₂, ?_⟩,
    ⟨doc₃, hdoc₃, hrefuse rfl hbeyond⟩, ⟨doc₄, hdoc₄, hrefuse' ⟨rfl, List.cons_ne_nil _ _⟩⟩⟩
  · intro n hn
    cases List.mem_singleton.mp hn
    exact BinaryFormat.short_of_lt (by decide)
  · rw [← hpower]
    exact hround haccepts (hpower ▸ typed_wide (by decide))

end StoredArray

end Descent
