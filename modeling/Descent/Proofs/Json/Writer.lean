import Descent.Json.Printer
import Descent.Proofs.Act.Run
import Descent.Proofs.Json.Reals

/-!
# What the writer leaves

The writer accepts a document if its measured values are finite and its integers are not too long
(`Json.isWritable`).  Then it writes the text of the document, and otherwise it is refused and has
written less (`Json.writes_stream`): each piece follows those before it, and none is written after
one that is refused.

What is written can be read if the text keeps the rest of the document, too (`Json.Kept`): no two
lone surrogates of a string are a pair, and no object has a key twice (`Json.legible_of_kept`).
-/

namespace Descent.Json

/-! ### Accepted documents -/

mutual

/-- Whether the writer refuses nothing in a document. -/
def isWritable : Document → Bool
  | .int n => decide ((Nat.toDigits 10 n.natAbs).length ≤ Text.maxDigits)
  | .real x => x.isFinite
  | .list vs => areWritable vs
  | .object fs => fieldsWritable fs
  | .null | .bool _ | .text _ => true

/-- Whether the writer refuses nothing in the items. -/
def areWritable : List Document → Bool
  | [] => true
  | v :: vs => isWritable v && areWritable vs

/-- Whether the writer refuses nothing in the fields. -/
def fieldsWritable : List (String × Document) → Bool
  | [] => true
  | (_, v) :: fs => isWritable v && fieldsWritable fs

end

theorem areWritable_eq_true {vs : List Document} :
    areWritable vs = true ↔ ∀ v ∈ vs, isWritable v = true := by
  induction vs with
  | nil => exact iff_of_true rfl nofun
  | cons v vs ih => rw [areWritable, Bool.and_eq_true, ih, List.forall_mem_cons]

theorem fieldsWritable_eq_true {fs : List (String × Document)} :
    fieldsWritable fs = true ↔ ∀ f ∈ fs, isWritable f.2 = true := by
  induction fs with
  | nil => exact iff_of_true rfl nofun
  | cons f fs ih =>
    obtain ⟨k, v⟩ := f
    rw [fieldsWritable, Bool.and_eq_true, ih, List.forall_mem_cons]

theorem isWritable_int {n : Int} :
    isWritable (.int n) = true ↔ n.natAbs < 10 ^ Text.maxDigits := by
  rw [isWritable, decide_eq_true_iff]
  exact Nat.length_toDigits_le_iff (by decide) (by decide)

/-! ### Pieces -/

/-- The step writes the whole text if it is accepted; otherwise it is refused and writes less. -/
def Writes (a : Act Float String Unit) (accepted : Bool) (text : String) : Prop :=
  ∀ before, if accepted then a.run before = (.ok (), before ++ text)
    else ∃ part rest, text = part ++ rest ∧ rest ≠ "" ∧
      a.run before = (.error .wrongValue, before ++ part)

theorem writes_emit (text : String) : Writes (emit text) true text := fun _ => rfl

theorem writes_nothing : Writes (pure ()) true "" := by
  intro before
  rw [if_pos rfl, String.append_empty]
  rfl

/-- What is refused before anything is written. -/
theorem writes_refusal {text : String} (h : text ≠ "") {f : String → Act Float String Unit} :
    Writes (Act.lift (.error .wrongValue) >>= f) false text := by
  intro before
  rw [if_neg (by decide)]
  refine ⟨"", text, (String.empty_append).symm, h, ?_⟩
  rw [String.append_empty]
  rfl

/-- One piece follows another, unless that was refused. -/
theorem Writes.bind {a b : Act Float String Unit} {p q : Bool} {s t : String} (ha : Writes a p s)
    (hb : Writes b q t) : Writes (a >>= fun _ => b) (p && q) (s ++ t) := by
  intro before
  have ha := ha before
  cases p with
  | true =>
    rw [if_pos rfl] at ha
    rw [Act.run_bind_of_ok ha, Bool.true_and]
    have hb := hb (before ++ s)
    cases q with
    | true =>
      rw [if_pos rfl] at hb ⊢
      rw [hb, String.append_assoc]
    | false =>
      rw [if_neg (by decide)] at hb ⊢
      -- the second step has written a part of its text
      obtain ⟨part, rest, rfl, hrest, hrun⟩ := hb
      refine ⟨s ++ part, rest, (String.append_assoc ..).symm, hrest, ?_⟩
      rw [hrun, String.append_assoc]
  | false =>
    rw [if_neg (by decide)] at ha
    rw [Bool.false_and, if_neg (by decide)]
    -- the first one has, and the second one is not made
    obtain ⟨part, rest, rfl, hrest, hrun⟩ := ha
    refine ⟨part, rest ++ t, String.append_assoc .., ?_, Act.run_bind_of_error hrun⟩
    rw [ne_eq, String.append_eq_empty_iff]
    exact fun h => hrest h.1

theorem Writes.cast {a : Act Float String Unit} {p q : Bool} {s t : String} (h : Writes a p s)
    (hp : p = q) (hs : s = t) : Writes a q t := hp ▸ hs ▸ h

/-! ### Documents -/

theorem realText_ne_empty {x : Float} (h : x.isFinite = false) : realText x ≠ "" := by
  unfold realText
  rw [h]
  simp only [Bool.false_eq_true, if_false]
  split
  · decide
  · split <;> decide

theorem toString_ne_empty (n : Int) : toString n ≠ "" := by
  cases n with
  | ofNat n =>
    intro h
    have : Nat.toDigits 10 n = [] := by
      rw [← Nat.toList_repr]
      exact congrArg String.toList h
    exact Nat.toDigits_ne_nil this
  | negSucc n =>
    rw [Int.toString_eq_repr]
    show "-" ++ (n + 1).repr ≠ ""
    rw [ne_eq, String.append_eq_empty_iff]
    exact fun h => absurd h.1 (by decide)

/-- A value that is no list and no object is written in one piece. -/
def streamScalar (before : String) (v : Document) : Act Float String Unit := do
  let text ← Act.lift (scalarText v)
  emit (before ++ text)

theorem writes_scalar {before text : String} {v : Document} (h : scalarText v = .ok text) :
    Writes (streamScalar before v) true (before ++ text) := by
  unfold streamScalar
  rw [h]
  exact writes_emit _

theorem writes_refused {before text : String} {v : Document}
    (h : scalarText v = .error .wrongValue) (htext : text ≠ "") :
    Writes (streamScalar before v) false (before ++ text) := by
  unfold streamScalar
  rw [h]
  refine writes_refusal ?_
  rw [ne_eq, String.append_eq_empty_iff]
  exact fun hempty => htext hempty.2

mutual

/-- A document is written if it is accepted; otherwise it is refused and less is written. -/
theorem writes_stream (layout : Layout) (depth : Nat) (before : String) :
    ∀ v : Document, Writes (stream layout depth before v) (isWritable v)
      (before ++ print layout depth v)
  | .null => writes_scalar rfl
  | .bool _ => writes_scalar rfl
  | .text _ => writes_scalar rfl
  | .int n => by
    show Writes (streamScalar before (.int n)) (decide _) (before ++ toString n)
    -- an integer with too many digits is refused before any of it is written
    by_cases hlength : (Nat.toDigits 10 n.natAbs).length ≤ Text.maxDigits
    · rw [decide_eq_true hlength]
      exact writes_scalar (if_neg (Nat.not_lt.mpr hlength))
    · rw [decide_eq_false hlength]
      exact writes_refused (if_pos (Nat.lt_of_not_le hlength)) (toString_ne_empty n)
  | .real x => by
    show Writes (streamScalar before (.real x)) x.isFinite (before ++ realText x)
    cases hfinite : x.isFinite with
    | true => exact writes_scalar (if_pos hfinite)
    | false =>
      exact writes_refused (if_neg (Bool.eq_false_iff.mp hfinite)) (realText_ne_empty hfinite)
  | .list [] => writes_emit _
  | .list (v :: vs) =>
    have h := (writes_emit before).bind
      ((writes_items layout (depth + 1) ("[" ++ layout.lead (depth + 1)) (v :: vs)
        (List.cons_ne_nil v vs)).bind (writes_emit (layout.lead depth ++ "]")))
    h.cast (Bool.and_true _) (by
      show _ = before ++ ("[" ++ layout.lead (depth + 1) ++
        printItems layout (depth + 1) (v :: vs) ++ layout.lead depth ++ "]")
      simp only [String.append_assoc])
  | .object [] => writes_emit _
  | .object (f :: fs) =>
    have h := (writes_emit (before ++ "\x7b" ++ layout.lead (depth + 1))).bind
      ((writes_fields layout (depth + 1) "" (f :: fs) (List.cons_ne_nil f fs)).bind
        (writes_emit (layout.lead depth ++ "\x7d")))
    h.cast (Bool.and_true _) (by
      show _ = before ++ ("\x7b" ++ layout.lead (depth + 1) ++
        printFields layout (depth + 1) (f :: fs) ++ layout.lead depth ++ "\x7d")
      simp only [String.append_assoc, String.empty_append])

theorem writes_items (layout : Layout) (depth : Nat) (before : String) :
    ∀ vs : List Document, vs ≠ [] → Writes (streamItems layout depth before vs)
      (areWritable vs) (before ++ printItems layout depth vs)
  | [], hne => absurd rfl hne
  | [v], _ =>
    ((writes_stream layout depth before v).bind writes_nothing).cast rfl String.append_empty
  | v :: w :: vs, _ =>
    have h := (writes_stream layout depth before v).bind
      (writes_items layout depth (layout.separator depth) (w :: vs) (List.cons_ne_nil w vs))
    h.cast rfl (by
      show _ = before ++ (print layout depth v ++ layout.separator depth ++
        printItems layout depth (w :: vs))
      simp only [String.append_assoc])

theorem writes_fields (layout : Layout) (depth : Nat) (before : String) :
    ∀ fs : List (String × Document), fs ≠ [] → Writes (streamFields layout depth before fs)
      (fieldsWritable fs) (before ++ printFields layout depth fs)
  | [], hne => absurd rfl hne
  | [(k, v)], _ =>
    have h := (writes_emit (before ++ stringText k ++ ": ")).bind
      ((writes_stream layout depth "" v).bind writes_nothing)
    h.cast rfl (by
      show _ = before ++ (stringText k ++ ": " ++ print layout depth v)
      simp only [String.append_assoc, String.empty_append, String.append_empty])
  | (k, v) :: g :: fs, _ =>
    have h := (writes_emit (before ++ stringText k ++ ": ")).bind
      ((writes_stream layout depth "" v).bind
        (writes_fields layout depth (layout.separator depth) (g :: fs) (List.cons_ne_nil g fs)))
    h.cast rfl (by
      show _ = before ++ (stringText k ++ ": " ++ print layout depth v ++
        layout.separator depth ++ printFields layout depth (g :: fs))
      simp only [String.append_assoc, String.empty_append])

end

/-- The text of a document is there exactly if the document is accepted. -/
theorem printed_eq (layout : Layout) (v : Document) :
    printed layout v = if isWritable v then .ok (print layout 0 v) else .error .wrongValue := by
  have h := writes_stream layout 0 "" v ""
  rw [String.empty_append] at h
  unfold printed
  cases hv : isWritable v with
  | true =>
    rw [hv, if_pos rfl] at h
    rw [Act.run_bind_of_ok h, if_pos rfl, Act.run_get, String.empty_append]
  | false =>
    rw [hv, if_neg (by decide)] at h
    obtain ⟨part, rest, -, -, hrun⟩ := h
    rw [Act.run_bind_of_error hrun, if_neg (by decide)]

/-! ### Reading what was written -/

mutual

/-- The text of a document keeps its strings and its fields: no two lone surrogates of a string are
a pair, and no object has a key twice. -/
def Kept : Document → Prop
  | .null | .bool _ | .int _ | .real _ => True
  | .text s => Text.Unpaired s
  | .list vs => AllKept vs
  | .object fs => (fs.map Prod.fst).Nodup ∧ FieldsKept fs

/-- The texts of the items keep their strings and fields. -/
def AllKept : List Document → Prop
  | [] => True
  | v :: vs => Kept v ∧ AllKept vs

/-- The texts of the fields keep their strings and fields. -/
def FieldsKept : List (String × Document) → Prop
  | [] => True
  | (k, v) :: fs => Text.Unpaired k ∧ Kept v ∧ FieldsKept fs

end

theorem allKept_iff {vs : List Document} : AllKept vs ↔ ∀ v ∈ vs, Kept v := by
  induction vs with
  | nil => exact iff_of_true trivial nofun
  | cons v vs ih => rw [AllKept, ih, List.forall_mem_cons]

theorem fieldsKept_iff {fs : List (String × Document)} :
    FieldsKept fs ↔ ∀ f ∈ fs, Text.Unpaired f.1 ∧ Kept f.2 := by
  induction fs with
  | nil => exact iff_of_true trivial nofun
  | cons f fs ih =>
    obtain ⟨k, v⟩ := f
    rw [FieldsKept, ih, List.forall_mem_cons, and_assoc]

mutual

/-- A document can be read if it is accepted and its text keeps it. -/
theorem legible_of_kept : ∀ v : Document, isWritable v = true → Kept v → Legible v
  | .null, _, _ => trivial
  | .bool _, _, _ => trivial
  | .int n, h, _ =>
    of_decide_eq_true (p := (Nat.toDigits 10 n.natAbs).length ≤ Text.maxDigits) h
  | .real _, h, _ => readsBack_of_isFinite h
  | .text _, _, h => h
  | .list vs, hw, hk => allLegible_of_kept vs hw hk
  | .object fs, hw, hk => ⟨hk.1, fieldsLegible_of_kept fs hw hk.2⟩

theorem allLegible_of_kept :
    ∀ vs : List Document, areWritable vs = true → AllKept vs → AllLegible vs
  | [], _, _ => trivial
  | v :: vs, hw, hk => by
    obtain ⟨hv, hvs⟩ := (Bool.and_eq_true _ _).mp hw
    exact ⟨legible_of_kept v hv hk.1, allLegible_of_kept vs hvs hk.2⟩

theorem fieldsLegible_of_kept :
    ∀ fs : List (String × Document), fieldsWritable fs = true → FieldsKept fs → FieldsLegible fs
  | [], _, _ => trivial
  | (_, v) :: fs, hw, hk => by
    obtain ⟨hv, hfs⟩ := (Bool.and_eq_true _ _).mp hw
    exact ⟨hk.1, legible_of_kept v hv hk.2.1, fieldsLegible_of_kept fs hfs hk.2.2⟩

end

end Descent.Json
