import Descent.Proofs.Decimal.Shortest
import Descent.Proofs.Json.RoundTrip

/-!
# Measured values of documents

A finite machine float is written by the digits of its shortest decimal, with a mark among them or
an exponent after them.  Whichever way they are laid out, the reader finds a decimal of the same
value (`Json.gives_layout`), which is read as the float.  So every finite measured value is
read back from its own text (`Json.readsBack_of_isFinite`).
-/

namespace Descent.Json

open Decimal (Literal)

/-! ### The number that digits write -/

/-- The number that digits write. -/
def worth (ds : List Char) : ℕ := Decimal.ofDigits (ds.map Text.digitValue)

theorem worth_append (ds es : List Char) :
    worth (ds ++ es) = worth ds * 10 ^ es.length + worth es := by
  have hfold : ∀ (ns : List ℕ) (n : ℕ), ns.foldl (fun n d => 10 * n + d) n =
      n * 10 ^ ns.length + ns.foldl (fun n d => 10 * n + d) 0 := by
    intro ns
    induction ns with
    | nil => simp
    | cons m ns ih =>
      intro n
      rw [List.foldl_cons, List.foldl_cons, ih (10 * n + m), ih (10 * 0 + m), List.length_cons]
      ring
  unfold worth Decimal.ofDigits
  rw [List.map_append, List.foldl_append, hfold, List.length_map]

theorem worth_zeros (k : ℕ) : worth (List.replicate k '0') = 0 := by
  induction k with
  | zero => rfl
  | succ k ih =>
    rw [List.replicate_succ', worth_append, ih, Nat.zero_mul]
    rfl

theorem worth_zero : worth ['0'] = 0 := rfl

theorem isDigit_zeros {k : ℕ} {c : Char} (h : c ∈ List.replicate k '0') :
    Text.isDigit c = true := by
  rw [List.eq_of_mem_replicate h]
  rfl

/-- Only zeros are dropped from the end. -/
theorem exists_dropZeros (ds : List Char) :
    ∃ k, ds = Decimal.dropZeros ds ++ List.replicate k '0' := by
  set zeros := ds.reverse.takeWhile (· == '0') with hzeros
  have hall : ∀ c ∈ zeros, c = '0' := fun c hc =>
    eq_of_beq (List.mem_takeWhile_imp (p := (· == '0')) hc)
  refine ⟨zeros.length, ?_⟩
  calc ds = (zeros ++ ds.reverse.dropWhile (· == '0')).reverse := by
        rw [List.takeWhile_append_dropWhile, List.reverse_reverse]
    _ = Decimal.dropZeros ds ++ zeros.reverse := List.reverse_append
    _ = Decimal.dropZeros ds ++ List.replicate zeros.length '0' := by
        conv_lhs => rw [List.eq_replicate_of_mem hall, List.reverse_replicate]

/-! ### Numbers with a mark or an exponent -/

theorem breaks_nil : Breaks [] := nofun

theorem breaks_exponentText (e : ℤ) : Breaks (Decimal.exponentText e).toList := by
  unfold Decimal.exponentText
  intro c hc
  rw [String.toList_append] at hc
  split at hc <;> cases hc <;> rfl

/-- The digits of an exponent: a zero is put before one alone. -/
theorem exists_padded (n : ℕ) : ∃ ds : List Char,
    (if (Nat.toDigits 10 n).length < 2 then '0' :: Nat.toDigits 10 n else Nat.toDigits 10 n) = ds ∧
      (∀ c ∈ ds, Text.isDigit c = true) ∧ ds ≠ [] ∧ worth ds = n := by
  have hdigits : ∀ c ∈ Nat.toDigits 10 n, Text.isDigit c = true := fun c => isDigit_of_mem_toDigits
  have hworth : worth (Nat.toDigits 10 n) = n := ofDigits_toDigits n
  refine ⟨_, rfl, ?_⟩
  split
  · refine ⟨List.forall_mem_cons.mpr ⟨rfl, hdigits⟩, List.cons_ne_nil _ _, ?_⟩
    rw [← List.singleton_append, worth_append, hworth, worth_zero, Nat.zero_mul, Nat.zero_add]
  · exact ⟨hdigits, Nat.toDigits_ne_nil, hworth⟩

/-- An exponent is read as it is written. -/
theorem exponent_exponentText (e : ℤ) :
    exponent (Decimal.exponentText e).toList = (some e, []) := by
  obtain ⟨ds, hpadded, hdigits, hne, hworth⟩ := exists_padded e.natAbs
  have hempty : ds.isEmpty = false := List.isEmpty_eq_false_iff.mpr hne
  have hread : digits ds = (ds, []) := by
    have := digits_append hdigits breaks_nil
    rwa [List.append_nil] at this
  -- the sign of an exponent is always written
  have hsigned (sign : Char) (negative : Bool) (hsign : Text.sign (sign :: ds) = (negative, ds)) :
      exponent ('e' :: sign :: ds) =
        (some (if negative then -(e.natAbs : ℤ) else e.natAbs), []) := by
    unfold exponent
    rw [← hworth]
    simp only [hsign, hread, hempty]
    rfl
  unfold Decimal.exponentText Decimal.digitText
  dsimp only
  rw [hpadded, String.toList_append, String.toList_ofList]
  by_cases he : e < 0
  · rw [if_pos he]
    refine (hsigned '-' true rfl).trans ?_
    rw [if_pos rfl, Int.ofNat_natAbs_of_nonpos he.le, neg_neg]
  · rw [if_neg he]
    refine (hsigned '+' false rfl).trans ?_
    rw [if_neg (by decide), Int.natAbs_of_nonneg (not_lt.mp he)]

variable {ds fs tail : List Char} {power : Option ℤ}

/-- Digits with a mark among them, and perhaps an exponent after them. -/
theorem unsignedNumber_marked (negative : Bool) (hds : ∀ c ∈ ds, Text.isDigit c = true)
    (hne : ds ≠ []) (hzero : ds.head? ≠ some '0' ∨ ds = ['0'])
    (hfs : ∀ c ∈ fs, Text.isDigit c = true) (hfs' : fs ≠ []) (htail : Breaks tail)
    (hpower : exponent tail = (power, [])) :
    unsignedNumber negative (ds ++ '.' :: (fs ++ tail)) =
      .ok (.real (Literal.value ⟨negative, worth (ds ++ fs), power.getD 0 - fs.length⟩), []) := by
  have hempty : fs.isEmpty = false := List.isEmpty_eq_false_iff.mpr hfs'
  have hwhole : whole (ds ++ '.' :: (fs ++ tail)) = (ds, '.' :: (fs ++ tail)) :=
    whole_of_digits hds hne hzero fun c hc => by cases hc; rfl
  have hfraction : fraction ('.' :: (fs ++ tail)) = (fs, tail) := by
    simp only [fraction, digits_append hfs htail, hempty, Bool.false_eq_true, if_false]
  rw [unsignedNumber_eq hwhole hne hfraction hpower, hempty, Bool.false_and]
  rfl

theorem unsignedNumber_positional (negative : Bool) (hds : ∀ c ∈ ds, Text.isDigit c = true)
    (hne : ds ≠ []) (hzero : ds.head? ≠ some '0' ∨ ds = ['0'])
    (hfs : ∀ c ∈ fs, Text.isDigit c = true) (hfs' : fs ≠ []) :
    unsignedNumber negative (ds ++ '.' :: fs) =
      .ok (.real (Literal.value ⟨negative, worth (ds ++ fs), 0 - fs.length⟩), []) := by
  have hread := unsignedNumber_marked negative hds hne hzero hfs hfs' breaks_nil rfl
  rwa [List.append_nil] at hread

/-- Digits with an exponent after them. -/
theorem unsignedNumber_exponentText (negative : Bool) (hds : ∀ c ∈ ds, Text.isDigit c = true)
    (hne : ds ≠ []) (hzero : ds.head? ≠ some '0' ∨ ds = ['0']) (e : ℤ) :
    unsignedNumber negative (ds ++ (Decimal.exponentText e).toList) =
      .ok (.real (Literal.value ⟨negative, worth ds, e⟩), []) := by
  have hwhole := whole_of_digits hds hne hzero (breaks_exponentText e)
  have hfraction : fraction (Decimal.exponentText e).toList =
      ([], (Decimal.exponentText e).toList) := by
    unfold Decimal.exponentText
    rw [String.toList_append]
    split <;> rfl
  rw [unsignedNumber_eq hwhole hne hfraction (exponent_exponentText e)]
  simp [worth]

/-! ### Decimals -/

/-- The text is read as a decimal with a sign and a value. -/
def Gives (negative : Bool) (q : ℚ) (text : String) : Prop :=
  ∃ l : Literal, l.negative = negative ∧ l.decimal.value = q ∧
    unsignedNumber negative text.toList = .ok (.real l.value, [])

theorem gives_of_read {negative : Bool} {cs : List Char} {n : ℕ} {e : ℤ} {q : ℚ} {text : String}
    (hread : unsignedNumber negative cs = .ok (.real (Literal.value ⟨negative, n, e⟩), []))
    (htext : text.toList = cs) (hvalue : (n : ℚ) * 10 ^ e = q) : Gives negative q text :=
  ⟨⟨negative, n, e⟩, rfl, hvalue, htext ▸ hread⟩

section

variable {negative : Bool} {lead : ℤ} (hds : ∀ c ∈ ds, Text.isDigit c = true) (hne : ds ≠ [])
  (hhead : ds.head? ≠ some '0')

include hds hne

/-- A zero, the mark, and zeros before the digits. -/
theorem gives_below_one (h : lead < 0) :
    Gives negative (worth ds * 10 ^ (lead + 1 - ds.length))
      ("0." ++ String.ofList (List.replicate (-lead - 1).toNat '0' ++ ds)) := by
  set zeros := List.replicate (-lead - 1).toNat '0' with hzeros
  have hread : unsignedNumber negative (['0'] ++ '.' :: (zeros ++ ds)) = _ :=
    unsignedNumber_positional negative (List.forall_mem_singleton.mpr rfl) (by decide) (.inr rfl)
      (List.forall_mem_append.mpr ⟨fun c => isDigit_zeros, hds⟩)
      (List.append_ne_nil_of_right_ne_nil _ hne)
  refine gives_of_read hread ?_ ?_
  · simp only [String.toList_append, String.toList_ofList]
    rfl
  · rw [worth_append, worth_zero, worth_append, worth_zeros]
    simp only [Nat.zero_mul, Nat.zero_add, List.length_append, hzeros, List.length_replicate]
    congr 2
    push_cast
    omega

include hhead

/-- The digits with zeros after them, the mark, and a zero. -/
theorem gives_whole (h : 0 ≤ lead) (hlength : ds.length ≤ lead.toNat + 1) :
    Gives negative (worth ds * 10 ^ (lead + 1 - ds.length))
      (String.ofList (ds ++ List.replicate (lead.toNat + 1 - ds.length) '0') ++ ".0") := by
  set zeros := List.replicate (lead.toNat + 1 - ds.length) '0' with hzeros
  have hread : unsignedNumber negative ((ds ++ zeros) ++ '.' :: ['0']) = _ :=
    unsignedNumber_positional negative
      (List.forall_mem_append.mpr ⟨hds, fun c => isDigit_zeros⟩)
      (List.append_ne_nil_of_left_ne_nil hne _)
      (.inl (by rwa [List.head?_append_of_ne_nil _ hne]))
      (List.forall_mem_singleton.mpr rfl) (by decide)
  refine gives_of_read hread ?_ ?_
  · simp only [String.toList_append, String.toList_ofList]
    rfl
  · rw [worth_append, worth_append, worth_zeros, worth_zero,
      hzeros, List.length_replicate, List.length_singleton]
    -- the zero after the point counts for nothing
    have hten : (10 : ℚ) * 10 ^ (-1 : ℤ) = 1 := by norm_num
    push_cast
    rw [add_zero, add_zero, mul_assoc, mul_assoc, hten, mul_one, ← zpow_natCast]
    congr 2
    omega

/-- The mark among the digits. -/
theorem gives_mixed (h : 0 ≤ lead) (hlength : lead.toNat + 1 < ds.length) :
    Gives negative (worth ds * 10 ^ (lead + 1 - ds.length))
      (String.ofList (ds.take (lead.toNat + 1)) ++ "." ++
        String.ofList (ds.drop (lead.toNat + 1))) := by
  have htake : ds.take (lead.toNat + 1) ≠ [] := by
    rw [ne_eq, List.take_eq_nil_iff, not_or]
    exact ⟨Nat.succ_ne_zero _, hne⟩
  have hdrop : ds.drop (lead.toNat + 1) ≠ [] := by
    rw [ne_eq, List.drop_eq_nil_iff]
    exact Nat.not_le.mpr hlength
  have hread := unsignedNumber_positional negative (fun c hc => hds c (List.mem_of_mem_take hc))
    htake (.inl (by rwa [List.head?_take, if_neg (Nat.succ_ne_zero _)]))
    (fun c hc => hds c (List.mem_of_mem_drop hc)) hdrop
  refine gives_of_read hread ?_ ?_
  · simp only [String.toList_append, String.toList_ofList, List.append_assoc]
    rfl
  · rw [List.take_append_drop, List.length_drop]
    congr 2
    omega

/-- One digit, the mark and the others if there are any, and the exponent. -/
theorem gives_exponent :
    Gives negative (worth ds * 10 ^ (lead + 1 - ds.length))
      (Decimal.mantissa ds ++ Decimal.exponentText lead) := by
  match ds with
  | [] => exact absurd rfl hne
  | [d] =>
    -- one digit, and no point
    have hread := unsignedNumber_exponentText negative hds hne (.inl hhead) lead
    refine gives_of_read hread ?_ ?_
    · rw [String.toList_append, Decimal.mantissa, String.toList_singleton]
    · congr 2
      rw [List.length_singleton, Nat.cast_one, add_sub_cancel_right]
  | d :: e :: rest =>
    -- a point after the first digit
    obtain ⟨hd, hrest⟩ := List.forall_mem_cons.mp hds
    have hread := unsignedNumber_marked negative (List.forall_mem_singleton.mpr hd)
      (List.cons_ne_nil d []) (.inl hhead) hrest (List.cons_ne_nil e rest)
      (breaks_exponentText lead) (exponent_exponentText lead)
    refine gives_of_read hread ?_ ?_
    · simp only [Decimal.mantissa, String.toList_append, String.toList_singleton,
        String.toList_ofList, List.append_assoc]
      rfl
    · simp only [List.singleton_append, Option.getD_some, List.length_cons]
      congr 2
      push_cast
      ring

/-- However the digits of a decimal are laid out, a decimal of its value is read. -/
theorem gives_layout (negative : Bool) (lead : ℤ) :
    Gives negative (worth ds * 10 ^ (lead + 1 - ds.length))
      (Decimal.layout ds lead 16 ".0") := by
  obtain ⟨k, hk⟩ := exists_dropZeros ds
  unfold Decimal.layout
  set es := Decimal.dropZeros ds with hes
  have hne' : es ≠ [] := by
    intro hnil
    rw [hnil, List.nil_append] at hk
    cases k with
    | zero => exact hne hk
    | succ k => exact hhead (congrArg List.head? hk)
  have hhead' : es.head? ≠ some '0' := by
    rwa [hk, List.head?_append_of_ne_nil _ hne'] at hhead
  have hdigits : ∀ c ∈ es, Text.isDigit c = true := fun c hc => by
    refine hds c ?_
    rw [hk]
    exact List.mem_append_left _ hc
  -- the zeros that are dropped are in the exponent instead
  have hvalue : (worth ds : ℚ) * 10 ^ (lead + 1 - ds.length) =
      worth es * 10 ^ (lead + 1 - es.length) := by
    rw [hk, worth_append, worth_zeros, List.length_replicate, List.length_append,
      List.length_replicate]
    push_cast
    rw [add_zero, mul_assoc, ← zpow_natCast, ← zpow_add₀ (by decide)]
    congr 2
    ring
  rw [hvalue, if_neg hne']
  dsimp only
  by_cases hpositional : -4 ≤ lead ∧ lead < 16
  · rw [if_pos hpositional]
    by_cases hlead : lead < 0
    · rw [if_pos hlead]
      exact gives_below_one hdigits hne' hlead
    · rw [if_neg hlead]
      by_cases hlength : es.length ≤ lead.toNat + 1
      · rw [if_pos hlength]
        exact gives_whole hdigits hne' hhead' (not_lt.mp hlead) hlength
      · rw [if_neg hlength]
        exact gives_mixed hdigits hne' hhead' (not_lt.mp hlead) (Nat.lt_of_not_le hlength)
  · rw [if_neg hpositional]
    exact gives_exponent hdigits hne' hhead'

end

/-- The digits of a positive decimal are read as a decimal of its value. -/
theorem gives_parts {d : Decimal} (hd : 0 < d.digits) (negative : Bool) :
    Gives negative d.value (Decimal.layout d.parts.1 d.parts.2 16 ".0") := by
  have hdigits : ∀ c ∈ Nat.toDigits 10 d.digits, Text.isDigit c = true :=
    fun c => isDigit_of_mem_toDigits
  have hgives := gives_layout hdigits Nat.toDigits_ne_nil (head?_toDigits hd) negative d.parts.2
  have hworth : worth (Nat.toDigits 10 d.digits) = d.digits := ofDigits_toDigits d.digits
  have hexponent : d.parts.2 + 1 - ((Nat.toDigits 10 d.digits).length : ℤ) = d.exponent := by
    simp only [Decimal.parts, Decimal.digitText]
    ring
  rw [hworth, hexponent] at hgives
  exact hgives

/-! ### Machine floats -/

/-- A finite machine float has a magnitude, and it is written in digits. -/
theorem exists_decode_of_isFinite {x : Float} (h : x.isFinite = true) :
    x.isNaN = false ∧ ∃ negative m, Binary.decode x = some (negative, m) := by
  have hx : x.toModel.unpack.isFinite = true := h
  rw [Machine.decode_eq]
  show x.toModel.unpack.isNaN = false ∧ _
  generalize x.toModel.unpack = u at hx ⊢
  rcases u with ⟨s⟩ | _ | ⟨s⟩ | ⟨s, m, e, hm⟩
  · cases hx
  · cases hx
  · exact ⟨rfl, _, _, rfl⟩
  · exact ⟨rfl, _, _, rfl⟩

/-- What is written after the sign is read as the shortest decimal of the magnitude. -/
theorem gives_shortest {m : Magnitude} (hm : BinaryFormat.double.Stores m) (negative : Bool) :
    Gives negative (Decimal.shortest m).value
      (if m.significand = 0 then "0.0"
      else Decimal.layout (Decimal.shortest m).parts.1 (Decimal.shortest m).parts.2 16 ".0") := by
  by_cases hzero : m.significand = 0
  · rw [if_pos hzero, Decimal.shortest, if_pos hzero]
    have hread : unsignedNumber negative (['0'] ++ '.' :: ['0']) = _ :=
      unsignedNumber_positional negative (List.forall_mem_singleton.mpr rfl) (by decide)
        (.inr rfl) (List.forall_mem_singleton.mpr rfl) (by decide)
    refine gives_of_read hread rfl ?_
    have hworth : worth (['0'] ++ ['0']) = 0 := worth_zeros 2
    rw [hworth, Decimal.value, Nat.cast_zero, zero_mul, zero_mul]
  · rw [if_neg hzero]
    refine gives_parts (Nat.pos_of_ne_zero fun hdigits => ?_) negative
    -- a decimal without digits is read as zero
    have hread := Decimal.readsBack_iff.mp (Decimal.readsBack_shortest hm)
    rw [Decimal.numerator, hdigits, Nat.zero_mul, BinaryFormat.round, if_pos rfl] at hread
    cases hread
    exact hzero rfl

/-- A finite machine float is read back from its own text. -/
theorem readsBack_of_isFinite {x : Float} (h : x.isFinite = true) : ReadsBack x := by
  obtain ⟨hnan, negative, m, hdecode⟩ := exists_decode_of_isFinite h
  have hm := Machine.stores_decode hdecode
  obtain ⟨l, rfl, hvalue, hread⟩ := gives_shortest hm negative
  -- the shortest decimal rounds to the number it was made for
  have hx : l.value = x := Decimal.Literal.value_of_readsBack hdecode
    ((Decimal.readsBack_congr hvalue).trans (Decimal.readsBack_shortest hm))
  rw [hx] at hread
  unfold ReadsBack realText Binary.text
  simp only [hnan, h, hdecode, Bool.false_eq_true, if_false, if_true]
  obtain ⟨c, cs, htext, hc⟩ := exists_of_unsignedNumber hread
  rw [htext] at hread
  obtain ⟨hplain, hsigned⟩ := scalar_of_isDigit hc cs
  cases hnegative : l.negative with
  | true =>
    rw [hnegative] at hread
    rw [if_pos rfl, String.toList_append, htext]
    exact hsigned.trans hread
  | false =>
    rw [hnegative] at hread
    rw [if_neg (by decide), htext]
    exact hplain.trans hread

end Descent.Json
