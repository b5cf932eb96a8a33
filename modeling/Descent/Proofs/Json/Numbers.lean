import Descent.Json.Printer
import Descent.Json.Reader
import Mathlib.Data.List.Basic

/-!
# Numbers of documents

The reader takes as much of a text as a number can have, so a number is read as it is written
where what follows cannot go on with it (`Json.Ends`).  Integers are read back as they were written
up to the number of digits that the reader takes (`Json.scalar_int`).
-/

namespace Descent.Json

/-- What follows cannot go on with a number. -/
def Ends (rest : List Char) : Prop :=
  ∀ c ∈ rest.head?, Text.isDigit c = false ∧ c ≠ '.' ∧ c ≠ 'e' ∧ c ≠ 'E'

/-- What follows does not go on with digits. -/
def Breaks (rest : List Char) : Prop := ∀ c ∈ rest.head?, Text.isDigit c = false

theorem Ends.breaks {rest : List Char} (h : Ends rest) : Breaks rest := fun c hc => (h c hc).1

theorem isDigit_iff {c : Char} : Text.isDigit c = true ↔ 48 ≤ c.toNat ∧ c.toNat ≤ 57 := by
  rw [Text.isDigit, Bool.and_eq_true, decide_eq_true_iff, decide_eq_true_iff]

/-! ### Digits -/

theorem isDigit_of_mem_toDigits {n : Nat} {c : Char} (h : c ∈ Nat.toDigits 10 n) :
    Text.isDigit c = true := by
  have hc : c.isDigit = true := Nat.isDigit_of_mem_toDigits (by decide) (by decide) h
  simp only [Char.isDigit, Bool.and_eq_true, decide_eq_true_iff] at hc
  rw [isDigit_iff]
  exact hc

/-- Only zero begins with a zero. -/
theorem head?_toDigits {n : Nat} (h : 0 < n) : (Nat.toDigits 10 n).head? ≠ some '0' := by
  induction n using Nat.strongRecOn with
  | ind n ih =>
    by_cases hn : n < 10
    · rw [Nat.toDigits_of_lt_base hn, List.head?_cons, ne_eq, Option.some_inj,
        Nat.digitChar_eq_zero]
      omega
    · rw [Nat.toDigits_of_base_le (by decide) (by omega),
        List.head?_append_of_ne_nil _ Nat.toDigits_ne_nil]
      exact ih (n / 10) (by omega) (by omega)

/-- The digits of a number are those of the number. -/
theorem ofDigits_toDigits (n : Nat) :
    Decimal.ofDigits ((Nat.toDigits 10 n).map Text.digitValue) = n := by
  rw [Decimal.ofDigits, List.foldl_map]
  exact Nat.ofDigitChars_ten_toDigits

theorem digits_append {ds rest : List Char} (hds : ∀ c ∈ ds, Text.isDigit c = true)
    (hrest : Breaks rest) : digits (ds ++ rest) = (ds, rest) := by
  have hstop : rest.takeWhile Text.isDigit = [] ∧ rest.dropWhile Text.isDigit = rest := by
    cases rest with
    | nil => exact ⟨rfl, rfl⟩
    | cons c rest =>
      have hc := hrest c rfl
      simp [List.takeWhile, List.dropWhile, hc]
  rw [digits, List.takeWhile_append_of_pos hds, List.dropWhile_append_of_pos hds, hstop.1,
    hstop.2, List.append_nil]

/-- There is no fraction where nothing goes on. -/
theorem fraction_of_ends {rest : List Char} (h : Ends rest) : fraction rest = ([], rest) := by
  cases rest with
  | nil => rfl
  | cons c rest =>
    have hc : c ≠ '.' := (h c rfl).2.1
    unfold fraction
    split
    · rename_i heq
      exact absurd (List.cons.inj heq).1 hc
    · rfl

theorem exponent_of_ends {rest : List Char} (h : Ends rest) : exponent rest = (none, rest) := by
  cases rest with
  | nil => rfl
  | cons c rest =>
    obtain ⟨-, -, he, hE⟩ := h c rfl
    have hmark : (c == 'e' || c == 'E') = false := by
      rw [beq_eq_false_iff_ne.mpr he, beq_eq_false_iff_ne.mpr hE]
      rfl
    simp [exponent, hmark]

/-- The digits before a fraction: a zero stands alone. -/
def whole (cs : List Char) : List Char × List Char :=
  match cs with
  | '0' :: rest => (['0'], rest)
  | cs => digits cs

theorem unsignedNumber_def (negative : Bool) (cs : List Char) :
    unsignedNumber negative cs =
      let w := whole cs
      let f := fraction w.2
      let e := exponent f.2
      let n := Decimal.ofDigits ((w.1 ++ f.1).map Text.digitValue)
      if w.1.isEmpty then .error .malformedText
      else if f.1.isEmpty && e.1.isNone then
        if Text.maxDigits < w.1.length then .error .wrongValue
        else .ok (.int (if negative then -(n : Int) else n), e.2)
      else .ok (.real (Decimal.Literal.value ⟨negative, n, e.1.getD 0 - f.1.length⟩), e.2) := rfl

/-- A number is made of the digits before the fraction, the fraction and the exponent. -/
theorem unsignedNumber_eq {negative : Bool} {cs ds fs rest₁ rest₂ rest₃ : List Char}
    {power : Option Int} (hwhole : whole cs = (ds, rest₁)) (hne : ds ≠ [])
    (hfraction : fraction rest₁ = (fs, rest₂)) (hexponent : exponent rest₂ = (power, rest₃)) :
    unsignedNumber negative cs =
      let n := Decimal.ofDigits ((ds ++ fs).map Text.digitValue)
      if fs.isEmpty && power.isNone then
        if Text.maxDigits < ds.length then .error .wrongValue
        else .ok (.int (if negative then -(n : Int) else n), rest₃)
      else .ok (.real (Decimal.Literal.value ⟨negative, n, power.getD 0 - fs.length⟩), rest₃) := by
  have hempty : ds.isEmpty = false := List.isEmpty_eq_false_iff.mpr hne
  rw [unsignedNumber_def]
  simp only [hwhole, hfraction, hexponent, hempty, Bool.false_eq_true, if_false]

/-! ### Integers -/

/-- Digits that begin with a zero only if it stands alone are those before a fraction. -/
theorem whole_of_digits {ds rest : List Char} (hds : ∀ c ∈ ds, Text.isDigit c = true)
    (hne : ds ≠ []) (hzero : ds.head? ≠ some '0' ∨ ds = ['0']) (hrest : Breaks rest) :
    whole (ds ++ rest) = (ds, rest) := by
  rcases hzero with hhead | rfl
  · unfold whole
    split
    · rename_i heq
      rw [← List.head?_append_of_ne_nil _ hne, heq] at hhead
      exact absurd rfl hhead
    · exact digits_append hds hrest
  · rfl

theorem whole_toDigits (n : Nat) {rest : List Char} (hrest : Ends rest) :
    whole (Nat.toDigits 10 n ++ rest) = (Nat.toDigits 10 n, rest) := by
  refine whole_of_digits (fun c => isDigit_of_mem_toDigits) Nat.toDigits_ne_nil ?_ hrest.breaks
  rcases Nat.eq_zero_or_pos n with rfl | hn
  · exact .inr rfl
  · exact .inl (head?_toDigits hn)

/-- A natural number is read as it is written. -/
theorem unsignedNumber_toDigits {n : Nat} (hlength : (Nat.toDigits 10 n).length ≤ Text.maxDigits)
    (negative : Bool) {rest : List Char} (hrest : Ends rest) :
    unsignedNumber negative (Nat.toDigits 10 n ++ rest) =
      .ok (.int (if negative then -(n : Int) else n), rest) := by
  rw [unsignedNumber_eq (whole_toDigits n hrest) Nat.toDigits_ne_nil (fraction_of_ends hrest)
    (exponent_of_ends hrest)]
  simp only [List.append_nil, ofDigits_toDigits, if_neg (Nat.not_lt_of_le hlength)]
  rfl

/-- A digit is none of the characters that other values begin with. -/
theorem ne_of_isDigit {c d : Char} (hc : Text.isDigit c = true) (hd : Text.isDigit d = false) :
    d ≠ c := by
  rintro rfl
  rw [hc] at hd
  cases hd

/-- What begins with a digit, or with one after a minus, is no word. -/
theorem scalar_of_isDigit {c : Char} (hc : Text.isDigit c = true) (cs : List Char) :
    scalar (c :: cs) = unsignedNumber false (c :: cs) ∧
      scalar ('-' :: c :: cs) = unsignedNumber true (c :: cs) := by
  have hminus : '-' ≠ c := ne_of_isDigit hc rfl
  constructor
  · -- no word begins with a digit
    have hwords : words.findSome? (fun w => (word? w.1 (c :: cs)).map fun rest => (w.2, rest)) =
        none := by
      simp [words, word?, ne_of_isDigit hc (d := 'n') rfl, ne_of_isDigit hc (d := 't') rfl,
        ne_of_isDigit hc (d := 'f') rfl, ne_of_isDigit hc (d := 'N') rfl,
        ne_of_isDigit hc (d := 'I') rfl, hminus]
    unfold scalar
    rw [hwords]
    dsimp only
    split
    · rename_i heq
      exact absurd (List.cons.inj heq).1.symm hminus
    · rfl
  · have hwords : words.findSome? (fun w => (word? w.1 ('-' :: c :: cs)).map fun rest =>
        (w.2, rest)) = none := by
      simp [words, word?, ne_of_isDigit hc (d := 'I') rfl]
    unfold scalar
    rw [hwords]
    rfl

/-- An integer is read as it is written. -/
theorem scalar_int {n : Int} (hlength : (Nat.toDigits 10 n.natAbs).length ≤ Text.maxDigits)
    {rest : List Char} (hrest : Ends rest) :
    scalar ((toString n).toList ++ rest) = .ok (.int n, rest) := by
  obtain ⟨c, cs, hdigits⟩ : ∃ c cs, Nat.toDigits 10 n.natAbs = c :: cs :=
    List.exists_cons_of_ne_nil Nat.toDigits_ne_nil
  have hc : Text.isDigit c = true := isDigit_of_mem_toDigits (n := n.natAbs) (by simp [hdigits])
  have hread (negative : Bool) := unsignedNumber_toDigits hlength negative hrest
  rw [hdigits] at hread
  cases n with
  | ofNat n =>
    have htext : (toString (Int.ofNat n)).toList = c :: cs := by
      rw [← hdigits]
      exact Nat.toList_repr
    rw [htext]
    exact (scalar_of_isDigit hc (cs ++ rest)).1.trans (hread false)
  | negSucc n =>
    -- a negative integer is a minus before the digits of its size
    have htext : (toString (Int.negSucc n)).toList = '-' :: c :: cs := by
      rw [← hdigits, Int.toString_eq_repr]
      show ("-" ++ (n + 1).repr).toList = _
      rw [String.toList_append, Nat.toList_repr]
      rfl
    rw [htext]
    exact (scalar_of_isDigit hc (cs ++ rest)).2.trans (hread true)

/-! ### What follows a number -/

theorem digits_append_ends {rest : List Char} (hrest : Ends rest) (cs : List Char) :
    digits (cs ++ rest) = ((digits cs).1, (digits cs).2 ++ rest) := by
  induction cs with
  | nil => exact digits_append nofun hrest.breaks
  | cons c cs ih =>
    simp only [digits, Prod.mk.injEq] at ih ⊢
    rw [List.cons_append, List.takeWhile_cons, List.takeWhile_cons, List.dropWhile_cons,
      List.dropWhile_cons]
    cases Text.isDigit c with
    | true => exact ⟨congrArg (c :: ·) ih.1, ih.2⟩
    | false => exact ⟨rfl, rfl⟩

theorem whole_append {rest : List Char} (hrest : Ends rest) (cs : List Char) :
    whole (cs ++ rest) = ((whole cs).1, (whole cs).2 ++ rest) := by
  have hdigits := digits_append_ends hrest cs
  cases cs with
  | nil =>
    unfold whole
    split
    · rename_i heq
      -- what comes after a number is no digit
      have hzero := (hrest '0' (congrArg List.head? heq)).1
      exact absurd hzero (by decide)
    · exact hdigits
  | cons c cs =>
    by_cases hc : c = '0'
    · -- a leading zero is the whole of it
      subst hc
      rfl
    · have hwhole : ∀ tail, whole (c :: tail) = digits (c :: tail) := by
        intro tail
        unfold whole
        split
        · rename_i heq
          exact absurd (List.cons.inj heq).1 hc
        · rfl
      rw [List.cons_append, hwhole, hwhole]
      exact hdigits

theorem fraction_append {rest : List Char} (hrest : Ends rest) (cs : List Char) :
    fraction (cs ++ rest) = ((fraction cs).1, (fraction cs).2 ++ rest) := by
  cases cs with
  | nil => exact fraction_of_ends hrest
  | cons c cs =>
    by_cases hc : c = '.'
    · subst hc
      simp only [List.cons_append, fraction, digits_append_ends hrest cs]
      split <;> rfl
    · have hnone : ∀ tail, fraction (c :: tail) = ([], c :: tail) := by
        intro tail
        unfold fraction
        split
        · rename_i heq
          exact absurd (List.cons.inj heq).1 hc
        · rfl
      rw [List.cons_append, hnone, hnone]
      rfl

theorem sign_append {cs : List Char} (h : cs ≠ []) (rest : List Char) :
    Text.sign (cs ++ rest) = ((Text.sign cs).1, (Text.sign cs).2 ++ rest) := by
  cases cs with
  | nil => exact absurd rfl h
  | cons c cs =>
    rw [List.cons_append]
    by_cases hminus : c = '-'
    · subst hminus
      rfl
    · by_cases hplus : c = '+'
      · subst hplus
        rfl
      · simp [Text.sign, hminus, hplus]

/-- An exponent that nothing follows is the same with something after it. -/
theorem exponent_append {cs rest : List Char} (hrest : Ends rest) (h : (exponent cs).2 = []) :
    exponent (cs ++ rest) = ((exponent cs).1, rest) := by
  cases cs with
  | nil => exact exponent_of_ends hrest
  | cons e cs =>
    by_cases hmark : (e == 'e' || e == 'E') = true
    · by_cases hnone : (digits (Text.sign cs).2).1.isEmpty = true
      · simp [exponent, hmark, hnone] at h
      · -- there is a digit after the sign, so what follows is not taken for one
        have hne : cs ≠ [] := by
          rintro rfl
          exact hnone rfl
        simp only [exponent, hmark, hnone, if_true] at h
        have hlast : (digits (Text.sign cs).2).2 = [] := h
        simp [exponent, hmark, sign_append hne, digits_append_ends hrest, hnone, hlast]
    · simp [exponent, hmark] at h

/-- A number that nothing follows is the same number with something after it. -/
theorem unsignedNumber_append {negative : Bool} {cs rest : List Char} {v : Document}
    (hrest : Ends rest) (h : unsignedNumber negative cs = .ok (v, [])) :
    unsignedNumber negative (cs ++ rest) = .ok (v, rest) := by
  rcases hwhole : whole cs with ⟨ds, rest₁⟩
  rcases hfraction : fraction rest₁ with ⟨fs, rest₂⟩
  rcases hexponent : exponent rest₂ with ⟨power, rest₃⟩
  have hne : ds ≠ [] := by
    rintro rfl
    rw [unsignedNumber_def, hwhole] at h
    cases h
  rw [unsignedNumber_eq hwhole hne hfraction hexponent] at h
  -- nothing was left of the number, so its three parts end where what follows begins
  have hlast : rest₃ = [] := by
    dsimp only at h
    split at h
    · split at h
      · cases h
      · exact congrArg Prod.snd (Except.ok.inj h)
    · exact congrArg Prod.snd (Except.ok.inj h)
  subst hlast
  have hwhole' : whole (cs ++ rest) = (ds, rest₁ ++ rest) := by rw [whole_append hrest, hwhole]
  have hfraction' : fraction (rest₁ ++ rest) = (fs, rest₂ ++ rest) := by
    rw [fraction_append hrest, hfraction]
  have hexponent' : exponent (rest₂ ++ rest) = (power, rest) := by
    rw [exponent_append hrest (by rw [hexponent]), hexponent]
  rw [unsignedNumber_eq hwhole' hne hfraction' hexponent']
  dsimp only at h ⊢
  split at h
  · rename_i hint
    rw [if_pos hint]
    split at h
    · cases h
    · rename_i hlength
      rw [if_neg hlength]
      cases h
      rfl
  · rename_i hint
    rw [if_neg hint]
    cases h
    rfl

/-- A number begins with a digit. -/
theorem exists_of_unsignedNumber {negative : Bool} {cs : List Char} {r : Document × List Char}
    (h : unsignedNumber negative cs = .ok r) :
    ∃ c tail, cs = c :: tail ∧ Text.isDigit c = true := by
  rw [unsignedNumber_def] at h
  dsimp only at h
  split at h
  · cases h
  · rename_i hwhole
    cases cs with
    | nil => exact absurd rfl hwhole
    | cons c tail =>
      refine ⟨c, tail, rfl, ?_⟩
      by_contra hc
      have hzero : c ≠ '0' := by
        rintro rfl
        exact hc rfl
      simp [whole, digits, hzero, hc] at hwhole

/-- A word is read wherever it stands. -/
theorem scalar_word {w : String × Document} (h : w ∈ words) (rest : List Char) :
    scalar (w.1.toList ++ rest) = .ok (w.2, rest) := by
  simp only [words, List.mem_cons, List.not_mem_nil, or_false] at h
  rcases h with rfl | rfl | rfl | rfl | rfl | rfl <;> rfl

/-- A scalar that nothing follows is the same with something after it. -/
theorem scalar_append {cs rest : List Char} {v : Document} (hrest : Ends rest)
    (h : scalar cs = .ok (v, [])) : scalar (cs ++ rest) = .ok (v, rest) := by
  unfold scalar at h
  split at h
  · -- a word that nothing follows is the word
    rename_i hfound
    obtain ⟨w, hw, hword⟩ := List.exists_of_findSome?_eq_some hfound
    rw [Except.ok.injEq] at h
    rw [h, Option.map_eq_some_iff] at hword
    obtain ⟨tail, htail, heq⟩ := hword
    obtain ⟨rfl, rfl⟩ := Prod.mk.inj heq
    unfold word? at htail
    split at htail
    · rename_i hpre
      obtain ⟨after, rfl⟩ := List.isPrefixOf_iff_prefix.mp hpre
      have hafter : after = [] := by
        simpa [← String.length_toList] using htail
      rw [hafter, List.append_nil]
      exact scalar_word hw rest
    · cases htail
  · -- any other is a number, with a minus or without
    split at h
    · obtain ⟨c, tail, rfl, hc⟩ := exists_of_unsignedNumber h
      exact (scalar_of_isDigit hc (tail ++ rest)).2.trans (unsignedNumber_append hrest h)
    · obtain ⟨c, tail, rfl, hc⟩ := exists_of_unsignedNumber h
      exact (scalar_of_isDigit hc (tail ++ rest)).1.trans (unsignedNumber_append hrest h)

end Descent.Json
