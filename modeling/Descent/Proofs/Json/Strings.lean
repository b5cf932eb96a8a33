import Descent.Json.Printer
import Descent.Json.Reader
import Mathlib.Data.List.Chain

/-!
# Strings of documents are read as they are written

Each character of a string is written as itself, as an escape of one letter, or by its code; the
reader takes each of these in one step and puts the character back (`Json.stringTail_charText`).
So a string is read back as it was written, unless two stand-ins for lone surrogates follow each
other that are a pair, which is read as one character (`Json.string_stringText`).
-/

namespace Descent

namespace Text

/-- Whether a character stands for the first half of a pair of surrogates. -/
def isHigh (c : Char) : Prop := ∃ code, half? c = some code ∧ code ≤ 0xdbff

/-- Whether a character stands for the second half of a pair of surrogates. -/
def isLow (c : Char) : Prop := ∃ code, half? c = some code ∧ 0xdc00 ≤ code

/-- No two lone surrogates of the text are a pair. -/
def Unpaired (s : String) : Prop := s.toList.IsChain fun c d => ¬(isHigh c ∧ isLow d)

/-- A stand-in is the character for the code it stands for. -/
theorem half?_eq_some {c : Char} {code : Nat} (h : half? c = some code) :
    (0xd800 ≤ code ∧ code ≤ 0xdfff) ∧ ofHalf code = c := by
  unfold half? at h
  split at h
  · rename_i hc
    obtain rfl := Option.some.inj h
    simp only [firstStandIn, halfCount, firstHalf] at hc ⊢
    refine ⟨by omega, ?_⟩
    have hcode : 0x10c000 + (0xd800 + (c.toNat - 0x10c000) - 0xd800) = c.toNat := by omega
    rw [ofHalf, firstStandIn, firstHalf, hcode, Char.ofNat_toNat]
  · cases h

theorem half?_of_toNat_lt {c : Char} (h : c.toNat < 0x10000) : half? c = none :=
  if_neg fun hc => absurd (Nat.le_trans hc.1 (Nat.le_of_lt h)) (by decide)

end Text

namespace Json

/-! ### Codes -/

theorem hexValue?_digitChar {n : Nat} (h : n < 16) : hexValue? n.digitChar = some n := by
  have hall : ∀ n < 16, hexValue? (Nat.digitChar n) = some n := by decide
  exact hall n h

/-- Digits with zeros put before them up to a length. -/
def padded (length n : Nat) : List Char :=
  List.replicate (length - (Nat.toDigits 16 n).length) '0' ++ Nat.toDigits 16 n

theorem padded_succ {length n : Nat} (h : 0 < length) :
    padded (length + 1) n = padded length (n / 16) ++ [(n % 16).digitChar] := by
  unfold padded
  by_cases hn : n < 16
  · have hzero : n / 16 = 0 := Nat.div_eq_of_lt hn
    have hlength : length = length - 1 + 1 := by omega
    rw [hzero, Nat.toDigits_of_lt_base hn, Nat.mod_eq_of_lt hn, Nat.toDigits_zero]
    rw [List.length_singleton, List.length_singleton, Nat.add_sub_cancel]
    conv_lhs => rw [hlength, List.replicate_succ']
  · rw [Nat.toDigits_of_base_le (b := 16) (n := n) (by decide) (by omega), List.length_append,
      List.length_singleton, Nat.add_sub_add_right, List.append_assoc]

theorem padded_one {n : Nat} (h : n < 16) : padded 1 n = [n.digitChar] := by
  rw [padded, Nat.toDigits_of_lt_base h]
  rfl

/-- Four digits are read as the code that they were written for. -/
theorem hexFour_padded {code : Nat} (h : code < 0x10000) (rest : List Char) :
    hexFour (padded 4 code ++ rest) = .ok (code, rest) := by
  rw [padded_succ (by decide), padded_succ (by decide), padded_succ (by decide),
    padded_one (by omega)]
  have h₀ := hexValue?_digitChar (n := code / 16 / 16 / 16) (by omega)
  have h₁ := hexValue?_digitChar (n := code / 16 / 16 % 16) (by omega)
  have h₂ := hexValue?_digitChar (n := code / 16 % 16) (by omega)
  have h₃ := hexValue?_digitChar (n := code % 16) (by omega)
  simp only [List.cons_append, List.nil_append, hexFour, h₀, h₁, h₂, h₃]
  congr 2
  omega

theorem codeText_eq (code : Nat) : codeText code = '\\' :: 'u' :: padded 4 code := rfl

/-- A code that is no half of a pair of surrogates is read as its character. -/
theorem codeEscape_padded {c : Char} (h : c.toNat < 0x10000) (rest : List Char) :
    codeEscape (padded 4 c.toNat ++ rest) = .ok (c, rest) := by
  have hvalid : c.toNat < 0xd800 ∨ 0xdfff < c.toNat := by
    rcases c.valid with hc | hc
    · exact .inl hc
    · exact .inr hc.1
  have hhigh : (decide (0xd800 ≤ c.toNat) && decide (c.toNat ≤ 0xdbff)) = false := by
    rw [Bool.and_eq_false_iff, decide_eq_false_iff_not, decide_eq_false_iff_not]
    omega
  have hlow : (decide (0xdc00 ≤ c.toNat) && decide (c.toNat ≤ 0xdfff)) = false := by
    rw [Bool.and_eq_false_iff, decide_eq_false_iff_not, decide_eq_false_iff_not]
    omega
  unfold codeEscape
  rw [hexFour_padded h]
  simp [bind, Except.bind, hhigh, hlow, pure, Except.pure]

/-- What follows a code is no code of the second half of a pair of surrogates. -/
def NoLow (rest : List Char) : Prop :=
  ∀ more, rest = '\\' :: 'u' :: more →
    ∃ code after, hexFour more = .ok (code, after) ∧ ¬(0xdc00 ≤ code ∧ code ≤ 0xdfff)

/-- The code of a lone surrogate is read as the stand-in for it. -/
theorem codeEscape_half {c : Char} {code : Nat} (h : Text.half? c = some code) {rest : List Char}
    (hrest : Text.isHigh c → NoLow rest) :
    codeEscape (padded 4 code ++ rest) = .ok (c, rest) := by
  obtain ⟨hcode, hc⟩ := Text.half?_eq_some h
  have hread : hexFour (padded 4 code ++ rest) = .ok (code, rest) := hexFour_padded (by omega) rest
  unfold codeEscape
  rw [hread]
  simp only [bind, Except.bind, hc]
  -- only a first half makes the reader look on for a second one
  by_cases hhigh : code ≤ 0xdbff
  · rw [decide_eq_true hcode.1, decide_eq_true hhigh]
    simp only [Bool.and_self, if_true]
    split
    · obtain ⟨low, after, hmore, hlow⟩ := hrest ⟨code, h, hhigh⟩ _ rfl
      have hlow' : (decide (0xdc00 ≤ low) && decide (low ≤ 0xdfff)) = false := by
        rw [← Bool.decide_and, decide_eq_false hlow]
      rw [hmore]
      simp only [hlow', Bool.false_eq_true, if_false]
      rfl
    · rfl
  · have hfirst : (decide (0xd800 ≤ code) && decide (code ≤ 0xdbff)) = false := by
      rw [decide_eq_false hhigh, Bool.and_false]
    have hsecond : (decide (0xdc00 ≤ code) && decide (code ≤ 0xdfff)) = true := by
      rw [decide_eq_true (by omega), decide_eq_true hcode.2]
      rfl
    simp only [hfirst, hsecond, Bool.false_eq_true, if_false, if_true]
    rfl

/-- The codes are a pair of surrogates that stands for the character. -/
def IsPair (c : Char) (high low : Nat) : Prop :=
  (0xd800 ≤ high ∧ high ≤ 0xdbff) ∧ (0xdc00 ≤ low ∧ low ≤ 0xdfff) ∧
    Char.ofNat (0x10000 + (high - 0xd800) * 0x400 + (low - 0xdc00)) = c

/-- A pair of surrogates is read as the character it stands for. -/
theorem codeEscape_pair {c : Char} {high low : Nat} (h : IsPair c high low) (rest : List Char) :
    codeEscape (padded 4 high ++ (codeText low ++ rest)) = .ok (c, rest) := by
  obtain ⟨hhigh, hlow, rfl⟩ := h
  have hhigh' : (decide (0xd800 ≤ high) && decide (high ≤ 0xdbff)) = true := by
    rw [decide_eq_true hhigh.1, decide_eq_true hhigh.2]
    rfl
  have hlow' : (decide (0xdc00 ≤ low) && decide (low ≤ 0xdfff)) = true := by
    rw [decide_eq_true hlow.1, decide_eq_true hlow.2]
    rfl
  have hfirst : ∀ rest, hexFour (padded 4 high ++ rest) = .ok (high, rest) :=
    hexFour_padded (by omega)
  have hsecond : ∀ rest, hexFour (padded 4 low ++ rest) = .ok (low, rest) :=
    hexFour_padded (by omega)
  unfold codeEscape
  rw [hfirst, codeText_eq]
  simp only [bind, Except.bind, hhigh', if_true, List.cons_append, hsecond, hlow']
  rfl

/-- A character beyond the first plane has a pair of surrogates. -/
theorem isPair_of_toNat {c : Char} (h : 0x10000 ≤ c.toNat) :
    IsPair c (0xd800 + (c.toNat - 0x10000) / 0x400) (0xdc00 + (c.toNat - 0x10000) % 0x400) := by
  have hmax : c.toNat < 0x110000 := by
    rcases c.valid with hc | hc
    · exact Nat.lt_trans hc (by decide)
    · exact hc.2
  refine ⟨by omega, by omega, ?_⟩
  have hcode : 0x10000 + (0xd800 + (c.toNat - 0x10000) / 0x400 - 0xd800) * 0x400 +
      (0xdc00 + (c.toNat - 0x10000) % 0x400 - 0xdc00) = c.toNat := by omega
  rw [hcode, Char.ofNat_toNat]

/-! ### Characters -/

/-- A character that is no mark, no escape and no control character is read as itself. -/
theorem stringTail_cons {c : Char} (hquote : c ≠ '"') (hslash : c ≠ '\\') (hprint : 32 ≤ c.toNat)
    (fuel : Nat) (acc rest : List Char) :
    stringTail (fuel + 1) acc (c :: rest) = stringTail fuel (c :: acc) rest := by
  have hread : (decide (c.toNat < 32) || c == '\\') = false := by
    rw [decide_eq_false (by omega), beq_eq_false_iff_ne.mpr hslash]
    rfl
  rw [stringTail]
  · rw [hread]
    rfl
  · exact hquote
  · intro _ h
    exact absurd h hslash
  · intro _ _ h
    exact absurd h hslash

/-- A code escape is read as the character of its code. -/
theorem stringTail_code {cs cs' : List Char} {c : Char} (h : codeEscape cs = .ok (c, cs'))
    (fuel : Nat) (acc : List Char) :
    stringTail (fuel + 1) acc ('\\' :: 'u' :: cs) = stringTail fuel (c :: acc) cs' := by
  rw [stringTail, h]
  rfl

/-- What a character is written as: itself, an escape of one letter, or its codes. -/
theorem charText_cases (c : Char) :
    (c ≠ '"' ∧ c ≠ '\\' ∧ 32 ≤ c.toNat ∧ charText c = [c]) ∨
    (∃ e, e ≠ 'u' ∧ letterEscape? e = some c ∧ charText c = ['\\', e]) ∨
    (c.toNat < 0x10000 ∧ charText c = codeText c.toNat) ∨
    (∃ code, Text.half? c = some code ∧ charText c = codeText code) ∨
    (∃ high low, IsPair c high low ∧ charText c = codeText high ++ codeText low) := by
  have hcode {n : Nat} (hc : (c.toNat == n) = true) : c = Char.ofNat n := by
    rw [← eq_of_beq hc, Char.ofNat_toNat]
  -- the seven characters with a letter of their own
  by_cases hletter : c ∈ ['"', '\\', '\n', '\r', '\t', Char.ofNat 8, Char.ofNat 12]
  · right; left
    simp only [List.mem_cons, List.not_mem_nil, or_false] at hletter
    rcases hletter with rfl | rfl | rfl | rfl | rfl | rfl | rfl
    · exact ⟨'"', by decide, rfl, rfl⟩
    · exact ⟨'\\', by decide, rfl, rfl⟩
    · exact ⟨'n', by decide, rfl, rfl⟩
    · exact ⟨'r', by decide, rfl, rfl⟩
    · exact ⟨'t', by decide, rfl, rfl⟩
    · exact ⟨'b', by decide, rfl, rfl⟩
    · exact ⟨'f', by decide, rfl, rfl⟩
  · simp only [List.mem_cons, List.not_mem_nil, or_false, not_or] at hletter
    obtain ⟨hquote, hslash, hline, hreturn, htab, hback, hfeed⟩ := hletter
    unfold charText
    simp only [beq_iff_eq, hquote, hslash, hline, hreturn, htab, if_false]
    rw [if_neg fun h => hback (hcode (beq_iff_eq.mpr h)),
      if_neg fun h => hfeed (hcode (beq_iff_eq.mpr h))]
    split
    · rename_i hprint
      rw [Bool.and_eq_true, decide_eq_true_iff] at hprint
      exact .inl ⟨hquote, hslash, hprint.1, rfl⟩
    · split
      · rename_i hplane
        exact .inr (.inr (.inl ⟨hplane, rfl⟩))
      · -- beyond the first plane: a stand-in for half a character, or a pair of halves
        rename_i hplane
        cases hhalf : Text.half? c with
        | some code => exact .inr (.inr (.inr (.inl ⟨code, rfl, rfl⟩)))
        | none =>
          exact .inr (.inr (.inr (.inr ⟨_, _, isPair_of_toNat (Nat.le_of_not_lt hplane), rfl⟩)))

theorem stringTail_letter {c e : Char} (hu : e ≠ 'u') (h : letterEscape? e = some c) (fuel : Nat)
    (acc rest : List Char) :
    stringTail (fuel + 1) acc ('\\' :: e :: rest) = stringTail fuel (c :: acc) rest := by
  rw [stringTail]
  · rw [h]
  · exact hu

/-- What a character is written as is read in one step, which puts the character back. -/
theorem stringTail_charText {c : Char} {rest : List Char} (h : Text.isHigh c → NoLow rest)
    (fuel : Nat) (acc : List Char) :
    stringTail (fuel + 1) acc (charText c ++ rest) = stringTail fuel (c :: acc) rest := by
  rcases charText_cases c with ⟨hquote, hslash, hprint, htext⟩ | ⟨e, hu, he, htext⟩ |
    ⟨hplane, htext⟩ | ⟨code, hcode, htext⟩ | ⟨high, low, hpair, htext⟩
  · rw [htext]
    exact stringTail_cons hquote hslash hprint fuel acc rest
  · rw [htext]
    exact stringTail_letter hu he fuel acc rest
  · rw [htext]
    exact stringTail_code (codeEscape_padded hplane rest) fuel acc
  · rw [htext]
    exact stringTail_code (codeEscape_half hcode h) fuel acc
  · rw [htext, List.append_assoc]
    exact stringTail_code (codeEscape_pair hpair rest) fuel acc

theorem noLow_quote (rest : List Char) : NoLow ('"' :: rest) := nofun

theorem noLow_codeText {code : Nat} (hcode : code < 0x10000)
    (h : ¬(0xdc00 ≤ code ∧ code ≤ 0xdfff)) (rest : List Char) : NoLow (codeText code ++ rest) := by
  intro more hmore
  obtain rfl : padded 4 code ++ rest = more := (List.cons.inj (List.cons.inj hmore).2).2
  exact ⟨code, rest, hexFour_padded hcode rest, h⟩

/-- A character that is no second half of a pair of surrogates is not written as one. -/
theorem noLow_charText {c : Char} (h : ¬Text.isLow c) (rest : List Char) :
    NoLow (charText c ++ rest) := by
  rcases charText_cases c with ⟨-, hslash, -, htext⟩ | ⟨e, hu, -, htext⟩ |
    ⟨hplane, htext⟩ | ⟨code, hcode, htext⟩ | ⟨high, low, hpair, htext⟩
  · rw [htext]
    exact fun more hmore => absurd (List.cons.inj hmore).1 hslash
  · rw [htext]
    exact fun more hmore => absurd (List.cons.inj (List.cons.inj hmore).2).1 hu
  · rw [htext]
    refine noLow_codeText hplane ?_ rest
    -- a character of the first plane is not half of another
    rcases c.valid with hc | hc
    · have : c.toNat < 0xd800 := hc
      omega
    · have : 0xdfff < c.toNat := hc.1
      omega
  · rw [htext]
    obtain ⟨hrange, -⟩ := Text.half?_eq_some hcode
    exact noLow_codeText (by omega) (fun hlow => h ⟨code, hcode, hlow.1⟩) rest
  · rw [htext, List.append_assoc]
    obtain ⟨hhigh, -⟩ := hpair
    exact noLow_codeText (by omega) (by omega) _

theorem length_le_flatMap_charText (cs : List Char) : cs.length ≤ (cs.flatMap charText).length := by
  induction cs with
  | nil => exact Nat.le_refl 0
  | cons c cs ih =>
    have hpos : 0 < (charText c).length := by
      rcases charText_cases c with ⟨-, -, -, h⟩ | ⟨e, -, -, h⟩ | ⟨-, h⟩ | ⟨code, -, h⟩ |
        ⟨high, low, -, h⟩ <;> rw [h] <;> exact Nat.zero_lt_succ _
    rw [List.flatMap_cons, List.length_append, List.length_cons]
    omega

/-! ### Strings -/

theorem stringTail_flatMap {cs : List Char}
    (h : cs.IsChain fun c d => ¬(Text.isHigh c ∧ Text.isLow d)) {fuel : Nat}
    (hfuel : cs.length < fuel) (acc rest : List Char) :
    stringTail fuel acc (cs.flatMap charText ++ '"' :: rest) =
      .ok (String.ofList (acc.reverse ++ cs), rest) := by
  induction cs generalizing fuel acc with
  | nil =>
    obtain ⟨n, rfl⟩ : ∃ n, fuel = n + 1 := ⟨fuel - 1, by omega⟩
    rw [List.append_nil]
    rfl
  | cons c cs ih =>
    rw [List.length_cons] at hfuel
    obtain ⟨n, rfl⟩ : ∃ n, fuel = n + 1 := ⟨fuel - 1, by omega⟩
    -- a lone first half is not followed by a second one, so the two are not read as a pair
    have hnext : Text.isHigh c → NoLow (cs.flatMap charText ++ '"' :: rest) := by
      intro hc
      cases cs with
      | nil => exact noLow_quote rest
      | cons d cs =>
        rw [List.flatMap_cons, List.append_assoc]
        exact noLow_charText (fun hd => (List.isChain_cons_cons.mp h).1 ⟨hc, hd⟩) _
    rw [List.flatMap_cons, List.append_assoc, stringTail_charText hnext,
      ih h.tail (by omega)]
    simp

/-- A string is read back as it was written, whatever follows it. -/
theorem string_stringText {s : String} (h : Text.Unpaired s) (rest : List Char) :
    ∃ cs, (stringText s).toList ++ rest = '"' :: cs ∧ string cs = .ok (s, rest) := by
  refine ⟨s.toList.flatMap charText ++ '"' :: rest, ?_, ?_⟩
  · simp [stringText]
  · have hlength := length_le_flatMap_charText s.toList
    have hfuel : s.toList.length < (s.toList.flatMap charText ++ '"' :: rest).length + 1 := by
      rw [List.length_append]
      omega
    rw [string, stringTail_flatMap h hfuel, List.reverse_nil, List.nil_append, String.ofList_toList]

end Json

end Descent
