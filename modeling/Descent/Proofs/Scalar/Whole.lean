import Descent.Proofs.Scalar.Rounded

/-!
# Integers that machine floats hold

An integer becomes the machine float nearest to it, which is whole again: its integer part is
`Machine.roundInt`.  That is the integer itself exactly if the integer is short, fifty-three
significant bits followed by zeros (`Machine.roundInt_eq_self`).  All integers that fit sixty-four
bits become a float (`Machine.exists_ofInt?`), and the float compares with other integers as its
integer part does (`Machine.floor_ofInt?`, `Machine.le_ofInt?`).
-/

namespace Descent

open Float.Model (UnpackedFloat Format)
open Float.Model.UnpackedFloat

/-! ### Short magnitudes -/

namespace BinaryFormat

/-- A natural number of at most fifty-three significant bits, followed by zeros. -/
def Short (n : ℕ) : Prop := ∃ k e : ℕ, k < 2 ^ 53 ∧ n = k * 2 ^ e

theorem short_of_lt {n : ℕ} (h : n < 2 ^ 53) : Short n := ⟨n, 0, h, (Nat.mul_one n).symm⟩

variable {n : ℕ} {c : Magnitude}

/-- A short number is rounded to its own value. -/
theorem round_value_of_short (hn : Short n) (h : double.round n 1 = some c) : c.value = n := by
  obtain ⟨k, e, hk, rfl⟩ := hn
  have hleast : (-1074 : ℤ) ≤ e := by omega
  have hholds : double.Holds ⟨k, e⟩ := ⟨hk, hleast⟩
  have hvalue : (⟨k, e⟩ : Magnitude).value = ((k * 2 ^ e : ℕ) : ℚ) := by
    rw [Magnitude.value, zpow_natCast]
    push_cast
    rfl
  have hratio : (((k * 2 ^ e : ℕ) : ℚ) / (1 : ℕ)) = (⟨k, e⟩ : Magnitude).value := by
    rw [hvalue, Nat.cast_one, div_one]
  rw [← hvalue]
  exact le_antisymm (round_value_le Nat.one_pos (by decide) hholds h hratio.le)
    (value_le_round Nat.one_pos (by decide) hholds h hratio.ge)

/-- From fifty-three bits on, rounding leaves no fraction. -/
theorem round_exponent_nonneg (hn : 2 ^ 53 ≤ n) (h : double.round n 1 = some c) :
    0 ≤ c.exponent := by
  have hsignificand : c.significand < 2 ^ 53 :=
    round_significand_lt (by decide) Nat.one_ne_zero h
  have hholds : double.Holds ⟨2 ^ 52, 1⟩ := ⟨by decide, by decide⟩
  have hlow : (⟨2 ^ 52, 1⟩ : Magnitude).value ≤ c.value := by
    refine value_le_round Nat.one_pos (by decide) hholds h ?_
    rw [Magnitude.value, Nat.cast_one, div_one]
    calc ((2 ^ 52 : ℕ) : ℚ) * 2 ^ (1 : ℤ) = ((2 ^ 53 : ℕ) : ℚ) := by norm_num
      _ ≤ n := by exact_mod_cast hn
  by_contra hneg
  have hpow : (2 : ℚ) ^ c.exponent ≤ 1 := zpow_le_one_of_nonpos₀ (by decide) (by omega)
  have hhigh : c.value ≤ c.significand := mul_le_of_le_one_right (Nat.cast_nonneg _) hpow
  have hlt : (c.significand : ℚ) < 2 ^ 53 := by exact_mod_cast hsignificand
  refine absurd (hlow.trans hhigh) (not_le_of_gt (hlt.trans_le (le_of_eq ?_)))
  rw [Magnitude.value]
  norm_num

/-- What a natural number is rounded to is a short one. -/
theorem exists_short_of_round (h : double.round n 1 = some c) :
    ∃ k : ℕ, Short k ∧ c.numerator = k * c.denominator := by
  rcases Nat.lt_or_ge n (2 ^ 53) with hlt | hge
  · have hvalue := round_value_of_short (short_of_lt hlt) h
    have hpos : (0 : ℚ) < c.denominator := by exact_mod_cast Nat.two_pow_pos _
    rw [c.value_eq_div, div_eq_iff hpos.ne'] at hvalue
    exact ⟨n, short_of_lt hlt, by exact_mod_cast hvalue⟩
  · have hexponent := round_exponent_nonneg hge h
    have hone : c.denominator = 1 := by
      have hzero : (-c.exponent).toNat = 0 := by omega
      show 2 ^ (-c.exponent).toNat = 1
      rw [hzero, Nat.pow_zero]
    refine ⟨c.numerator, ?_, ?_⟩
    · exact ⟨c.significand, c.exponent.toNat,
        round_significand_lt (by decide) Nat.one_ne_zero h, rfl⟩
    · rw [hone, Nat.mul_one]

/-- Every number that is not above the sixty-fourth power of two is in range. -/
theorem exists_round (hn : n ≤ 2 ^ 64) : ∃ c, double.round n 1 = some c := by
  by_cases hzero : n = 0
  · exact ⟨_, if_pos hzero⟩
  have hlog : n.log2 < 65 := (Nat.log2_lt hzero).mpr (hn.trans_lt (by decide))
  have hexponent : double.exponentFor n 1 ≤ 12 := by
    have hlogOne : Nat.log2 1 = 0 := by decide
    have hprecision : double.precision = 53 := rfl
    unfold exponentFor
    simp only [hlogOne, hprecision]
    refine max_le ?_ (by decide)
    split_ifs <;> omega
  unfold round
  rw [if_neg hzero]
  refine ⟨_, if_pos ?_⟩
  show (if nearest n 1 _ = _ then (⟨_, _⟩ : Magnitude) else _).exponent ≤ 971
  split <;> dsimp only <;> omega

end BinaryFormat

/-! ### The opposite of a machine float -/

namespace Unpacked

theorem unpack_packComponents_neg (s : Sign) (e : BitVec Format.binary64.exponentBits)
    (m : BitVec Format.binary64.mantissaBitsWithoutImplicit) :
    unpack Format.binary64 (packComponents Format.binary64 (-s) e m) =
      neg (unpack Format.binary64 (packComponents Format.binary64 s e m)) := by
  unfold unpack
  simp only [unpackSign_packComponents, unpackExponent_packComponents,
    unpackMantissa_packComponents, sign_toBitVec]
  split
  · split <;> rfl
  · split
    · split <;> rfl
    · rfl

/-- The opposite is packed with the other sign. -/
theorem exists_pack_neg (u : UnpackedFloat) : u = .notANumber ∨ ∃ s e m,
    pack Format.binary64 u = packComponents Format.binary64 s e m ∧
      pack Format.binary64 (neg u) = packComponents Format.binary64 (-s) e m := by
  cases u with
  | notANumber => exact .inl rfl
  | infinity s | zero s => exact .inr ⟨s, _, _, rfl, rfl⟩
  | finite s m e hm =>
    right
    unfold neg pack
    dsimp only
    split
    · exact ⟨s, _, _, rfl, rfl⟩
    · split <;> exact ⟨s, _, _, rfl, rfl⟩

theorem decoded_neg (u : UnpackedFloat) :
    decoded (neg u) = (decoded u).map fun p => (!p.1, p.2) := by
  rcases u with ⟨_ | _⟩ | _ | ⟨_ | _⟩ | ⟨_ | _, m, e, hm⟩ <;> rfl

end Unpacked

namespace Machine

theorem unpack_neg (x : Float) : (-x).toModel.unpack = neg x.toModel.unpack := by
  rcases x with ⟨⟨⟨b⟩, hb⟩⟩
  show unpack Format.binary64 (pack Format.binary64 (neg (unpack Format.binary64 b))) =
    neg (unpack Format.binary64 b)
  rcases Unpacked.exists_pack_neg (unpack Format.binary64 b) with hnan | ⟨s, e, m, hpack, hneg⟩
  · rw [hnan]
    rfl
  · rw [hneg, Unpacked.unpack_packComponents_neg, ← hpack, pack_unpack_of_valid hb]

/-- The opposite has the other sign and the same magnitude. -/
theorem decode_neg {x : Float} {s : Bool} {c : Magnitude} (h : Binary.decode x = some (s, c)) :
    Binary.decode (-x) = some (!s, c) := by
  rw [decode_eq] at h
  rw [decode_eq, unpack_neg, Unpacked.decoded_neg, h]
  rfl

/-! ### Whole floats -/

variable {n : ℤ} {x : Float}

/-- The floor of a whole float is its value. -/
theorem floor_of_whole {s : Bool} {c : Magnitude} {k : ℕ} (h : Binary.decode x = some (s, c))
    (hk : c.numerator = k * c.denominator) :
    Binary.floor x = if s then -(k : ℤ) else k := by
  have hpos : 0 < c.denominator := Nat.two_pow_pos _
  unfold Binary.floor
  rw [h]
  dsimp only
  rw [hk, Nat.mul_div_cancel _ hpos, Nat.mul_mod_left, if_pos rfl]

/-- So is its integer part, whichever sign it has. -/
theorem truncate_of_whole {s : Bool} {c : Magnitude} {k : ℕ} (h : Binary.decode x = some (s, c))
    (hk : c.numerator = k * c.denominator) :
    Scalar.truncate x = if s then -(k : ℤ) else k := by
  have hfloor : (Scalar.floor x : ℤ) = if s then -(k : ℤ) else k := floor_of_whole h hk
  have hneg : (Scalar.floor (-x) : ℤ) = if !s then -(k : ℤ) else k :=
    floor_of_whole (decode_neg h) hk
  unfold Scalar.truncate
  rw [hfloor, hneg]
  cases s <;> simp

/-- The integer that the machine float nearest to an integer stands for; one that is out of range
is left as it is. -/
def roundInt (n : ℤ) : ℤ :=
  match Binary.ofInt? n with
  | some x => Scalar.truncate x
  | none => n

theorem truncate_ofInt? (h : Binary.ofInt? n = some x) : Scalar.truncate x = roundInt n := by
  rw [roundInt, h]

/-- The parts of what an integer becomes. -/
theorem exists_ofInt?_parts (h : Binary.ofInt? n = some x) :
    ∃ (k : ℕ) (c : Magnitude), BinaryFormat.double.round n.natAbs 1 = some c ∧
      Binary.decode x = some (decide (n < 0), c) ∧ BinaryFormat.Short k ∧
      c.numerator = k * c.denominator ∧ roundInt n = if n < 0 then -(k : ℤ) else k := by
  obtain ⟨c, hc, hx⟩ := decode_ofInt? h
  obtain ⟨k, hshort, hk⟩ := BinaryFormat.exists_short_of_round hc
  refine ⟨k, c, hc, hx, hshort, hk, ?_⟩
  rw [← truncate_ofInt? h, truncate_of_whole hx hk]
  simp only [decide_eq_true_eq]

theorem floor_ofInt? (h : Binary.ofInt? n = some x) : Binary.floor x = roundInt n := by
  obtain ⟨k, c, -, hx, -, hk, hround⟩ := exists_ofInt?_parts h
  rw [hround, floor_of_whole hx hk]
  simp only [decide_eq_true_eq]

theorem isFinite_ofInt? (h : Binary.ofInt? n = some x) : x.isFinite = true := by
  obtain ⟨c, -, hx⟩ := decode_ofInt? h
  exact isFinite_of_decode hx

/-- An integer is what it is rounded to exactly if it is short. -/
theorem roundInt_eq_self (h : Binary.ofInt? n = some x) :
    roundInt n = n ↔ BinaryFormat.Short n.natAbs := by
  obtain ⟨k, c, hc, -, hshort, hk, hround⟩ := exists_ofInt?_parts h
  have habs : roundInt n = n ↔ k = n.natAbs := by
    rw [hround]
    split <;> omega
  rw [habs]
  constructor
  · rintro rfl
    exact hshort
  · intro hn
    have hvalue := BinaryFormat.round_value_of_short hn hc
    have hpos : (0 : ℚ) < c.denominator := by exact_mod_cast Nat.two_pow_pos _
    rw [c.value_eq_div, hk, Nat.cast_mul, mul_div_cancel_right₀ _ hpos.ne'] at hvalue
    exact_mod_cast hvalue

/-- What becomes a float with the value of an integer above zero is not above what the integer
becomes. -/
theorem le_ofInt? {m : ℤ} {y : Float} (hx : Binary.ofInt? n = some x) (hm : 0 < m)
    (hy : Binary.ofInt? m = some y) (h : roundInt n = m) : x ≤ y := by
  obtain ⟨k, c, -, hdecode, -, hk, hround⟩ := exists_ofInt?_parts hx
  rw [h] at hround
  split at hround
  · omega
  · rename_i hn
    subst hround
    rw [decide_eq_false hn] at hdecode
    refine le_ofInt hy hdecode ?_
    have hpos : (0 : ℚ) < c.denominator := by exact_mod_cast Nat.two_pow_pos _
    rw [c.value_eq_div, hk, Nat.cast_mul, mul_div_cancel_right₀ _ hpos.ne']

/-- Every integer that fits sixty-four bits becomes a machine float. -/
theorem exists_ofInt? (h : n.natAbs ≤ 2 ^ 64) : ∃ x, Binary.ofInt? n = some x := by
  obtain ⟨c, hc⟩ := BinaryFormat.exists_round h
  exact ⟨_, Option.map_eq_some_iff.mpr ⟨c, hc, rfl⟩⟩

end Machine

end Descent
