import Descent.Proofs.Binary
import Descent.Proofs.Document.Measured
import Descent.Proofs.Scalar.Reduction

/-!
# Integers as machine floats

A finite machine float is a sign and a magnitude (`Machine.decode_eq`), and floats that are ahead
are in the order of their magnitudes' values (`Machine.le_of_value_le`).  An integer becomes the
float of what it is rounded to (`Machine.decode_encode`), so a float on one side of an integer stays
on that side of what the integer becomes, and of two integers the greater one does not become the
lesser float.

Hence a check that a number passed is passed by the float that it becomes: that it is above zero
(`Number.zero_lt_toReal`), not below zero, or not below another number that is above zero
(`Number.not_lt_toReal`).
-/

namespace Descent
open Float.Model (UnpackedFloat Format)
open Float.Model.UnpackedFloat

namespace Unpacked

theorem toNat_unpackExponent (b : BitVec Format.binary64.numBits) :
    (unpackExponent b).toNat = b.toNat / 2 ^ 52 % 2 ^ 11 := by
  show ((b.extractLsb 62 52).cast _).toNat = _
  rw [BitVec.toNat_cast, BitVec.extractLsb_toNat, Nat.shiftRight_eq_div_pow]

theorem toNat_unpackMantissa (b : BitVec Format.binary64.numBits) :
    (unpackMantissa b).toNat = b.toNat % 2 ^ 52 := by
  show ((b.extractLsb 51 0).cast _).toNat = _
  rw [BitVec.toNat_cast, BitVec.extractLsb_toNat, Nat.shiftRight_zero]

/-- The highest bit of a significand is not stored. -/
theorem toNat_one_append (m : BitVec 52) : (1#1 ++ m).toNat = 2 ^ 52 + m.toNat := by
  rw [BitVec.toNat_append, ← Nat.shiftLeft_add_eq_or_of_lt m.isLt]
  rfl

/-- The sign and the magnitude of a float's parts, if they are those of a finite value. -/
def decoded : UnpackedFloat → Option (Bool × Magnitude)
  | .finite s m e _ => some (s == .negative, ⟨m, e⟩)
  | .zero s => some (s == .negative, ⟨0, -1074⟩)
  | _ => none

theorem negative_iff (b : BitVec Format.binary64.numBits) :
    (Sign.ofBitVec (unpackSign b) == .negative) = (b.toNat / 2 ^ 63 == 1) := by
  have hb : b.toNat < 2 ^ 64 := b.isLt
  have hsign := toNat_unpackSign b
  rcases Nat.lt_or_ge b.toNat (2 ^ 63) with h | h
  · have hzero : b.toNat / 2 ^ 63 = 0 := by omega
    have : unpackSign b = 0#1 := BitVec.eq_of_toNat_eq (hsign.trans hzero)
    rw [this, hzero]
    rfl
  · have hone : b.toNat / 2 ^ 63 = 1 := by omega
    have : unpackSign b = 1#1 := BitVec.eq_of_toNat_eq (hsign.trans hone)
    rw [this, hone]
    rfl

/-- Finite parts that are ahead have a magnitude. -/
theorem exists_decoded {u : UnpackedFloat} (hfinite : u.isFinite = true) (hahead : Ahead u) :
    ∃ c, decoded u = some (false, c) := by
  rcases u with ⟨s⟩ | _ | ⟨s⟩ | ⟨s, m, e, hm⟩
  · cases hfinite
  · cases hfinite
  · cases hahead
    exact ⟨_, rfl⟩
  · cases hahead
    exact ⟨_, rfl⟩

/-- The magnitude of canonical parts is one of the format's. -/
theorem holds_decoded {u : UnpackedFloat} {s : Bool} {c : Magnitude} (hu : Canonical u)
    (h : decoded u = some (s, c)) : BinaryFormat.double.Holds c := by
  rcases u with ⟨s⟩ | _ | ⟨s⟩ | ⟨s, m, e, hm⟩
  · cases h
  · cases h
  · cases h
    exact ⟨Nat.two_pow_pos _, le_refl _⟩
  · cases h
    exact ⟨hu.1, hu.2.1⟩

/-- Canonical parts that are ahead are in the order of their values. -/
theorem rank_le_of_value_le {u v : UnpackedFloat} {c d : Magnitude} (hu : Canonical u)
    (hv : Canonical v) (hc : decoded u = some (false, c)) (hd : decoded v = some (false, d))
    (h : c.value ≤ d.value) : (u.isNaN = false ∧ v.isNaN = false) ∧ rank u ≤ rank v := by
  have hholds := holds_decoded hv hd
  rcases u with ⟨s⟩ | _ | ⟨_ | _⟩ | ⟨_ | _, m, e, hm⟩ <;> cases hc <;>
    rcases v with ⟨s'⟩ | _ | ⟨_ | _⟩ | ⟨_ | _, m', e', hm'⟩ <;> cases hd
  · exact ⟨⟨rfl, rfl⟩, le_refl _⟩
  · exact ⟨⟨rfl, rfl⟩, (toLex_lt_of_lt (by decide)).le⟩
  · have hpos : (0 : ℚ) < (⟨m, e⟩ : Magnitude).value :=
      mul_pos (by exact_mod_cast hm) (zpow_pos (by decide) _)
    refine absurd h (not_le_of_gt (lt_of_eq_of_lt ?_ hpos))
    simp [Magnitude.value]
  · refine ⟨⟨rfl, rfl⟩, toLex_le_iff.mpr ?_⟩
    -- the exponents are compared first, and the significands where they agree
    rcases lt_trichotomy e e' with hlt | rfl | hgt
    · exact .inl hlt
    · have hle := le_of_mul_le_mul_right h (zpow_pos (by decide) _)
      exact .inr ⟨rfl, by exact_mod_cast hle⟩
    · -- the part with the greater exponent has all the bits of its significand
      have hleast : -1074 ≤ e' := hholds.exponent
      have hfull : 2 ^ 52 ≤ m := hu.2.2.resolve_right (by omega)
      refine absurd (h.trans_lt (hholds.value_lt (by decide) hgt)) (not_lt_of_ge ?_)
      exact mul_le_mul_of_nonneg_right (by exact_mod_cast hfull) (zpow_nonneg (by decide) _)

end Unpacked

namespace Machine

/-- Decoding a machine float reads its parts. -/
theorem decode_eq (x : Float) : Binary.decode x = Unpacked.decoded x.toModel.unpack := by
  rcases x with ⟨⟨⟨b⟩, hb⟩⟩
  have hexponent := Unpacked.toNat_unpackExponent b
  have hmantissa := Unpacked.toNat_unpackMantissa b
  have hsign := Unpacked.negative_iff b
  show (let bits := b.toNat
    if bits / 2 ^ 52 % 2 ^ 11 = 2047 then none
    else if bits / 2 ^ 52 % 2 ^ 11 = 0 then some (bits / 2 ^ 63 == 1, ⟨bits % 2 ^ 52, -1074⟩)
    else some (bits / 2 ^ 63 == 1, ⟨2 ^ 52 + bits % 2 ^ 52,
      Int.ofNat (bits / 2 ^ 52 % 2 ^ 11) - 1075⟩)) = Unpacked.decoded (unpack Format.binary64 b)
  dsimp only
  rw [← hexponent, ← hmantissa, ← hsign]
  unfold unpack
  dsimp only
  -- both readers tell special values by the exponent, one on bit vectors and one on numbers
  have hones (e : BitVec 11) : e = -1#11 ↔ e.toNat = 2047 := by
    rw [← BitVec.toNat_inj]
    rfl
  have hzeros {n : Nat} (e : BitVec n) : e = 0#n ↔ e.toNat = 0 := by
    rw [← BitVec.toNat_inj, BitVec.toNat_ofNat, Nat.zero_mod]
  split
  · rename_i h₁
    rw [if_pos ((hones _).mpr h₁)]
    split <;> rfl
  rename_i h₁
  rw [if_neg (mt (hones _).mp h₁)]
  split
  · rename_i h₂
    rw [if_pos ((hzeros _).mpr h₂)]
    split
    · rename_i h₃
      rw [(hzeros _).mp h₃]
      rfl
    · rw [h₂]
      rfl
  · rename_i h₂
    rw [if_neg (mt (hzeros _).mp h₂)]
    unfold Unpacked.decoded
    dsimp only
    rw [Unpacked.toNat_one_append]
    rfl

/-! ### Floats with a magnitude -/

theorem canonical (x : Float) : Unpacked.Canonical x.toModel.unpack :=
  Unpacked.canonical_unpack _

/-- A finite machine float that is ahead has a magnitude. -/
theorem exists_decode {x : Float} (hfinite : x.isFinite = true) (hahead : Ahead x) :
    ∃ c, Binary.decode x = some (false, c) := by
  rw [decode_eq]
  exact Unpacked.exists_decoded hfinite hahead.unpack

/-- The magnitude of a machine float is one of the format's. -/
theorem holds_decode {x : Float} {s : Bool} {c : Magnitude} (h : Binary.decode x = some (s, c)) :
    BinaryFormat.double.Holds c := by
  rw [decode_eq] at h
  exact Unpacked.holds_decoded (canonical x) h

/-- Machine floats that are ahead are in the order of their values. -/
theorem le_of_value_le {x y : Float} {c d : Magnitude} (hx : Binary.decode x = some (false, c))
    (hy : Binary.decode y = some (false, d)) (h : c.value ≤ d.value) : x ≤ y := by
  rw [decode_eq] at hx hy
  exact le_iff_rank.mpr (Unpacked.rank_le_of_value_le (canonical x) (canonical y) hx hy h)

/-! ### Integers -/

/-- Bits whose exponent is not the greatest one are those of the float they make. -/
theorem toNat_toBits_ofBits {n : ℕ} (hn : n < 2 ^ 64) (h : n / 2 ^ 52 % 2 ^ 11 ≠ 2047) :
    (Float.ofBits (UInt64.ofNat n)).toBits.toNat = n := by
  have hof : (UInt64.ofNat n).toBitVec.toNat = n := Nat.mod_eq_of_lt hn
  have hvalid : Format.binary64.Valid (UInt64.ofNat n).toBitVec := by
    refine ⟨fun hones => ?_⟩
    have hexponent := Unpacked.toNat_unpackExponent (UInt64.ofNat n).toBitVec
    rw [hones, hof] at hexponent
    exact absurd hexponent.symm h
  have hbits : (Float.ofBits (UInt64.ofNat n)).toBits.toBitVec = (UInt64.ofNat n).toBitVec :=
    pack_unpack_of_valid hvalid
  rw [← UInt64.toNat_toBitVec, hbits, hof]

/-- A float that is made of a rounded ratio has the sign and the magnitude of what it was rounded
to. -/
theorem decode_encode {num den : ℕ} {m : Magnitude} (negative : Bool) (hden : 0 < den)
    (h : BinaryFormat.double.round num den = some m) :
    Binary.decode (Binary.encode negative m) = some (negative, m) := by
  have hsignificand : m.significand < 2 ^ 53 :=
    BinaryFormat.round_significand_lt (by decide) hden.ne' h
  have hgreatest : m.exponent ≤ 971 := BinaryFormat.round_exponent_le (by decide) h
  obtain ⟨hleast, hfull⟩ := BinaryFormat.full_round hden (by decide) h
  have hleast' : -1074 ≤ m.exponent := hleast
  have hfull' : 2 ^ 52 ≤ m.significand ∨ m.exponent = -1074 := hfull
  obtain ⟨significand, exponent⟩ := m
  dsimp only at hsignificand hgreatest hleast' hfull'
  -- the bits below the sign: a full significand stands there without its first bit
  set body : ℕ := if significand < 2 ^ 52 then significand
    else (exponent + 1075).toNat * 2 ^ 52 + (significand - 2 ^ 52) with hbody
  set sign : ℕ := if negative then 2 ^ 63 else 0 with hsign
  have hlt : body < 2047 * 2 ^ 52 := by
    rw [hbody]
    split <;> omega
  have hbit : sign = 0 ∧ negative = false ∨ sign = 2 ^ 63 ∧ negative = true := by
    cases negative
    · exact .inl ⟨hsign, rfl⟩
    · exact .inr ⟨hsign, rfl⟩
  have hof : (Float.ofBits (UInt64.ofNat (sign + body))).toBits.toNat = sign + body :=
    toNat_toBits_ofBits (by omega) (by omega)
  have hbits : (Binary.encode negative ⟨significand, exponent⟩).toBits.toNat = sign + body := hof
  unfold Binary.decode
  rw [hbits]
  have hmod : Nat.pow 2 52 = 2 ^ 52 ∧ Nat.pow 2 11 = 2 ^ 11 ∧ Nat.pow 2 63 = 2 ^ 63 :=
    ⟨rfl, rfl, rfl⟩
  rw [hmod.1, hmod.2.1, hmod.2.2]
  have hnegative : ((sign + body) / 2 ^ 63 == 1) = negative := by
    rcases hbit with ⟨h, rfl⟩ | ⟨h, rfl⟩
    · exact beq_eq_false_iff_ne.mpr (by omega)
    · exact beq_iff_eq.mpr (by omega)
  dsimp only
  rw [hnegative]
  by_cases hshort : significand < 2 ^ 52
  · rw [if_pos hshort] at hbody
    rw [if_neg (by omega), if_pos (by omega)]
    have hexponent : exponent = -1074 := hfull'.resolve_left (by omega)
    have hfraction : (sign + body) % 2 ^ 52 = significand := by omega
    rw [hexponent, hfraction]
  · rw [if_neg hshort] at hbody
    rw [if_neg (by omega), if_neg (by omega)]
    have hfraction : 2 ^ 52 + (sign + body) % 2 ^ 52 = significand := by omega
    have hbiased : Int.ofNat ((sign + body) / 2 ^ 52 % 2 ^ 11) - 1075 = exponent := by
      rw [Int.ofNat_eq_natCast]
      omega
    rw [hfraction, hbiased]

/-- A float that is made of an integer has its sign and the magnitude that it is rounded to. -/
theorem decode_ofInt? {n : ℤ} {x : Float} (h : Binary.ofInt? n = some x) :
    ∃ c, BinaryFormat.double.round n.natAbs 1 = some c ∧
      Binary.decode x = some (decide (n < 0), c) := by
  unfold Binary.ofInt? Binary.ofRatio? at h
  obtain ⟨c, hc, rfl⟩ := Option.map_eq_some_iff.mp h
  exact ⟨c, hc, decode_encode _ Nat.one_pos hc⟩

/-- An integer that is not negative becomes a float without a sign. -/
theorem decode_ofInt {n : ℕ} {x : Float} (h : Binary.ofInt? n = some x) :
    ∃ c, BinaryFormat.double.round n 1 = some c ∧ Binary.decode x = some (false, c) := by
  obtain ⟨c, hc, hx⟩ := decode_ofInt? h
  rw [decide_eq_false (by omega : ¬ (n : ℤ) < 0)] at hx
  exact ⟨c, hc, hx⟩

/-- The floor of a float that is ahead is the greatest integer not above its value. -/
theorem floor_of_decode {x : Float} {c : Magnitude} (h : Binary.decode x = some (false, c)) :
    ∃ n : ℕ, Binary.floor x = n ∧ (n : ℚ) ≤ c.value ∧ c.value < n + 1 := by
  have hpos : 0 < c.denominator := Nat.two_pow_pos _
  have hvalue : c.value = c.numerator / c.denominator := c.value_eq_div
  refine ⟨c.numerator / c.denominator, ?_, ?_, ?_⟩
  · unfold Binary.floor
    rw [h]
    rfl
  · rw [hvalue]
    exact Nat.cast_div_le
  · rw [hvalue, div_lt_iff₀ (by exact_mod_cast hpos)]
    exact_mod_cast (Nat.lt_mul_of_div_lt (Nat.lt_succ_self _) hpos)

/-- A float whose value is not above an integer is not above what the integer becomes. -/
theorem le_ofInt {n : ℕ} {x y : Float} {c : Magnitude} (hx : Binary.ofInt? n = some x)
    (hy : Binary.decode y = some (false, c)) (h : c.value ≤ n) : y ≤ x := by
  obtain ⟨d, hd, hx⟩ := decode_ofInt hx
  refine le_of_value_le hy hx (BinaryFormat.value_le_round Nat.one_pos (by decide)
    (holds_decode hy) hd ?_)
  rwa [Nat.cast_one, div_one]

/-- A float whose value is not below an integer is not below what the integer becomes. -/
theorem ofInt_le {n : ℕ} {x y : Float} {c : Magnitude} (hx : Binary.ofInt? n = some x)
    (hy : Binary.decode y = some (false, c)) (h : (n : ℚ) ≤ c.value) : x ≤ y := by
  obtain ⟨d, hd, hx⟩ := decode_ofInt hx
  refine le_of_value_le hx hy (BinaryFormat.round_value_le Nat.one_pos (by decide)
    (holds_decode hy) hd ?_)
  rwa [Nat.cast_one, div_one]

theorem ofInt_mono {m n : ℕ} {x y : Float} (hx : Binary.ofInt? m = some x)
    (hy : Binary.ofInt? n = some y) (h : m ≤ n) : x ≤ y := by
  obtain ⟨c, hc, hx⟩ := decode_ofInt hx
  obtain ⟨d, hd, hy⟩ := decode_ofInt hy
  exact le_of_value_le hx hy (BinaryFormat.round_mono Nat.one_pos (by decide) hc hd h)

/-- What an integer becomes is finite. -/
theorem isFinite_of_decode {x : Float} {s : Bool} {c : Magnitude}
    (h : Binary.decode x = some (s, c)) : x.isFinite = true := by
  rw [decode_eq] at h
  show x.toModel.unpack.isFinite = true
  cases hu : x.toModel.unpack with
  | zero | finite => rfl
  | infinity | notANumber => rw [hu] at h; cases h

end Machine

/-! ### Checks -/

/-- Nothing lies above a float that is neither finite nor below zero. -/
theorem Machine.le_of_not_isFinite {x y : Float} (hx : x.isNaN = false) (hy : y.isNaN = false)
    (hfinite : x.isFinite = false) (h : ¬ x < 0.0) : y ≤ x := by
  have hinf := eq_infinite_of_not_isFinite hx hfinite
  rw [decide_eq_false h] at hinf
  rw [hinf]
  exact OrderedScalar.le_inf hy

namespace Number

variable {a b n : Number Float} {x y : Float}

theorem toReal_int_eq_ok {n : ℤ} : (Number.int n : Number Float).toReal = .ok x ↔
    Binary.ofInt? n = some x := by
  have hof : (Scalar.ofInt? n : Option Float) = Binary.ofInt? n := rfl
  unfold toReal
  simp only [hof]
  cases Binary.ofInt? n <;> simp

/-- A float that lies below an integer lies at or below every greater one. -/
theorem realLeInt_of_realLtInt {m n : ℤ} (h : realLtInt x m = true) (hmn : m ≤ n) :
    realLeInt x n = true := by
  unfold realLtInt at h
  unfold realLeInt
  by_cases hfinite : Scalar.isFinite x = true
  · rw [if_pos hfinite] at h ⊢
    have hlt : Scalar.floor x < n := lt_of_lt_of_le (of_decide_eq_true h) hmn
    rw [decide_eq_true hlt, Bool.true_or]
  · rw [if_neg hfinite] at h ⊢
    exact h

/-- A number that is not below zero does not become a float that is. -/
theorem not_lt_zero_toReal (h : n.lt (.int 0) = false) (hx : n.toReal = .ok x) :
    (Number.real x).lt (.int 0) = false := by
  cases n with
  | real y =>
    cases hx
    exact h
  | int n =>
    have hn : ¬ n < 0 := of_decide_eq_false h
    obtain ⟨n, rfl⟩ := Int.eq_ofNat_of_zero_le (not_lt.mp hn)
    obtain ⟨c, -, hc⟩ := Machine.decode_ofInt (toReal_int_eq_ok.mp hx)
    obtain ⟨m, hm, -⟩ := Machine.floor_of_decode hc
    have hfinite : Scalar.isFinite x = true := Machine.isFinite_of_decode hc
    have hfloor : Scalar.floor x = m := hm
    show realLtInt x 0 = false
    rw [realLtInt, if_pos hfinite, hfloor]
    exact decide_eq_false (by omega)

/-- A number that does not lie at or below zero does not become a float that does. -/
theorem not_le_zero_toReal (h : n.le (.int 0) = false) (hx : n.toReal = .ok x) :
    (Number.real x).le (.int 0) = false := by
  cases n with
  | real y =>
    cases hx
    exact h
  | int n =>
    have hn : ¬ n ≤ 0 := of_decide_eq_false h
    obtain ⟨n, rfl⟩ := Int.eq_ofNat_of_zero_le (not_le.mp hn).le
    have hof := toReal_int_eq_ok.mp hx
    obtain ⟨c, -, hc⟩ := Machine.decode_ofInt hof
    -- rounding a positive integer gives at least what rounding one does
    have hone : Binary.ofInt? (1 : ℕ) = some 1.0 := by decide +kernel
    have hle : (1.0 : Float) ≤ x := Machine.ofInt_mono hone hof (by omega)
    have hpos : ¬ x ≤ 0.0 := fun h => by
      have : (1.0 : Float) ≤ 0.0 := OrderedScalar.le_trans hle h
      exact absurd this (by decide +kernel)
    obtain ⟨m, hm, -⟩ := Machine.floor_of_decode hc
    have hfinite : Scalar.isFinite x = true := Machine.isFinite_of_decode hc
    have hfloor : Scalar.floor x = m := hm
    have hzero : (Scalar.ofInt? 0 : Option Float) = some 0.0 := by decide +kernel
    show realLeInt x 0 = false
    rw [realLeInt, if_pos hfinite, hfloor, hzero]
    have hnot : ¬ (m : ℤ) < 0 := by omega
    simp [hnot, hpos]

/-- A number above zero becomes a float above zero. -/
theorem zero_lt_toReal (h : (Number.int 0).lt n = true) (hx : n.toReal = .ok x) :
    (Number.int 0).lt (.real x) = true := by
  cases n with
  | real y =>
    cases hx
    exact h
  | int n =>
    have hle : realLeInt x 0 = false := not_le_zero_toReal (not_le_zero_of_zero_lt h) hx
    have hn : 0 < n := of_decide_eq_true h
    obtain ⟨n, rfl⟩ := Int.eq_ofNat_of_zero_le hn.le
    obtain ⟨c, -, hc⟩ := Machine.decode_ofInt (toReal_int_eq_ok.mp hx)
    have hnan : Scalar.isNaN x = false :=
      Unpacked.isNaN_of_isFinite (Machine.isFinite_of_decode hc)
    show (!Scalar.isNaN x && !realLeInt x 0) = true
    rw [hnan, hle]
    rfl

/-- A float above zero is ahead and a number. -/
theorem ahead_of_zero_lt (h : (Number.int 0).lt (.real x) = true) :
    Machine.Ahead x ∧ x.isNaN = false := by
  have hx : (!Scalar.isNaN x && !realLeInt x 0) = true := h
  simp only [Bool.and_eq_true, Bool.not_eq_true'] at hx
  exact ⟨ahead_toReal (n := .real x) hx.2 rfl, hx.1⟩

/-- A float above zero that lies at or below an integer does so below what the integer becomes. -/
theorem le_of_realLeInt {n : ℤ} (hy : (Number.int 0).lt (.real y) = true)
    (h : realLeInt y n = true) (hx : Binary.ofInt? n = some x) : y ≤ x := by
  obtain ⟨hahead, hnan⟩ := ahead_of_zero_lt hy
  by_cases hfinite : Scalar.isFinite y = true
  · obtain ⟨c, hc⟩ := Machine.exists_decode hfinite hahead
    obtain ⟨m, hm, -, hlt⟩ := Machine.floor_of_decode hc
    have hfloor : Scalar.floor y = m := hm
    have hof : (Scalar.ofInt? n : Option Float) = some x := hx
    rw [realLeInt, if_pos hfinite, hfloor, hof] at h
    simp only [Bool.or_eq_true, Bool.and_eq_true, decide_eq_true_eq] at h
    -- the float is below the integer, or within one of it and below its rounding
    rcases h with h | ⟨-, h⟩
    · obtain ⟨n, rfl⟩ := Int.eq_ofNat_of_zero_le (by omega : 0 ≤ n)
      refine Machine.le_ofInt hx hc (hlt.le.trans ?_)
      exact_mod_cast h
    · exact h
  · -- an infinite float is below an integer only if it is below zero
    have hzero : realLeInt y 0 = true := by
      rw [realLeInt, if_neg hfinite] at h ⊢
      exact h
    have hnot : realLeInt y 0 = false := not_le_zero_of_zero_lt hy
    rw [hzero] at hnot
    cases hnot

/-- A float that does not lie below an integer above zero does not lie below what the integer
becomes. -/
theorem not_lt_of_not_realLtInt {n : ℤ} (hn : 0 < n) (h : realLtInt x n = false)
    (hy : Binary.ofInt? n = some y) : ¬ x < y := by
  obtain ⟨n, rfl⟩ := Int.eq_ofNat_of_zero_le hn.le
  by_cases hfinite : Scalar.isFinite x = true
  · rw [realLtInt, if_pos hfinite, decide_eq_false_iff_not] at h
    -- a negative float would be below the integer
    have hahead : Machine.Ahead x := by
      refine Bool.eq_false_iff.mpr fun hnegative => ?_
      have hfloor : Scalar.floor x ≤ 0 := Machine.floor_le_zero hnegative
      omega
    obtain ⟨c, hc⟩ := Machine.exists_decode hfinite hahead
    obtain ⟨m, hm, hle, -⟩ := Machine.floor_of_decode hc
    have hfloor : Scalar.floor x = m := hm
    rw [hfloor] at h
    have hyx : y ≤ x := by
      refine Machine.ofInt_le hy hc (le_trans ?_ hle)
      exact_mod_cast (by omega : n ≤ m)
    exact fun hlt => OrderedScalar.not_le_of_lt hlt hyx
  · rw [realLtInt, if_neg hfinite, decide_eq_false_iff_not] at h
    intro hlt
    obtain ⟨hx, hy⟩ := OrderedScalar.known_of_lt hlt
    exact OrderedScalar.not_le_of_lt hlt
      (Machine.le_of_not_isFinite hx hy (Bool.eq_false_iff.mpr hfinite) h)

/-- A number that is not below another one above zero does not become a float below the other's. -/
theorem not_lt_toReal (hb : (Number.int 0).lt b = true) (h : a.lt b = false)
    (hx : a.toReal = .ok x) (hy : b.toReal = .ok y) :
    (Number.real x).lt (.real y) = false := by
  refine decide_eq_false ?_
  -- two integers keep their order in rounding; of two kinds the float is compared as it is
  cases a with
  | int m =>
    rw [toReal_int_eq_ok] at hx
    have hyx : y ≤ x := by
      cases b with
      | int n =>
        have hn : 0 < n := of_decide_eq_true hb
        have hmn : ¬ m < n := of_decide_eq_false h
        obtain ⟨m, rfl⟩ := Int.eq_ofNat_of_zero_le (by omega : 0 ≤ m)
        obtain ⟨n, rfl⟩ := Int.eq_ofNat_of_zero_le hn.le
        exact Machine.ofInt_mono (toReal_int_eq_ok.mp hy) hx (by omega)
      | real y =>
        cases hy
        have hle : (!Scalar.isNaN y && !realLeInt y m) = false := h
        have hnan : Scalar.isNaN y = false := (ahead_of_zero_lt hb).2
        rw [hnan] at hle
        exact le_of_realLeInt hb (by simpa using hle) hx
    exact fun hlt => OrderedScalar.not_le_of_lt hlt hyx
  | real x =>
    cases hx
    cases b with
    | int n =>
      exact not_lt_of_not_realLtInt (of_decide_eq_true hb) h (toReal_int_eq_ok.mp hy)
    | real y =>
      cases hy
      exact of_decide_eq_false h

end Number

end Descent
