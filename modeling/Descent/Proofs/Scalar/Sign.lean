import Descent.Fault
import Descent.Proofs.Binary
import Descent.Proofs.Scalar.Order
import Mathlib

/-!
# The sign of machine floats

A machine float is ahead if its sign bit is clear (`Machine.Ahead`); the one value that is not a
number is, too.  Sums and products of such floats have a clear sign bit again, and the order tells
them apart: two of them that are equal in it have the same parts (`Unpacked.eq_of_rank_eq`) and so
the same bits.  So machine floats are a `DirectedScalar`.

A number that does not lie at or below zero becomes such a float, be it an integer or a measured
value (`Number.ahead_toReal`).
-/

namespace Descent

open Float.Model (UnpackedFloat Format)
open Float.Model.UnpackedFloat

namespace Unpacked

/-- The parts of a float whose sign bit is clear; what is not a number has none. -/
def Ahead : UnpackedFloat → Prop
  | .notANumber => True
  | .infinity s | .zero s | .finite s _ _ _ => s = .positive

/-! ### Arithmetic -/

theorem ahead_roundWithAccuracy (m : Nat) (e : Int) (a : Accuracy) :
    Ahead (roundWithAccuracy Format.binary64 .positive m e a) := by
  unfold roundWithAccuracy
  dsimp only
  split <;> rfl

theorem ahead_normalize {m : Int} (e : Int) (hm : 0 ≤ m) :
    Ahead (UnpackedFloat.normalize Format.binary64 m e .positive) := by
  unfold UnpackedFloat.normalize
  split
  · -- only a negative integer would be rounded with a sign
    rename_i h
    have := Int.compare_eq_lt.mp h
    omega
  · rfl
  · exact ahead_roundWithAccuracy _ _ _

theorem ahead_mul {a b : UnpackedFloat} (ha : Ahead a) (hb : Ahead b) :
    Ahead (mul Format.binary64 a b) := by
  rcases a with ⟨s₁⟩ | _ | ⟨s₁⟩ | ⟨s₁, m₁, e₁, h₁⟩ <;>
    rcases b with ⟨s₂⟩ | _ | ⟨s₂⟩ | ⟨s₂, m₂, e₂, h₂⟩ <;>
    cases ha <;> cases hb <;>
    first
    | trivial
    | rfl
    | exact ahead_roundWithAccuracy _ _ _

theorem ahead_add {a b : UnpackedFloat} (ha : Ahead a) (hb : Ahead b) :
    Ahead (add Format.binary64 a b) := by
  rcases a with ⟨s₁⟩ | _ | ⟨s₁⟩ | ⟨s₁, m₁, e₁, h₁⟩ <;>
    rcases b with ⟨s₂⟩ | _ | ⟨s₂⟩ | ⟨s₂, m₂, e₂, h₂⟩ <;>
    cases ha <;> cases hb <;>
    first
    | trivial
    | rfl
    | exact ahead_normalize _ (Int.add_nonneg (Int.natCast_nonneg _) (Int.natCast_nonneg _))

/-- Parts that are ahead and have one place are the same. -/
theorem eq_of_rank_eq {a b : UnpackedFloat} (ha : Ahead a) (hb : Ahead b)
    (ha' : a.isNaN = false) (hb' : b.isNaN = false) (h : rank a = rank b) : a = b := by
  rcases a with ⟨s₁⟩ | _ | ⟨s₁⟩ | ⟨s₁, m₁, e₁, h₁⟩ <;>
    rcases b with ⟨s₂⟩ | _ | ⟨s₂⟩ | ⟨s₂, m₂, e₂, h₂⟩ <;>
    cases ha <;> cases hb <;>
    first
    | rfl
    | exact absurd ha' (by decide)
    | exact absurd hb' (by decide)
    | exact (not_lt_of_ge h.le (toLex_lt_of_lt (by decide))).elim
    | exact (not_lt_of_ge h.ge (toLex_lt_of_lt (by decide))).elim
    | skip
  -- two positive finite floats of one place have one exponent and one significand
  have he : e₁ = e₂ := congrArg (fun r => (ofLex (ofLex r).2).1) h
  have hm : (m₁ : Int) = m₂ := congrArg (fun r => (ofLex (ofLex r).2).2) h
  obtain rfl := he
  obtain rfl := Int.ofNat.inj hm
  rfl

/-- Parts that are not ahead stand for a value at or below zero. -/
theorem rank_le_of_not_ahead {u : UnpackedFloat} (h : ¬ Ahead u) :
    rank u ≤ toLex (0, toLex (0, 0)) := by
  rcases u with ⟨_ | _⟩ | _ | ⟨_ | _⟩ | ⟨_ | _, m, e, hm⟩ <;>
    first
    | exact absurd rfl h
    | exact absurd trivial h
    | exact le_refl _
    | exact (toLex_lt_of_lt (by decide)).le

/-- Of these the infinite ones stand for a value below zero. -/
theorem rank_lt_of_not_ahead {u : UnpackedFloat} (h : ¬ Ahead u) (hfinite : u.isFinite = false) :
    rank u < toLex (0, toLex (0, 0)) := by
  rcases u with ⟨_ | _⟩ | _ | ⟨_ | _⟩ | ⟨_ | _, m, e, hm⟩ <;>
    first
    | exact absurd rfl h
    | exact absurd trivial h
    | exact toLex_lt_of_lt (by decide)
    | exact absurd hfinite (by decide)

theorem isNaN_of_not_ahead {u : UnpackedFloat} (h : ¬ Ahead u) : u.isNaN = false := by
  cases u with
  | notANumber => exact absurd trivial h
  | infinity | zero | finite => rfl

/-! ### Bits -/

/-- The sign bit is the highest one. -/
theorem toNat_unpackSign (b : BitVec Format.binary64.numBits) :
    (unpackSign b).toNat = b.toNat / 2 ^ 63 := by
  have hb : b.toNat < 2 ^ 64 := b.isLt
  show ((b.extractLsb 63 63).cast _).toNat = _
  rw [BitVec.toNat_cast, BitVec.extractLsb_toNat, Nat.shiftRight_eq_div_pow]
  exact Nat.mod_eq_of_lt (by omega)

/-- Bits without a sign are those of parts that are ahead. -/
theorem ahead_unpack {b : BitVec Format.binary64.numBits} (h : b.toNat / 2 ^ 63 = 0) :
    Ahead (unpack Format.binary64 b) := by
  have hbit : unpackSign b = 0#1 := BitVec.eq_of_toNat_eq ((toNat_unpackSign b).trans h)
  have hs : Sign.ofBitVec (unpackSign b) = .positive := by
    rw [hbit]
    rfl
  unfold unpack
  dsimp only
  split
  · split
    · exact hs
    · trivial
  · split
    · split
      · exact hs
      · exact hs
    · exact hs

theorem toNat_packComponents_positive (e : BitVec 11) (m : BitVec 52) :
    (packComponents Format.binary64 .positive e m).toNat / 2 ^ 63 = 0 := by
  rw [← toNat_unpackSign, unpackSign_packComponents]
  rfl

/-- Parts that are ahead are packed into bits without a sign. -/
theorem toNat_pack {u : UnpackedFloat} (h : Ahead u) :
    (pack Format.binary64 u).toNat / 2 ^ 63 = 0 := by
  rcases u with ⟨s⟩ | _ | ⟨s⟩ | ⟨s, m, e, hm⟩
  · cases h
    exact toNat_packComponents_positive _ _
  · exact toNat_packComponents_positive _ _
  · cases h
    exact toNat_packComponents_positive _ _
  · cases h
    unfold pack
    dsimp only
    split
    · exact toNat_packComponents_positive _ _
    · split <;> exact toNat_packComponents_positive _ _

end Unpacked

/-! ### Machine floats -/

namespace Machine

/-- A machine float is ahead if its sign bit is clear. -/
def Ahead (x : Float) : Prop := Binary.isNegative x = false

instance (x : Float) : Decidable (Ahead x) := inferInstanceAs (Decidable (_ = false))

theorem ahead_iff {x : Float} : Ahead x ↔ x.toModel.toBits.toNat / 2 ^ 63 = 0 := by
  have hx : x.toModel.toBits.toNat < 2 ^ 64 := x.toModel.toBits.toBitVec.isLt
  show (x.toModel.toBits.toNat / 2 ^ 63 == 1) = false ↔ _
  rw [beq_eq_false_iff_ne]
  omega

theorem Ahead.unpack {x : Float} (h : Ahead x) : Unpacked.Ahead x.toModel.unpack :=
  Unpacked.ahead_unpack (ahead_iff.mp h)

theorem ahead_pack {u : UnpackedFloat} (h : Unpacked.Ahead u) : Ahead ⟨.pack u⟩ :=
  ahead_iff.mpr (Unpacked.toNat_pack h)

/-- Only one float has its parts, so it is ahead if they are. -/
theorem ahead_of_unpack {x : Float} (h : Unpacked.Ahead x.toModel.unpack) : Ahead x := by
  rcases x with ⟨⟨⟨b⟩, hb⟩⟩
  rw [ahead_iff]
  -- packing the parts of a valid float gives its bits back
  have hpack : (pack Format.binary64 (unpack Format.binary64 b)).toNat / 2 ^ 63 = 0 :=
    Unpacked.toNat_pack h
  rw [pack_unpack_of_valid hb] at hpack
  exact hpack

theorem Ahead.add {x y : Float} (hx : Ahead x) (hy : Ahead y) : Ahead (x + y) :=
  ahead_pack (Unpacked.ahead_add hx.unpack hy.unpack)

theorem Ahead.mul {x y : Float} (hx : Ahead x) (hy : Ahead y) : Ahead (x * y) :=
  ahead_pack (Unpacked.ahead_mul hx.unpack hy.unpack)

theorem eq_of_unpack_eq {x y : Float} (h : x.toModel.unpack = y.toModel.unpack) : x = y := by
  rcases x with ⟨⟨⟨b⟩, hb⟩⟩
  rcases y with ⟨⟨⟨c⟩, hc⟩⟩
  have : b = c := (unpack_inj_of_valid hb hc).mp h
  subst this
  rfl

theorem Ahead.eq_of_le_of_le {x y : Float} (hx : Ahead x) (hy : Ahead y) (hxy : x ≤ y)
    (hyx : y ≤ x) : x = y := by
  rw [le_iff_rank] at hxy hyx
  have hrank : rank x = rank y := le_antisymm hxy.2 hyx.2
  exact eq_of_unpack_eq (Unpacked.eq_of_rank_eq hx.unpack hy.unpack hxy.1.1 hxy.1.2 hrank)

/-! ### Numbers above zero -/

theorem not_ahead_unpack {x : Float} (h : Binary.isNegative x = true) :
    ¬ Unpacked.Ahead x.toModel.unpack := fun hx => by
  have hahead : Binary.isNegative x = false := ahead_of_unpack hx
  rw [h] at hahead
  cases hahead

theorem rank_zero : rank 0.0 = toLex (0, toLex (0, 0)) := by decide +kernel

theorem le_zero_of_isNegative {x : Float} (h : Binary.isNegative x = true) : x ≤ 0.0 := by
  have hx := not_ahead_unpack h
  rw [le_iff_rank, rank_zero]
  exact ⟨⟨Unpacked.isNaN_of_not_ahead hx, by decide +kernel⟩, Unpacked.rank_le_of_not_ahead hx⟩

theorem lt_zero_of_isNegative {x : Float} (h : Binary.isNegative x = true)
    (hfinite : x.isFinite = false) : x < 0.0 := by
  have hx := not_ahead_unpack h
  rw [lt_iff_rank, rank_zero]
  exact ⟨⟨Unpacked.isNaN_of_not_ahead hx, by decide +kernel⟩,
    Unpacked.rank_lt_of_not_ahead hx hfinite⟩

theorem floor_le_zero {x : Float} (h : Binary.isNegative x = true) : Binary.floor x ≤ 0 := by
  have hdecode : ∀ negative m, Binary.decode x = some (negative, m) → negative = true := by
    intro negative m hx
    unfold Binary.decode at hx
    dsimp only at hx
    split at hx
    · cases hx
    · split at hx <;> cases hx <;> exact h
  unfold Binary.floor
  cases hx : Binary.decode x with
  | none => exact Int.le_refl 0
  | some parts =>
    obtain ⟨negative, m⟩ := parts
    obtain rfl := hdecode negative m hx
    dsimp only
    generalize m.numerator / m.denominator = whole
    rw [if_pos rfl]
    split <;> omega

/-- A machine float with a sign counts as one at or below zero. -/
theorem realLeInt_zero {x : Float} (h : Binary.isNegative x = true) :
    Number.realLeInt x 0 = true := by
  unfold Number.realLeInt
  by_cases hfinite : Scalar.isFinite x = true
  · rw [if_pos hfinite]
    have hzero : (Scalar.ofInt? 0 : Option Float) = some 0.0 := by decide +kernel
    have hfloor : Scalar.floor x ≤ 0 := floor_le_zero h
    rw [hzero]
    -- the floor decides unless it is zero itself; then the float is compared with zero
    rcases Int.lt_or_eq_of_le hfloor with hlt | heq
    · simp [hlt]
    · simp [heq, le_zero_of_isNegative h]
  · rw [if_neg hfinite]
    exact decide_eq_true (lt_zero_of_isNegative h (Bool.eq_false_iff.mpr hfinite))

/-- An integer that is not negative becomes a machine float that is ahead. -/
theorem ahead_ofInt {n : Int} {x : Float} (hn : 0 ≤ n) (h : Binary.ofInt? n = some x) :
    Ahead x := by
  unfold Binary.ofInt? Binary.ofRatio? at h
  rw [decide_eq_false (by omega : ¬ n < 0)] at h
  obtain ⟨m, hm, rfl⟩ := Option.map_eq_some_iff.mp h
  have hsignificand := BinaryFormat.round_significand_lt (by decide) Nat.one_ne_zero hm
  have hexponent := BinaryFormat.round_exponent_le (by decide) hm
  refine ahead_pack (Unpacked.ahead_unpack ?_)
  have hbody : (if m.significand < 2 ^ 52 then m.significand
      else (m.exponent + 1075).toNat * 2 ^ 52 + (m.significand - 2 ^ 52)) < 2 ^ 63 := by
    have hsignificand' : m.significand < 2 ^ 53 := hsignificand
    have hexponent' : m.exponent ≤ 971 := hexponent
    split <;> omega
  show (0 + if m.significand < 2 ^ 52 then m.significand
      else (m.exponent + 1075).toNat * 2 ^ 52 + (m.significand - 2 ^ 52)) % 2 ^ 64 / 2 ^ 63 = 0
  omega

end Machine

namespace Number

/-- A number that does not lie at or below zero is ahead as a machine float. -/
theorem ahead_toReal {n : Number Float} {x : Float} (h : n.le (.int 0) = false)
    (hx : n.toReal = .ok x) : Machine.Ahead x := by
  cases n with
  | int n =>
    have hn : ¬ n ≤ 0 := of_decide_eq_false h
    unfold toReal at hx
    dsimp only at hx
    cases hof : (Scalar.ofInt? n : Option Float) with
    | none => rw [hof] at hx; cases hx
    | some y =>
      rw [hof] at hx
      cases hx
      exact Machine.ahead_ofInt (by omega) hof
  | real y =>
    cases hx
    have hle : realLeInt x 0 = false := h
    refine Bool.eq_false_iff.mpr fun hnegative => ?_
    rw [Machine.realLeInt_zero hnegative] at hle
    cases hle

theorem not_le_zero_of_zero_lt {n : Number Float} (h : (Number.int 0).lt n = true) :
    n.le (.int 0) = false := by
  cases n with
  | int n =>
    have hn : 0 < n := of_decide_eq_true h
    exact decide_eq_false (by omega)
  | real x =>
    have hx : (!Scalar.isNaN x && !realLeInt x 0) = true := h
    simp only [Bool.and_eq_true, Bool.not_eq_true'] at hx
    exact hx.2

end Number

instance instDirectedScalarFloat : DirectedScalar Float where
  Ahead := Machine.Ahead
  ahead_zero := by decide +kernel
  ahead_half := by decide +kernel
  ahead_two := by decide +kernel
  ahead_add := Machine.Ahead.add
  ahead_mul := Machine.Ahead.mul
  eq_of_le_of_le := Machine.Ahead.eq_of_le_of_le

end Descent
