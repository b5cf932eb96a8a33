import Descent.Proofs.Scalar.Sign

/-!
# Signs of differences and quotients

`ReductionScalar R` is what a method that compares an actual reduction with a predicted one needs of
the scalars: a difference above zero says which of the two values is the lower one, a quotient by a
value above zero has the sign of what is divided, and finite values lie below `inf`.

Machine floats are an instance.  A difference or a quotient is rounded, but a value at or below zero
is not rounded to one above it: the parts of the result are `Unpacked.Behind` before they are
packed, and stay so.  To know that a lower float has a difference that is behind takes more than its
place, which is found by exponent first: the parts that bits stand for are canonical
(`Unpacked.canonical_unpack`), and of canonical ones the lesser exponent has the lesser magnitude
(`Unpacked.shiftLeft_le`).
-/

namespace Descent

open Float.Model (UnpackedFloat Format)
open Float.Model.UnpackedFloat

/-- Scalars whose order agrees with the signs of differences and quotients. -/
class ReductionScalar (R : Type) [Scalar R] : Prop extends OrderedScalar R where
  lt_of_sub_pos {x y : R} : (0.0 : R) < x - y → y < x
  pos_of_div_pos {x y : R} : (0.0 : R) < x / y → (0.0 : R) < y → (0.0 : R) < x
  lt_inf {x : R} : Scalar.isFinite x = true → x < Scalar.inf

namespace Unpacked

/-! ### Parts at or below zero -/

/-- The parts of a float that lies at or below zero; what is not a number has none above it. -/
def Behind : UnpackedFloat → Prop
  | .notANumber | .zero _ => True
  | .infinity s | .finite s _ _ _ => s = .negative

theorem behind_roundWithAccuracy (m : Nat) (e : Int) (a : Accuracy) :
    Behind (roundWithAccuracy Format.binary64 .negative m e a) := by
  unfold roundWithAccuracy
  dsimp only
  split
  · trivial
  · rfl

theorem behind_normalize {m : Int} (e : Int) (s : Sign) (hm : m ≤ 0) :
    Behind (UnpackedFloat.normalize Format.binary64 m e s) := by
  unfold UnpackedFloat.normalize
  split
  · exact behind_roundWithAccuracy _ _ _
  · trivial
  · rename_i h
    have := Int.compare_eq_gt.mp h
    omega

theorem rank_le_of_behind {u : UnpackedFloat} (h : Behind u) :
    rank u ≤ toLex (0, toLex (0, 0)) := by
  rcases u with ⟨s⟩ | _ | _ | ⟨s, m, e, hm⟩
  · cases h
    exact (toLex_lt_of_lt (by decide)).le
  · exact le_refl _
  · exact le_refl _
  · cases h
    exact (toLex_lt_of_lt (by decide)).le

/-- Parts that do not lie above zero are behind. -/
theorem behind_of_rank_le {u : UnpackedFloat} (h : rank u ≤ toLex (0, toLex (0, 0))) :
    Behind u := by
  rcases u with ⟨_ | _⟩ | _ | _ | ⟨_ | _, m, e, hm⟩
  · rfl
  · exact absurd h (not_le_of_gt (toLex_lt_of_lt (by decide)))
  · trivial
  · trivial
  · rfl
  · exact absurd h (not_le_of_gt (toLex_lt_of_lt (by decide)))

/-! ### Canonical parts -/

/-- The parts of a finite value have the least exponent there is or all bits of the significand. -/
def Canonical : UnpackedFloat → Prop
  | .finite _ m e _ => m < 2 ^ 53 ∧ -1074 ≤ e ∧ (2 ^ 52 ≤ m ∨ e = -1074)
  | _ => True

/-- The parts that bits stand for are canonical. -/
theorem canonical_unpack (b : BitVec Format.binary64.numBits) :
    Canonical (unpack Format.binary64 b) := by
  have hm : (unpackMantissa b).toNat < 2 ^ 52 := (unpackMantissa b).isLt
  unfold unpack
  dsimp only
  split
  · split <;> trivial
  · split
    · split
      · trivial
      · -- a subnormal number has the least exponent
        rename_i hexponent hmantissa
        rw [hexponent]
        refine ⟨by omega, by decide, .inr (by decide)⟩
    · rename_i hinfinite hexponent
      have hpos : (unpackExponent b).toNat ≠ 0 := fun h =>
        hexponent (BitVec.eq_of_toNat_eq (by rw [h]; rfl))
      have hbias : (Format.binary64.exponentBias +
          Format.binary64.mantissaBitsWithoutImplicit : Int) = 1075 := by decide
      -- a normal number has the implicit bit before its mantissa
      have happend : (1#1 ++ unpackMantissa b).toNat = 2 ^ 52 + (unpackMantissa b).toNat := by
        rw [BitVec.toNat_append, ← Nat.shiftLeft_add_eq_or_of_lt (unpackMantissa b).isLt]
        rfl
      refine ⟨?_, ?_, .inl ?_⟩
      · rw [happend]
        omega
      · rw [hbias]
        omega
      · rw [happend]
        omega

/-- Of two canonical magnitudes the one with the lesser exponent, or of one exponent the one with
the lesser significand, is the lesser one, over any exponent that both are brought to. -/
theorem shiftLeft_le {m₁ m₂ : Nat} {e₁ e₂ : Int} (h₁ : m₁ < 2 ^ 53)
    (h₂ : 2 ^ 52 ≤ m₂ ∨ e₂ = -1074) (hleast : -1074 ≤ e₁)
    (h : e₁ < e₂ ∨ e₁ = e₂ ∧ m₁ ≤ m₂) :
    m₁ <<< (e₁ - min e₁ e₂).toNat ≤ m₂ <<< (e₂ - min e₁ e₂).toNat := by
  rw [Nat.shiftLeft_eq, Nat.shiftLeft_eq]
  rcases h with h | ⟨rfl, h⟩
  · have hzero : (e₁ - min e₁ e₂).toNat = 0 := by omega
    obtain ⟨k, hk⟩ : ∃ k, (e₂ - min e₁ e₂).toNat = k + 1 := ⟨(e₂ - e₁ - 1).toNat, by omega⟩
    have hm₂ : 2 ^ 52 ≤ m₂ := h₂.resolve_right (by omega)
    have hpow : 0 < 2 ^ k := Nat.two_pow_pos k
    rw [hzero, hk, Nat.pow_zero, Nat.mul_one, Nat.pow_succ]
    calc m₁ ≤ 2 ^ 53 := h₁.le
      _ = 2 ^ 52 * (1 * 2) := by norm_num
      _ ≤ m₂ * (2 ^ k * 2) := Nat.mul_le_mul hm₂ (Nat.mul_le_mul_right 2 hpow)
  · exact Nat.mul_le_mul_right _ h

theorem toLex_le_iff {k a b c d : Int} :
    (toLex (k, toLex (a, b)) : Int ×ₗ Int ×ₗ Int) ≤ toLex (k, toLex (c, d)) ↔
      a < c ∨ a = c ∧ b ≤ d := by
  rw [Prod.Lex.toLex_le_toLex, Prod.Lex.toLex_le_toLex]
  simp

/-- The difference of a value and one at or above it is behind. -/
theorem behind_sub {a b : UnpackedFloat} (ha : Canonical a) (hb : Canonical b)
    (h : rank a ≤ rank b) : Behind (sub Format.binary64 a b) := by
  -- infinities, what is not a number and zeros are decided by their constructors alone
  rcases a with ⟨_ | _⟩ | _ | ⟨s₁⟩ | ⟨_ | _, m₁, e₁, h₁⟩ <;>
    rcases b with ⟨_ | _⟩ | _ | ⟨s₂⟩ | ⟨_ | _, m₂, e₂, h₂⟩ <;>
    first
    | trivial
    | rfl
    | exact absurd h (not_le_of_gt (toLex_lt_of_lt (by decide)))
    | skip
  · cases s₁ <;> cases s₂ <;> trivial
  · -- of two negative values the lower one has the greater magnitude
    have hlex := toLex_le_iff.mp h
    have hle := shiftLeft_le hb.1 ha.2.2 hb.2.1 (by omega : e₂ < e₁ ∨ e₂ = e₁ ∧ m₂ ≤ m₁)
    rw [min_comm] at hle
    exact behind_normalize _ _ (by simp only [Sign.apply]; omega)
  · refine behind_normalize _ _ ?_
    exact Int.sub_nonpos_of_le (Int.le_trans (Int.neg_nonpos_of_nonneg (Int.natCast_nonneg _))
      (Int.natCast_nonneg _))
  · have hlex := toLex_le_iff.mp h
    have hle := shiftLeft_le ha.1 hb.2.2 ha.2.1 (by omega : e₁ < e₂ ∨ e₁ = e₂ ∧ m₁ ≤ m₂)
    exact behind_normalize _ _ (by simp only [Sign.apply]; omega)

theorem sub_of_isNaN {a b : UnpackedFloat} (h : ¬(a.isNaN = false ∧ b.isNaN = false)) :
    sub Format.binary64 a b = .notANumber := by
  rcases a with ⟨_ | _⟩ | _ | _ | ⟨_ | _⟩ <;> rcases b with _ | _ | _ | _ <;>
    first
    | rfl
    | exact absurd ⟨rfl, rfl⟩ h

/-- The quotient of a value at or below zero and one above zero is behind. -/
theorem behind_div {a b : UnpackedFloat} (ha : Behind a) (hb : toLex (0, toLex (0, 0)) < rank b) :
    Behind (div Format.binary64 a b) := by
  rcases b with ⟨_ | _⟩ | _ | _ | ⟨_ | _, m₂, e₂, h₂⟩
  · exact absurd hb (not_lt_of_ge (rank_le_of_behind rfl))
  · rcases a with ⟨s⟩ | _ | _ | ⟨s, m₁, e₁, h₁⟩ <;> cases ha <;> trivial
  · exact absurd hb (not_lt_of_ge (rank_le_of_behind trivial))
  · exact absurd hb (not_lt_of_ge (rank_le_of_behind trivial))
  · exact absurd hb (not_lt_of_ge (rank_le_of_behind rfl))
  · rcases a with ⟨s⟩ | _ | _ | ⟨s, m₁, e₁, h₁⟩ <;> cases ha
    · rfl
    · trivial
    · trivial
    · exact behind_roundWithAccuracy _ _ _

/-! ### Packing -/

theorem sign_toBitVec (s : Sign) : Sign.ofBitVec s.toBitVec = s := by
  cases s <;> rfl

theorem behind_unpack {b : BitVec Format.binary64.numBits}
    (h : Sign.ofBitVec (unpackSign b) = .negative) : Behind (unpack Format.binary64 b) := by
  unfold unpack
  dsimp only
  split
  · split
    · exact h
    · trivial
  · split
    · split
      · trivial
      · exact h
    · exact h

theorem behind_unpack_packComponents (e : BitVec 11) (m : BitVec 52) :
    Behind (unpack Format.binary64 (packComponents Format.binary64 .negative e m)) :=
  behind_unpack (by rw [unpackSign_packComponents, sign_toBitVec])

/-- Parts that are behind stay so when they are packed. -/
theorem behind_unpack_pack {u : UnpackedFloat} (h : Behind u) :
    Behind (unpack Format.binary64 (pack Format.binary64 u)) := by
  rcases u with ⟨s⟩ | _ | ⟨_ | _⟩ | ⟨s, m, e, hm⟩
  · cases h
    exact behind_unpack_packComponents _ _
  · trivial
  · exact behind_unpack_packComponents _ _
  · trivial
  · cases h
    unfold pack
    dsimp only
    split
    · exact behind_unpack_packComponents _ _
    · split <;> exact behind_unpack_packComponents _ _

theorem rank_lt_of_isFinite {u : UnpackedFloat} (h : u.isFinite = true) :
    rank u < toLex (2, toLex (0, 0)) := by
  rcases u with ⟨s⟩ | _ | ⟨s⟩ | ⟨_ | _, m, e, hm⟩
  · cases h
  · cases h
  · exact toLex_lt_of_lt (by decide)
  · exact toLex_lt_of_lt (by decide)
  · exact toLex_lt_of_lt (by decide)

theorem isNaN_of_isFinite {u : UnpackedFloat} (h : u.isFinite = true) : u.isNaN = false := by
  cases u with
  | notANumber => exact absurd h (by decide)
  | infinity | zero | finite => rfl

end Unpacked

/-! ### Machine floats -/

namespace Machine

/-- What is packed from parts that are behind does not lie above zero. -/
theorem not_pos_of_behind {u : UnpackedFloat} (h : Unpacked.Behind u) :
    ¬(0.0 : Float) < ⟨.pack u⟩ := by
  rw [lt_iff_rank, rank_zero]
  exact fun hpos => not_lt_of_ge (Unpacked.rank_le_of_behind (Unpacked.behind_unpack_pack h)) hpos.2

theorem lt_of_sub_pos {x y : Float} (h : 0.0 < x - y) : y < x := by
  by_contra hnot
  refine not_pos_of_behind (u := sub Format.binary64 x.toModel.unpack y.toModel.unpack) ?_ h
  by_cases hknown : x.isNaN = false ∧ y.isNaN = false
  · have hle : x ≤ y := OrderedScalar.le_of_not_lt hknown.2 hknown.1 hnot
    exact Unpacked.behind_sub (Unpacked.canonical_unpack _) (Unpacked.canonical_unpack _)
      (le_iff_rank.mp hle).2
  · rw [Unpacked.sub_of_isNaN hknown]
    trivial

theorem pos_of_div_pos {x y : Float} (h : 0.0 < x / y) (hy : 0.0 < y) : 0.0 < x := by
  by_contra hnot
  refine not_pos_of_behind (u := div Format.binary64 x.toModel.unpack y.toModel.unpack) ?_ h
  rw [lt_iff_rank, rank_zero] at hy hnot
  have hx : Unpacked.Behind x.toModel.unpack := by
    by_cases hknown : x.isNaN = false
    · exact Unpacked.behind_of_rank_le
        (le_of_not_gt fun hgt => hnot ⟨⟨by decide +kernel, hknown⟩, hgt⟩)
    · have hnan : x.toModel.unpack.isNaN = true := Bool.not_eq_false _ ▸ hknown
      cases hu : x.toModel.unpack with
      | notANumber => trivial
      | infinity | zero | finite => rw [hu] at hnan; cases hnan
  exact Unpacked.behind_div hx hy.2

theorem lt_inf_of_isFinite {x : Float} (h : x.isFinite = true) : x < (Scalar.inf : Float) := by
  have hinf : rank (Scalar.inf : Float) = toLex (2, toLex (0, 0)) := by decide +kernel
  rw [lt_iff_rank, hinf]
  exact ⟨⟨Unpacked.isNaN_of_isFinite h, by decide +kernel⟩, Unpacked.rank_lt_of_isFinite h⟩

end Machine

instance instReductionScalarFloat : ReductionScalar Float where
  lt_of_sub_pos := Machine.lt_of_sub_pos
  pos_of_div_pos := Machine.pos_of_div_pos
  lt_inf := Machine.lt_inf_of_isFinite

end Descent
