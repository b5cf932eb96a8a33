import Descent.Binary
import Mathlib

/-!
# Rounding to a binary format

`BinaryFormat.round` answers with a significand of at most `precision` bits
(`BinaryFormat.round_significand_lt`).  The exponent is chosen from the lengths of numerator and
denominator, which leave two candidates; `BinaryFormat.Fits` says that an exponent is large enough,
the greater candidate always is, and the lesser one is taken only where it is.  So the bits of a
machine float that is made from a rounded ratio never run into the sign.

Rounding keeps the order.  A number of the format that lies at or below a ratio lies at or below
what the ratio is rounded to (`BinaryFormat.value_le_round`), and one that lies at or above it stays
so (`BinaryFormat.round_value_le`).  At the exponent that is chosen the nearest integer lies between
all integers on either side of the ratio; a number of the format with a lesser exponent is below
the least significand with all its bits, which the ratio is not (`BinaryFormat.full_exponentFor`).
-/

namespace Descent

/-! ### The bits of a significand -/

namespace BinaryFormat

/-- The ratio lies below `2 ^ (p + e)`. -/
def Fits (p num den : Nat) (e : Int) : Prop :=
  num * 2 ^ (-e).toNat < 2 ^ p * (den * 2 ^ e.toNat)

theorem Fits.mono {p num den : Nat} {e e' : Int} (h : Fits p num den e) (he : e ≤ e') :
    Fits p num den e' := by
  have hnum : num * 2 ^ (-e').toNat ≤ num * 2 ^ (-e).toNat :=
    Nat.mul_le_mul_left _ (Nat.pow_le_pow_right (by decide) (by omega))
  have hden : den * 2 ^ e.toNat ≤ den * 2 ^ e'.toNat :=
    Nat.mul_le_mul_left _ (Nat.pow_le_pow_right (by decide) (by omega))
  exact Nat.lt_of_le_of_lt hnum (Nat.lt_of_lt_of_le h (Nat.mul_le_mul_left _ hden))

/-- The greater candidate is large enough, by the lengths alone. -/
theorem fits_of_log2 {p num den : Nat} {e : Int} (hden : den ≠ 0)
    (he : (num.log2 : Int) - den.log2 - p < e) : Fits p num den e := by
  unfold Fits
  have hnum : num < 2 ^ (num.log2 + 1) := Nat.lt_log2_self
  have hlow : 2 ^ den.log2 ≤ den := Nat.log2_self_le hden
  calc num * 2 ^ (-e).toNat
      < 2 ^ (num.log2 + 1) * 2 ^ (-e).toNat :=
        Nat.mul_lt_mul_of_pos_right hnum (Nat.two_pow_pos _)
    _ = 2 ^ (num.log2 + 1 + (-e).toNat) := (Nat.pow_add _ _ _).symm
    _ ≤ 2 ^ (p + (den.log2 + e.toNat)) := Nat.pow_le_pow_right (by decide) (by omega)
    _ = 2 ^ p * (2 ^ den.log2 * 2 ^ e.toNat) := by rw [Nat.pow_add, Nat.pow_add]
    _ ≤ 2 ^ p * (den * 2 ^ e.toNat) :=
        Nat.mul_le_mul_left _ (Nat.mul_le_mul_right _ hlow)

/-- The integer part of what an exponent leaves of the ratio. -/
def whole (num den : Nat) (e : Int) : Nat :=
  if 0 ≤ e then num / (den * Nat.pow 2 e.toNat) else num * Nat.pow 2 (-e).toNat / den

/-- An exponent is large enough exactly if the integer part it leaves is short enough. -/
theorem fits_iff {p num den : Nat} {e : Int} (hden : den ≠ 0) :
    Fits p num den e ↔ whole num den e < 2 ^ p := by
  have hpos : 0 < den := Nat.pos_of_ne_zero hden
  unfold Fits whole
  by_cases he : 0 ≤ e
  · have hzero : (-e).toNat = 0 := by omega
    rw [if_pos he, hzero, Nat.pow_zero, Nat.mul_one]
    exact (Nat.div_lt_iff_lt_mul (Nat.mul_pos hpos (Nat.two_pow_pos _))).symm
  · have hzero : e.toNat = 0 := by omega
    rw [if_neg he, hzero, Nat.pow_zero, Nat.mul_one]
    exact (Nat.div_lt_iff_lt_mul hpos).symm

/-- The exponent that is chosen is large enough. -/
theorem fits_exponentFor (F : BinaryFormat) (num : Nat) {den : Nat} (hden : den ≠ 0) :
    Fits F.precision num den (F.exponentFor num den) := by
  show Fits _ _ _ (max (if 2 ^ F.precision ≤ whole num den _ then _ else _) _)
  refine Fits.mono ?_ (Int.le_max_left _ _)
  by_cases hlong : 2 ^ F.precision ≤ whole num den ((num.log2 : Int) - den.log2 - F.precision)
  · rw [if_pos hlong]
    exact fits_of_log2 hden (by omega)
  · -- the lesser candidate is taken where the integer part it leaves is short enough
    rw [if_neg hlong]
    exact (fits_iff hden).mpr (Nat.lt_of_not_le hlong)

theorem nearestEven_le (num den : Nat) : nearestEven num den ≤ num / den + 1 := by
  unfold nearestEven
  dsimp only
  split
  · omega
  · split <;> omega

/-- The integer nearest to what an exponent leaves of the ratio. -/
def nearest (num den : Nat) (e : Int) : Nat :=
  if 0 ≤ e then nearestEven num (den * Nat.pow 2 e.toNat)
  else nearestEven (num * Nat.pow 2 (-e).toNat) den

theorem nearest_le (num den : Nat) (e : Int) : nearest num den e ≤ whole num den e + 1 := by
  unfold nearest whole
  by_cases he : 0 ≤ e
  · rw [if_pos he, if_pos he]
    exact nearestEven_le _ _
  · rw [if_neg he, if_neg he]
    exact nearestEven_le _ _

/-- What a ratio other than zero is rounded to: the nearest integer and its exponent, where that
integer is not one bit too long. -/
theorem round_eq_some {F : BinaryFormat} {num den : Nat} {m : Magnitude} (hnum : num ≠ 0)
    (h : F.round num den = some m) :
    m.exponent ≤ F.maxExponent ∧
      m =
        (if nearest num den (F.exponentFor num den) = 2 ^ F.precision then
          ⟨2 ^ (F.precision - 1), F.exponentFor num den + 1⟩
        else ⟨nearest num den (F.exponentFor num den), F.exponentFor num den⟩) := by
  unfold round at h
  rw [if_neg hnum] at h
  obtain ⟨hexponent, hm⟩ := Option.ite_none_right_eq_some.mp h
  cases hm
  exact ⟨hexponent, rfl⟩

/-- A rounded ratio has no more bits than the format holds. -/
theorem round_significand_lt {F : BinaryFormat} {num den : Nat} {m : Magnitude}
    (hF : 0 < F.precision) (hden : den ≠ 0) (h : F.round num den = some m) :
    m.significand < 2 ^ F.precision := by
  by_cases hnum : num = 0
  · rw [round, if_pos hnum] at h
    cases h
    exact Nat.two_pow_pos _
  · obtain ⟨-, rfl⟩ := round_eq_some hnum h
    have hwhole := (fits_iff hden).mp (F.fits_exponentFor num hden)
    have hle := nearest_le num den (F.exponentFor num den)
    -- rounding up can reach the next power of two, and that one is halved
    split
    · exact Nat.pow_lt_pow_right (by decide) (by omega)
    · dsimp only
      omega

theorem round_exponent_le {F : BinaryFormat} {num den : Nat} {m : Magnitude}
    (hF : F.minExponent ≤ F.maxExponent) (h : F.round num den = some m) :
    m.exponent ≤ F.maxExponent := by
  by_cases hnum : num = 0
  · rw [round, if_pos hnum] at h
    cases h
    exact hF
  · exact (round_eq_some hnum h).1

end BinaryFormat

theorem two_zpow_eq (e : ℤ) : (2 : ℚ) ^ e = 2 ^ e.toNat / 2 ^ (-e).toNat := by
  rw [← zpow_natCast, ← zpow_natCast, ← zpow_sub₀ (by decide)]
  congr 1
  omega

namespace Magnitude

/-- The number that a magnitude stands for. -/
def value (m : Magnitude) : ℚ := m.significand * 2 ^ m.exponent

theorem value_eq_div (m : Magnitude) : m.value = m.numerator / m.denominator := by
  show _ = ((m.significand * 2 ^ m.exponent.toNat : ℕ) : ℚ) / ((2 ^ (-m.exponent).toNat : ℕ) : ℚ)
  rw [value, two_zpow_eq, mul_div_assoc']
  push_cast
  rfl

end Magnitude

namespace BinaryFormat

variable {F : BinaryFormat} {num den k p : ℕ} {e : ℤ} {m c : Magnitude}

/-! ### Multiples of a power of two beside a ratio -/

theorem mul_zpow_le_iff (hden : 0 < den) :
    (k : ℚ) * 2 ^ e ≤ num / den ↔ k * (den * 2 ^ e.toNat) ≤ num * 2 ^ (-e).toNat := by
  have hden' : (0 : ℚ) < den := by exact_mod_cast hden
  rw [two_zpow_eq, mul_div_assoc', div_le_div_iff₀ (by positivity) hden', mul_assoc,
    mul_comm _ (den : ℚ)]
  exact_mod_cast Iff.rfl

theorem le_mul_zpow_iff (hden : 0 < den) :
    (num / den : ℚ) ≤ k * 2 ^ e ↔ num * 2 ^ (-e).toNat ≤ k * (den * 2 ^ e.toNat) := by
  have hden' : (0 : ℚ) < den := by exact_mod_cast hden
  rw [two_zpow_eq, mul_div_assoc', div_le_div_iff₀ hden' (by positivity), mul_assoc,
    mul_comm _ (den : ℚ)]
  exact_mod_cast Iff.rfl

/-- A power of two with a full significand does not lie below one of a lesser exponent. -/
theorem two_pow_mul_zpow_le {e' : ℤ} (hp : 0 < p) (he : e < e') :
    ((2 ^ p : ℕ) : ℚ) * 2 ^ e ≤ ((2 ^ (p - 1) : ℕ) : ℚ) * 2 ^ e' := by
  push_cast
  rw [← zpow_natCast, ← zpow_natCast, ← zpow_add₀ (by decide), ← zpow_add₀ (by decide)]
  exact zpow_le_zpow_right₀ (by decide) (by omega)

theorem le_nearestEven (hden : 0 < den) (h : k * den ≤ num) : k ≤ nearestEven num den := by
  have hle : k ≤ num / den := (Nat.le_div_iff_mul_le hden).mpr h
  unfold nearestEven
  dsimp only
  split
  · exact hle
  · split <;> omega

theorem nearestEven_le_of_le (hden : 0 < den) (h : num ≤ k * den) : nearestEven num den ≤ k := by
  have hdiv := Nat.div_add_mod num den
  have hle : num / den ≤ k := Nat.div_le_of_le_mul (Nat.mul_comm k den ▸ h)
  unfold nearestEven
  dsimp only
  rcases Nat.lt_or_eq_of_le hle with hlt | heq
  · split
    · omega
    · split <;> omega
  · -- where the quotient is the bound already nothing is left over
    have hrest : num % den = 0 := by
      rw [heq, Nat.mul_comm] at hdiv
      omega
    rw [hrest, if_pos (by omega)]
    exact hle

theorem le_nearest (hden : 0 < den) (h : (k : ℚ) * 2 ^ e ≤ num / den) : k ≤ nearest num den e := by
  rw [mul_zpow_le_iff hden] at h
  unfold nearest
  by_cases he : 0 ≤ e
  · have hzero : (-e).toNat = 0 := by omega
    rw [hzero, pow_zero, mul_one] at h
    rw [if_pos he]
    exact le_nearestEven (Nat.mul_pos hden (Nat.two_pow_pos _)) h
  · have hzero : e.toNat = 0 := by omega
    rw [hzero, pow_zero, mul_one] at h
    rw [if_neg he]
    exact le_nearestEven hden h

theorem nearest_le_of_le (hden : 0 < den) (h : (num / den : ℚ) ≤ k * 2 ^ e) :
    nearest num den e ≤ k := by
  rw [le_mul_zpow_iff hden] at h
  unfold nearest
  by_cases he : 0 ≤ e
  · have hzero : (-e).toNat = 0 := by omega
    rw [hzero, pow_zero, mul_one] at h
    rw [if_pos he]
    exact nearestEven_le_of_le (Nat.mul_pos hden (Nat.two_pow_pos _)) h
  · have hzero : e.toNat = 0 := by omega
    rw [hzero, pow_zero, mul_one] at h
    rw [if_neg he]
    exact nearestEven_le_of_le hden h

theorem nearestEven_mono {num' : ℕ} (h : num ≤ num') :
    nearestEven num den ≤ nearestEven num' den := by
  have hle : num / den ≤ num' / den := Nat.div_le_div_right h
  have hdiv := Nat.div_add_mod num den
  have hdiv' := Nat.div_add_mod num' den
  unfold nearestEven
  dsimp only
  rcases hle.lt_or_eq with hlt | heq
  · split_ifs <;> omega
  · -- of one quotient the greater ratio has the greater remainder
    rw [heq] at hdiv ⊢
    split_ifs <;> omega

theorem nearest_mono {num' : ℕ} (h : num ≤ num') : nearest num den e ≤ nearest num' den e := by
  unfold nearest
  split
  · exact nearestEven_mono h
  · exact nearestEven_mono (Nat.mul_le_mul_right _ h)

/-! ### The exponent that is chosen -/

theorem min_le_exponentFor (F : BinaryFormat) (num den : ℕ) :
    F.minExponent ≤ F.exponentFor num den := le_max_right _ _

/-- Above the least exponent the ratio has all the bits of the format. -/
theorem full_exponentFor (hnum : num ≠ 0) (hden : 0 < den) (hF : 0 < F.precision)
    (h : F.minExponent < F.exponentFor num den) :
    ((2 ^ (F.precision - 1) : ℕ) : ℚ) * 2 ^ F.exponentFor num den ≤ num / den := by
  set guess : ℤ := (num.log2 : ℤ) - den.log2 - F.precision with hguess
  have hchosen : F.exponentFor num den =
      max (if 2 ^ F.precision ≤ whole num den guess then guess + 1 else guess) F.minExponent := rfl
  rw [hchosen] at h ⊢
  rw [max_eq_left ((lt_max_iff.mp h).resolve_right (lt_irrefl _)).le]
  by_cases hlong : 2 ^ F.precision ≤ whole num den guess
  · rw [if_pos hlong]
    have hnot : ¬ Fits F.precision num den guess := fun hfits =>
      absurd ((fits_iff hden.ne').mp hfits) (Nat.not_lt.mpr hlong)
    have hle := (mul_zpow_le_iff (e := guess) hden).mpr (Nat.le_of_not_lt hnot)
    refine le_trans (le_of_eq ?_) hle
    push_cast
    rw [← zpow_natCast, ← zpow_natCast, ← zpow_add₀ (by decide), ← zpow_add₀ (by decide)]
    congr 1
    omega
  · rw [if_neg hlong]
    -- the lengths alone leave room for one bit less than the precision
    have hnum' : ((2 ^ num.log2 : ℕ) : ℚ) ≤ num := by exact_mod_cast Nat.log2_self_le hnum
    have hden' : (den : ℚ) ≤ ((2 ^ (den.log2 + 1) : ℕ) : ℚ) := by
      exact_mod_cast (Nat.lt_log2_self (n := den)).le
    have hpos : (0 : ℚ) < den := by exact_mod_cast hden
    have hsplit : ((2 ^ (F.precision - 1) : ℕ) : ℚ) * 2 ^ guess =
        ((2 ^ num.log2 : ℕ) : ℚ) / ((2 ^ (den.log2 + 1) : ℕ) : ℚ) := by
      push_cast
      rw [← zpow_natCast, ← zpow_natCast, ← zpow_natCast, ← zpow_add₀ (by decide),
        ← zpow_sub₀ (by decide)]
      congr 1
      omega
    rw [hsplit]
    exact div_le_div₀ (Nat.cast_nonneg _) hnum' hpos hden'

/-! ### Rounding -/

/-- A magnitude is one of the format's, but for its greatest exponent. -/
structure Holds (F : BinaryFormat) (c : Magnitude) : Prop where
  significand : c.significand < 2 ^ F.precision
  exponent : F.minExponent ≤ c.exponent

/-- What a ratio is rounded to has the value of the nearest integer at the chosen exponent. -/
theorem round_value (hnum : num ≠ 0) (hF : 0 < F.precision) (h : F.round num den = some m) :
    m.value = nearest num den (F.exponentFor num den) * 2 ^ F.exponentFor num den := by
  obtain ⟨-, rfl⟩ := round_eq_some hnum h
  split
  · rename_i hfull
    -- a significand that is one bit too long is halved
    rw [hfull, Magnitude.value]
    push_cast
    rw [← zpow_natCast, ← zpow_natCast, ← zpow_add₀ (by decide), ← zpow_add₀ (by decide)]
    congr 1
    omega
  · rfl

theorem round_value_of_zero (h : F.round 0 den = some m) : m.value = 0 := by
  rw [round, if_pos rfl] at h
  cases h
  simp [Magnitude.value]

/-- A magnitude over a lesser exponent. -/
theorem value_eq_mul (he : e ≤ c.exponent) :
    c.value = ((c.significand * 2 ^ (c.exponent - e).toNat : ℕ) : ℚ) * 2 ^ e := by
  unfold Magnitude.value
  push_cast
  rw [mul_assoc, ← zpow_natCast, ← zpow_add₀ (by decide)]
  congr 2
  omega

/-- A magnitude of a lesser exponent lies below all that have all their bits. -/
theorem Holds.value_lt (hc : F.Holds c) (hF : 0 < F.precision) (he : c.exponent < e) :
    c.value < ((2 ^ (F.precision - 1) : ℕ) : ℚ) * 2 ^ e := by
  have hlt : (c.significand : ℚ) < 2 ^ F.precision := by exact_mod_cast hc.significand
  calc c.value < 2 ^ F.precision * 2 ^ c.exponent :=
        mul_lt_mul_of_pos_right hlt (zpow_pos (by decide) _)
    _ ≤ ((2 ^ (F.precision - 1) : ℕ) : ℚ) * 2 ^ e := by
        exact_mod_cast two_pow_mul_zpow_le hF he

/-- What lies at or below a ratio lies at or below what the ratio is rounded to. -/
theorem value_le_round (hden : 0 < den) (hF : 0 < F.precision) (hc : F.Holds c)
    (h : F.round num den = some m) (hle : c.value ≤ num / den) : c.value ≤ m.value := by
  by_cases hnum : num = 0
  · subst hnum
    rw [round_value_of_zero h]
    simpa using hle
  rw [round_value hnum hF h]
  have hpow : (0 : ℚ) < 2 ^ F.exponentFor num den := zpow_pos (by decide) _
  by_cases he : F.exponentFor num den ≤ c.exponent
  · rw [value_eq_mul he] at hle ⊢
    exact mul_le_mul_of_nonneg_right (by exact_mod_cast le_nearest hden hle) hpow.le
  · have hlt : c.exponent < F.exponentFor num den := lt_of_not_ge he
    have hfull := full_exponentFor hnum hden hF (lt_of_le_of_lt hc.exponent hlt)
    refine (hc.value_lt hF hlt).le.trans ?_
    exact mul_le_mul_of_nonneg_right (by exact_mod_cast le_nearest hden hfull) hpow.le

/-- What lies at or above a ratio lies at or above what the ratio is rounded to. -/
theorem round_value_le (hden : 0 < den) (hF : 0 < F.precision) (hc : F.Holds c)
    (h : F.round num den = some m) (hle : (num / den : ℚ) ≤ c.value) : m.value ≤ c.value := by
  by_cases hnum : num = 0
  · subst hnum
    rw [round_value_of_zero h]
    simpa using hle
  rw [round_value hnum hF h]
  have hpow : (0 : ℚ) < 2 ^ F.exponentFor num den := zpow_pos (by decide) _
  by_cases he : F.exponentFor num den ≤ c.exponent
  · rw [value_eq_mul he] at hle ⊢
    exact mul_le_mul_of_nonneg_right (by exact_mod_cast nearest_le_of_le hden hle) hpow.le
  · have hlt : c.exponent < F.exponentFor num den := lt_of_not_ge he
    have hfull := full_exponentFor hnum hden hF (lt_of_le_of_lt hc.exponent hlt)
    exact absurd (hfull.trans hle) (not_le_of_gt (hc.value_lt hF hlt))

/-- Below a greater exponent the ratio has not all the bits of the format. -/
theorem lt_of_exponentFor_lt (hden : 0 < den) (hF : 0 < F.precision)
    (he : F.exponentFor num den < e) :
    (num / den : ℚ) < ((2 ^ (F.precision - 1) : ℕ) : ℚ) * 2 ^ e := by
  refine lt_of_lt_of_le (lt_of_not_ge fun h => ?_) (two_pow_mul_zpow_le hF he)
  exact Nat.not_le.mpr (F.fits_exponentFor num hden.ne') ((mul_zpow_le_iff hden).mp h)

/-- Of two ratios the greater one is not rounded to a lesser value. -/
theorem round_mono {num' : ℕ} {m' : Magnitude} (hden : 0 < den) (hF : 0 < F.precision)
    (h : F.round num den = some m) (h' : F.round num' den = some m') (hle : num ≤ num') :
    m.value ≤ m'.value := by
  by_cases hnum : num = 0
  · subst hnum
    rw [round_value_of_zero h]
    exact mul_nonneg (Nat.cast_nonneg _) (zpow_nonneg (by decide) _)
  have hratio : (num / den : ℚ) ≤ num' / den :=
    div_le_div_of_nonneg_right (by exact_mod_cast hle) (Nat.cast_nonneg _)
  rcases lt_trichotomy (F.exponentFor num den) (F.exponentFor num' den) with hlt | heq | hgt
  · -- the least number with the greater exponent and all its bits lies between the two
    have hmin := lt_of_le_of_lt (min_le_exponentFor F num den) hlt
    have hc : F.Holds ⟨2 ^ (F.precision - 1), F.exponentFor num' den⟩ :=
      ⟨Nat.pow_lt_pow_right (by decide) (by omega), hmin.le⟩
    exact (round_value_le hden hF hc h (lt_of_exponentFor_lt hden hF hlt).le).trans
      (value_le_round hden hF hc h' (full_exponentFor (by omega) hden hF hmin))
  · -- the same exponent: the significands compare as the numbers do
    rw [round_value hnum hF h, round_value (by omega) hF h', heq]
    exact mul_le_mul_of_nonneg_right (by exact_mod_cast nearest_mono hle)
      (zpow_nonneg (by decide) _)
  · -- a greater exponent is that of a greater number
    have hmin := lt_of_le_of_lt (min_le_exponentFor F num' den) hgt
    have hfull := full_exponentFor hnum hden hF hmin
    exact absurd hratio (not_le_of_gt ((lt_of_exponentFor_lt hden hF hgt).trans_le hfull))

/-- What a ratio is rounded to has all its bits or the least exponent. -/
theorem full_round (hden : 0 < den) (hF : 0 < F.precision) (h : F.round num den = some m) :
    F.minExponent ≤ m.exponent ∧
      (2 ^ (F.precision - 1) ≤ m.significand ∨ m.exponent = F.minExponent) := by
  by_cases hnum : num = 0
  · rw [round, if_pos hnum] at h
    cases h
    exact ⟨le_refl _, .inr rfl⟩
  obtain ⟨-, rfl⟩ := round_eq_some hnum h
  have hmin := min_le_exponentFor F num den
  split
  · exact ⟨by dsimp only; omega, .inl (le_refl _)⟩
  · refine ⟨hmin, ?_⟩
    rcases hmin.lt_or_eq with hlt | heq
    · exact .inl (le_nearest hden (full_exponentFor hnum hden hF hlt))
    · exact .inr heq.symm

end BinaryFormat

end Descent
