import Descent.Proofs.Scalar.Rounded
import Descent.Text.Numeral

/-!
# Decimals from which machine floats are read back

What a ratio is rounded to does not depend on how the ratio is written
(`BinaryFormat.round_congr`), and a magnitude that a format holds is rounded to itself
(`BinaryFormat.round_eq_self`).  So the shortest decimal of a magnitude is rounded to the magnitude
(`Decimal.readsBack_shortest`), and so is every decimal of the same value.

A written decimal has the float of the ratio it stands for (`Decimal.Literal.value_eq_ofRatio`): one
that is too long is beyond all floats, or nearer to zero than to any other.  Two floats of one sign
and one magnitude are the same, so the float is read back (`Decimal.Literal.value_of_readsBack`).
-/

namespace Descent

open Float.Model (UnpackedFloat)

namespace BinaryFormat

variable {F : BinaryFormat} {num den num' den' : ℕ} {c m : Magnitude}

/-! ### One ratio, written in two ways -/

theorem nearestEven_mul_left {k : ℕ} (hk : 0 < k) (num den : ℕ) :
    nearestEven (k * num) (k * den) = nearestEven num den := by
  unfold nearestEven
  simp only [Nat.mul_div_mul_left _ _ hk, Nat.mul_mod_mul_left, Nat.mul_left_comm 2 k,
    Nat.mul_lt_mul_left hk]

theorem nearestEven_congr (hden : 0 < den) (hden' : 0 < den') (h : num * den' = num' * den) :
    nearestEven num den = nearestEven num' den' := by
  calc nearestEven num den
      = nearestEven (den' * num) (den' * den) := (nearestEven_mul_left hden' num den).symm
    _ = nearestEven (den * num') (den * den') := by
        rw [Nat.mul_comm den' num, h, Nat.mul_comm num' den, Nat.mul_comm den' den]
    _ = nearestEven num' den' := nearestEven_mul_left hden num' den'

theorem nearest_congr (hden : 0 < den) (hden' : 0 < den') (h : num * den' = num' * den) (e : ℤ) :
    nearest num den e = nearest num' den' e := by
  unfold nearest
  split
  · refine nearestEven_congr (Nat.mul_pos hden (Nat.two_pow_pos _))
      (Nat.mul_pos hden' (Nat.two_pow_pos _)) ?_
    rw [← Nat.mul_assoc, h, Nat.mul_assoc]
  · refine nearestEven_congr hden hden' ?_
    rw [Nat.mul_right_comm, h, Nat.mul_right_comm]

/-- A greater ratio has no lesser exponent. -/
theorem exponentFor_mono (hnum : num ≠ 0) (hden : 0 < den) (hden' : 0 < den')
    (hF : 0 < F.precision) (h : (num / den : ℚ) ≤ num' / den') :
    F.exponentFor num den ≤ F.exponentFor num' den' := by
  by_contra hlt
  rw [Int.not_le] at hlt
  have hmin := (min_le_exponentFor F num' den').trans_lt hlt
  have hfull := full_exponentFor hnum hden hF hmin
  exact absurd (hfull.trans h) (not_le_of_gt (lt_of_exponentFor_lt hden' hF hlt))

theorem div_eq_div_iff_mul (hden : 0 < den) (hden' : 0 < den') :
    (num / den : ℚ) = num' / den' ↔ num * den' = num' * den := by
  have hden₀ : (den : ℚ) ≠ 0 := by exact_mod_cast hden.ne'
  have hden₁ : (den' : ℚ) ≠ 0 := by exact_mod_cast hden'.ne'
  rw [div_eq_div_iff hden₀ hden₁]
  exact_mod_cast Iff.rfl

/-- The nearest number of the format, where the ratio is not zero. -/
theorem round_of_ne_zero (hnum : num ≠ 0) :
    F.round num den =
      let q := nearest num den (F.exponentFor num den)
      let m : Magnitude :=
        if q = 2 ^ F.precision then ⟨2 ^ (F.precision - 1), F.exponentFor num den + 1⟩
        else ⟨q, F.exponentFor num den⟩
      if m.exponent ≤ F.maxExponent then some m else none := by
  rw [round, if_neg hnum]
  rfl

/-- What a ratio is rounded to depends on its value only. -/
theorem round_congr (hden : 0 < den) (hden' : 0 < den') (hF : 0 < F.precision)
    (h : (num / den : ℚ) = num' / den') : F.round num den = F.round num' den' := by
  have hmul := (div_eq_div_iff_mul hden hden').mp h
  by_cases hnum : num = 0
  · subst hnum
    have hnum' : num' = 0 := by
      rw [Nat.zero_mul] at hmul
      exact (Nat.mul_eq_zero.mp hmul.symm).resolve_right hden.ne'
    rw [hnum', round, round, if_pos rfl, if_pos rfl]
  · have hnum' : num' ≠ 0 := by
      rintro rfl
      rw [Nat.zero_mul] at hmul
      exact (Nat.mul_ne_zero hnum hden'.ne') hmul
    -- the exponent is determined by the ratio
    have he : F.exponentFor num den = F.exponentFor num' den' :=
      le_antisymm (exponentFor_mono hnum hden hden' hF h.le)
        (exponentFor_mono hnum' hden' hden hF h.ge)
    rw [round_of_ne_zero hnum, round_of_ne_zero hnum', he, nearest_congr hden hden' hmul]

/-! ### Numbers of the format -/

/-- A magnitude of the format, with all its bits unless it has the least exponent. -/
structure Stores (F : BinaryFormat) (c : Magnitude) : Prop extends F.Holds c where
  greatest : c.exponent ≤ F.maxExponent
  full : 2 ^ (F.precision - 1) ≤ c.significand ∨ c.exponent = F.minExponent

theorem denominator_pos (c : Magnitude) : 0 < c.denominator := Nat.two_pow_pos _

theorem numerator_ne_zero (h : c.significand ≠ 0) : c.numerator ≠ 0 :=
  Nat.mul_ne_zero h (Nat.two_pow_pos _).ne'

/-- The exponent of a magnitude of the format is the one that is chosen for it. -/
theorem Stores.exponentFor_eq (hc : F.Stores c) (hF : 0 < F.precision) (hne : c.significand ≠ 0) :
    F.exponentFor c.numerator c.denominator = c.exponent := by
  have hden := denominator_pos c
  have hvalue := c.value_eq_div
  rcases lt_trichotomy (F.exponentFor c.numerator c.denominator) c.exponent with hlt | heq | hgt
  · have hmin := (min_le_exponentFor F c.numerator c.denominator).trans_lt hlt
    have hfull := hc.full.resolve_right (ne_of_gt hmin)
    have hbelow := lt_of_exponentFor_lt hden hF hlt
    rw [← hvalue] at hbelow
    refine absurd hbelow (not_lt_of_ge ?_)
    exact mul_le_mul_of_nonneg_right (by exact_mod_cast hfull) (zpow_nonneg (by decide) _)
  · exact heq
  · have hfull := full_exponentFor (numerator_ne_zero hne) hden hF (hc.exponent.trans_lt hgt)
    rw [← hvalue] at hfull
    exact absurd hfull (not_le_of_gt (hc.toHolds.value_lt hF hgt))

/-- A magnitude of the format is rounded to itself. -/
theorem round_eq_self (hc : F.Stores c) (hF : 0 < F.precision) (hne : c.significand ≠ 0) :
    F.round c.numerator c.denominator = some c := by
  have hden := denominator_pos c
  have hvalue : (c.significand : ℚ) * 2 ^ c.exponent = c.numerator / c.denominator :=
    c.value_eq_div
  have hnearest : nearest c.numerator c.denominator c.exponent = c.significand :=
    le_antisymm (nearest_le_of_le hden hvalue.ge) (le_nearest hden hvalue.le)
  rw [round_of_ne_zero (numerator_ne_zero hne), hc.exponentFor_eq hF hne, hnearest]
  dsimp only
  rw [if_neg hc.significand.ne, if_pos hc.greatest]

end BinaryFormat

/-! ### Floats of one magnitude -/

/-- Parts with one sign and one magnitude are the same. -/
theorem Unpacked.eq_of_decoded {u v : UnpackedFloat} {r : Bool × Magnitude}
    (hu : decoded u = some r) (hv : decoded v = some r) : u = v := by
  rcases u with ⟨s⟩ | _ | ⟨_ | _⟩ | ⟨_ | _, m, e, hm⟩ <;> cases hu <;>
    rcases v with ⟨s'⟩ | _ | ⟨_ | _⟩ | ⟨_ | _, m', e', hm'⟩ <;> cases hv
  -- zero has no significand, and the finite parts have one
  all_goals first | rfl | exact absurd ‹0 < 0› (Nat.lt_irrefl 0)

namespace Machine

variable {x y : Float} {s : Bool} {c : Magnitude}

/-- The magnitude of a machine float is one of the format. -/
theorem stores_decode (h : Binary.decode x = some (s, c)) : BinaryFormat.double.Stores c := by
  have hholds := holds_decode h
  unfold Binary.decode at h
  dsimp only at h
  have hbiased : x.toBits.toNat / Nat.pow 2 52 % Nat.pow 2 11 < 2048 := Nat.mod_lt _ (by decide)
  generalize x.toBits.toNat / Nat.pow 2 52 % Nat.pow 2 11 = biased at h hbiased
  split at h
  · cases h
  · split at h <;> cases h
    · exact ⟨hholds, (by decide : (-1074 : ℤ) ≤ 971), .inr rfl⟩
    · refine ⟨hholds, ?_, .inl (Nat.le_add_right _ _)⟩
      show Int.ofNat biased - 1075 ≤ 971
      rw [Int.ofNat_eq_natCast]
      omega

/-- A machine float has a sign and a magnitude of its own. -/
theorem eq_of_decode (hx : Binary.decode x = some (s, c)) (hy : Binary.decode y = some (s, c)) :
    x = y := by
  rw [decode_eq] at hx hy
  exact eq_of_unpack_eq (Unpacked.eq_of_decoded hx hy)

end Machine

/-! ### Decimals -/

namespace Decimal

variable {d d' : Decimal} {m : Magnitude}

/-- The number that a decimal stands for. -/
def value (d : Decimal) : ℚ := d.digits * 10 ^ d.exponent

theorem denominator_pos (d : Decimal) : 0 < d.denominator := Nat.pow_pos (by decide)

theorem ten_zpow_eq (e : ℤ) : (10 : ℚ) ^ e = 10 ^ e.toNat / 10 ^ (-e).toNat := by
  rw [← zpow_natCast, ← zpow_natCast, ← zpow_sub₀ (by decide)]
  congr 1
  omega

theorem value_eq_div (d : Decimal) : d.value = d.numerator / d.denominator := by
  show _ = ((d.digits * 10 ^ d.exponent.toNat : ℕ) : ℚ) / ((10 ^ (-d.exponent).toNat : ℕ) : ℚ)
  rw [value, ten_zpow_eq, mul_div_assoc']
  push_cast
  rfl

theorem readsBack_iff :
    readsBack m d = true ↔ BinaryFormat.double.round d.numerator d.denominator = some m :=
  decide_eq_true_iff

/-- Decimals of one value are read back as the same magnitude. -/
theorem readsBack_congr (h : d.value = d'.value) : readsBack m d = readsBack m d' := by
  rw [value_eq_div, value_eq_div] at h
  have hround := BinaryFormat.round_congr (F := .double) d.denominator_pos d'.denominator_pos
    (by decide) h
  unfold readsBack
  rw [hround]

/-- All the digits of a magnitude have its value. -/
theorem value_exact (m : Magnitude) : (exact m).value = m.value := by
  unfold exact value Magnitude.value Magnitude.numerator
  split
  · rename_i he
    dsimp only
    have hexponent : m.exponent = (m.exponent.toNat : ℤ) := (Int.toNat_of_nonneg he).symm
    rw [zpow_zero, mul_one, hexponent, zpow_natCast, Int.toNat_natCast]
    exact Nat.cast_mul _ _ |>.trans (by push_cast [Nat.pow_eq]; rfl)
  · rename_i he
    dsimp only
    -- `2^(-k) = 5^k / 10^k`
    obtain ⟨k, hk⟩ : ∃ k : ℕ, m.exponent = -(k : ℤ) := ⟨(-m.exponent).toNat, by omega⟩
    have hpow : (5 : ℚ) ^ k * 2 ^ k = 10 ^ k := by
      rw [← mul_pow]
      norm_num
    rw [hk, neg_neg, Int.toNat_natCast, zpow_neg, zpow_neg, zpow_natCast, zpow_natCast, ← hpow,
      mul_inv, Nat.pow_eq]
    push_cast
    field_simp

theorem readsBack_exact (hm : BinaryFormat.double.Stores m) (hne : m.significand ≠ 0) :
    readsBack m (exact m) = true := by
  have hvalue : ((exact m).numerator / (exact m).denominator : ℚ) =
      m.numerator / m.denominator := by
    rw [← value_eq_div, ← m.value_eq_div, value_exact]
  rw [readsBack_iff, BinaryFormat.round_congr (exact m).denominator_pos
    (BinaryFormat.denominator_pos m) (by decide) hvalue]
  exact BinaryFormat.round_eq_self hm (by decide) hne

theorem readsBack_of_attempt {count : ℕ} (h : attempt m count = some d) :
    readsBack m d = true := by
  unfold attempt at h
  dsimp only at h
  -- one of the two candidates reads back, or both do, and then the nearer one is taken
  split at h
  · rename_i hlow hhigh
    cases h
    split
    · exact hhigh
    · exact hlow
  · rename_i hlow _
    cases h
    exact hlow
  · rename_i _ hhigh
    cases h
    exact hhigh
  · cases h

theorem readsBack_search (hm : BinaryFormat.double.Stores m) (hne : m.significand ≠ 0)
    (fuel count : ℕ) : readsBack m (search m fuel count) = true := by
  induction fuel generalizing count with
  | zero => exact readsBack_exact hm hne
  | succ fuel ih =>
    unfold search
    split
    · rename_i hattempt
      exact readsBack_of_attempt hattempt
    · exact ih (count + 1)

/-- The shortest decimal of a magnitude is read back as the magnitude. -/
theorem readsBack_shortest (hm : BinaryFormat.double.Stores m) :
    readsBack m (shortest m) = true := by
  by_cases hzero : m.significand = 0
  · have hexponent : m.exponent = -1074 := by
      rcases hm.full with hfull | hleast
      · rw [hzero] at hfull
        exact absurd hfull (by decide)
      · exact hleast
    have hm' : m = ⟨0, -1074⟩ := by rw [← hzero, ← hexponent]
    rw [shortest, if_pos hzero, readsBack_iff, hm']
    rfl
  · rw [shortest, if_neg hzero]
    exact readsBack_search hm hzero 17 1

end Decimal

/-! ### Ratios out of range -/

namespace BinaryFormat

variable {F : BinaryFormat} {num den : ℕ}

/-- A ratio beyond the greatest number of the format is not rounded. -/
theorem round_eq_none (hden : 0 < den)
    (h : ((2 ^ F.precision : ℕ) : ℚ) * 2 ^ F.maxExponent ≤ num / den) :
    F.round num den = none := by
  by_contra hsome
  obtain ⟨m, hm⟩ := Option.ne_none_iff_exists'.mp hsome
  have hnum : num ≠ 0 := by
    rintro rfl
    rw [Nat.cast_zero, zero_div] at h
    exact absurd h (not_le_of_gt (mul_pos (by exact_mod_cast Nat.two_pow_pos _)
      (zpow_pos (by decide) _)))
  obtain ⟨hmax, rfl⟩ := round_eq_some hnum hm
  have he : F.exponentFor num den ≤ F.maxExponent := by
    split at hmax <;> dsimp only at hmax <;> omega
  -- the exponent that is chosen leaves room for the ratio, and so does the greatest one
  have hfits := (F.fits_exponentFor num hden.ne').mono he
  exact absurd ((mul_zpow_le_iff hden).mp h) (Nat.not_le.mpr hfits)

theorem nearestEven_eq_zero (h : 2 * num < den) : nearestEven num den = 0 := by
  have hlt : num < den := by omega
  unfold nearestEven
  dsimp only
  rw [Nat.div_eq_of_lt hlt, Nat.mod_eq_of_lt hlt, if_pos h]

theorem nearest_eq_zero {e : ℤ} (hden : 0 < den) (h : ((2 * num : ℕ) / den : ℚ) < 2 ^ e) :
    nearest num den e = 0 := by
  -- the same without fractions
  have hlt : 2 * num * 2 ^ (-e).toNat < den * 2 ^ e.toNat := by
    have hiff : ((1 : ℕ) : ℚ) * 2 ^ e ≤ (2 * num : ℕ) / den ↔
        1 * (den * 2 ^ e.toNat) ≤ 2 * num * 2 ^ (-e).toNat := mul_zpow_le_iff hden
    rw [Nat.cast_one, one_mul, one_mul] at hiff
    exact Nat.lt_of_not_le (mt hiff.mpr (not_le_of_gt h))
  unfold nearest
  by_cases he : 0 ≤ e
  · have hzero : (-e).toNat = 0 := by omega
    rw [hzero, pow_zero, mul_one] at hlt
    rw [if_pos he]
    exact nearestEven_eq_zero hlt
  · have hzero : e.toNat = 0 := by omega
    rw [hzero, pow_zero, mul_one, mul_assoc] at hlt
    rw [if_neg he]
    exact nearestEven_eq_zero hlt

/-- A ratio nearer to zero than to the least number of the format is rounded to zero. -/
theorem round_eq_zero (hden : 0 < den) (hF : 0 < F.precision) (hmax : F.minExponent ≤ F.maxExponent)
    (h : ((2 * num : ℕ) / den : ℚ) < 2 ^ F.minExponent) :
    F.round num den = some ⟨0, F.minExponent⟩ := by
  by_cases hnum : num = 0
  · rw [round, if_pos hnum]
  have he : F.exponentFor num den = F.minExponent := by
    refine le_antisymm (not_lt.mp fun hlt => ?_) (min_le_exponentFor F num den)
    -- with a greater exponent all bits are there, which is too much for the ratio
    have hone : (1 : ℚ) ≤ ((2 ^ (F.precision - 1) : ℕ) : ℚ) := by
      exact_mod_cast Nat.one_le_two_pow
    have hratio : (num / den : ℚ) ≤ (2 * num : ℕ) / den := by
      refine div_le_div_of_nonneg_right ?_ (Nat.cast_nonneg _)
      exact_mod_cast Nat.le_mul_of_pos_left num (by decide)
    refine absurd h (not_lt_of_ge ?_)
    calc (2 : ℚ) ^ F.minExponent
        ≤ 2 ^ F.exponentFor num den := zpow_le_zpow_right₀ (by decide) hlt.le
      _ ≤ ((2 ^ (F.precision - 1) : ℕ) : ℚ) * 2 ^ F.exponentFor num den :=
          le_mul_of_one_le_left (zpow_nonneg (by decide) _) hone
      _ ≤ num / den := full_exponentFor hnum hden hF hlt
      _ ≤ (2 * num : ℕ) / den := hratio
  have hfull : 0 ≠ 2 ^ F.precision := (Nat.two_pow_pos _).ne
  rw [round_of_ne_zero hnum, he, nearest_eq_zero hden h]
  dsimp only
  rw [if_neg hfull, if_pos hmax]

end BinaryFormat

namespace Decimal

/-! ### Written decimals -/

theorem lt_ten_pow_length (n : ℕ) : n < 10 ^ length n :=
  (Nat.length_toDigits_le_iff (by decide) Nat.length_toDigits_pos).mp (le_refl _)

theorem ten_pow_length_le {n : ℕ} (hn : 0 < n) : 10 ^ (length n - 1) ≤ n := by
  by_contra hlt
  rw [Nat.not_le] at hlt
  rcases Nat.eq_zero_or_pos (length n - 1) with hone | hmore
  · rw [hone, pow_zero] at hlt
    omega
  · have hle : length n ≤ length n - 1 := (Nat.length_toDigits_le_iff (by decide) hmore).mpr hlt
    omega

/-- Three bits are worth less than a digit. -/
theorem two_pow_le_ten_pow (k : ℕ) : (2 : ℚ) ^ (3 * k) ≤ 10 ^ k := by
  rw [pow_mul]
  exact pow_le_pow_left₀ (by norm_num) (by norm_num) k

/-- The decimal as it is written, without its sign. -/
def Literal.decimal (l : Literal) : Decimal := ⟨l.digits, l.exponent⟩

variable {l : Literal} {m : Magnitude}

theorem Literal.value_lt (l : Literal) :
    l.decimal.value < 10 ^ (l.exponent + length l.digits) := by
  have hlt : (l.digits : ℚ) < 10 ^ length l.digits := by exact_mod_cast lt_ten_pow_length l.digits
  calc (l.digits : ℚ) * 10 ^ l.exponent
      < 10 ^ length l.digits * 10 ^ l.exponent :=
        mul_lt_mul_of_pos_right hlt (zpow_pos (by decide) _)
    _ = 10 ^ (l.exponent + length l.digits) := by
        rw [← zpow_natCast, ← zpow_add₀ (by decide), add_comm]

theorem Literal.le_value (h : l.digits ≠ 0) :
    (10 : ℚ) ^ (l.exponent + length l.digits - 1) ≤ l.decimal.value := by
  have hle : ((10 ^ (length l.digits - 1) : ℕ) : ℚ) ≤ l.digits := by
    exact_mod_cast ten_pow_length_le (Nat.pos_of_ne_zero h)
  have hpos : 0 < length l.digits := Nat.length_toDigits_pos
  calc (10 : ℚ) ^ (l.exponent + length l.digits - 1)
      = ((10 ^ (length l.digits - 1) : ℕ) : ℚ) * 10 ^ l.exponent := by
        push_cast
        rw [← zpow_natCast, ← zpow_add₀ (by decide)]
        congr 1
        omega
    _ ≤ l.digits * 10 ^ l.exponent := mul_le_mul_of_nonneg_right hle (zpow_nonneg (by decide) _)

/-- A decimal of four hundred digits before the point is beyond every float. -/
theorem Literal.round_of_large (hdigits : l.digits ≠ 0)
    (h : 400 < l.exponent + length l.digits) :
    BinaryFormat.double.round l.decimal.numerator l.decimal.denominator = none := by
  have hbig : ((2 ^ 53 : ℕ) : ℚ) * 2 ^ (971 : ℤ) ≤ 10 ^ (400 : ℤ) := by
    rw [zpow_ofNat, zpow_ofNat, Nat.cast_pow, Nat.cast_ofNat, ← pow_add]
    exact (pow_le_pow_right₀ one_le_two (by decide)).trans (two_pow_le_ten_pow 400)
  have hle : (10 : ℚ) ^ (400 : ℤ) ≤ 10 ^ (l.exponent + length l.digits - 1) :=
    zpow_le_zpow_right₀ (by decide) (by omega)
  exact BinaryFormat.round_eq_none l.decimal.denominator_pos
    ((hbig.trans hle).trans ((Literal.le_value hdigits).trans (value_eq_div _).le))

/-- A decimal of four hundred zeros after the point is below half of the least positive float. -/
theorem Literal.round_of_small (h : l.exponent + length l.digits < -400) :
    BinaryFormat.double.round l.decimal.numerator l.decimal.denominator =
      some ⟨0, BinaryFormat.double.minExponent⟩ := by
  -- `2 ^ 1203 ≤ 10 ^ 401`
  have hsmall : 2 * (10 : ℚ) ^ (-401 : ℤ) ≤ 2 ^ (-1074 : ℤ) := by
    calc 2 * (10 : ℚ) ^ (-401 : ℤ) ≤ 2 * ((2 : ℚ) ^ (3 * 401 : ℕ))⁻¹ := by
          refine mul_le_mul_of_nonneg_left ?_ (by decide)
          exact inv_anti₀ (by positivity) (two_pow_le_ten_pow 401)
      _ = 2 ^ (-1202 : ℤ) := by
          rw [← zpow_natCast, ← zpow_neg, ← zpow_one_add₀ (by decide)]
          rfl
      _ ≤ 2 ^ (-1074 : ℤ) := zpow_le_zpow_right₀ (by decide) (by decide)
  have hle : (10 : ℚ) ^ (l.exponent + length l.digits) ≤ 10 ^ (-401 : ℤ) :=
    zpow_le_zpow_right₀ (by decide) (by omega)
  have hlt : 2 * l.decimal.value < 2 ^ (-1074 : ℤ) := by
    have := (l.value_lt).trans_le hle
    linarith
  refine BinaryFormat.round_eq_zero l.decimal.denominator_pos (by decide) (by decide) ?_
  rw [Nat.cast_mul, mul_div_assoc, ← value_eq_div]
  exact hlt

/-- A written decimal has the float of the ratio that it stands for. -/
theorem Literal.value_eq_ofRatio (l : Literal) :
    l.value = Binary.ofRatio l.negative l.decimal.numerator l.decimal.denominator := by
  have hzero : ∀ negative, Binary.encode negative ⟨0, -1074⟩ = if negative then -0.0 else 0.0 := by
    intro negative
    cases negative <;> rfl
  unfold Literal.value Binary.ofRatio Binary.ofRatio?
  split
  · -- a zero, whatever its exponent is
    rename_i hdigits
    have hnum : l.decimal.numerator = 0 := by
      rw [numerator, Literal.decimal, hdigits, Nat.zero_mul]
    rw [hnum, BinaryFormat.round, if_pos rfl]
    exact (hzero l.negative).symm
  rename_i hdigits
  dsimp only
  split
  · -- the exponent alone says that it is too large
    rename_i hlarge
    rw [Literal.round_of_large hdigits (by omega)]
    rfl
  · split
    · -- or that it is too small
      rename_i hsmall
      rw [Literal.round_of_small (by omega)]
      exact (hzero l.negative).symm
    · rfl

/-- A written decimal is read as the float whose sign it has and whose magnitude it is rounded
to. -/
theorem Literal.value_of_readsBack {x : Float} (hx : Binary.decode x = some (l.negative, m))
    (h : readsBack m l.decimal = true) : l.value = x := by
  rw [readsBack_iff] at h
  rw [l.value_eq_ofRatio, Binary.ofRatio, Binary.ofRatio?, h]
  exact Machine.eq_of_decode (Machine.decode_encode _ l.decimal.denominator_pos h) hx

end Decimal

end Descent
