import Descent.Fault
import Descent.Proofs.Scalar.Order
import Descent.Proofs.Scalar.Reduction
import Descent.Text.Numeral
import Mathlib.Analysis.Real.Sqrt
import Mathlib.Data.EReal.Inv

/-!
# Exact arithmetic

`Exact` is the arithmetic in which the algorithms are described: the real numbers, computed with
exactly, beside the special values of a running optimisation.  Its values are the extended reals and
one that is not known, which is also what an operation on infinite values without a sensible answer
gives.

What is computed from real numbers is a real number (`Exact.real`): the lemmas below carry the
operations of the solvers over to those on the reals.  An actual reduction can be compared with a
predicted one: known differences and quotients have the signs of those of the extended reals, and
where one is not known nothing lies below it.
-/

namespace Descent

/-- A value of exact arithmetic: an extended real number, or one that is not known. -/
inductive Exact where
  | known (x : EReal)
  | unknown

namespace Exact

/-- A real number as a value. -/
def real (x : ℝ) : Exact := known x

/-- An operation on two values, unknown if one of them is. -/
def combine (f : EReal → EReal → Exact) : Exact → Exact → Exact
  | known x, known y => f x y
  | _, _ => unknown

/-- The value is infinite. -/
def IsInfinite (x : EReal) : Prop := x = ⊤ ∨ x = ⊥

noncomputable instance (x : EReal) : Decidable (IsInfinite x) := Classical.propDecidable _

open Classical in
/-- The sum, unless it is one of opposite infinite values. -/
noncomputable def sum (x y : EReal) : Exact :=
  if IsInfinite x ∧ y = -x then unknown else known (x + y)

open Classical in
/-- The product, unless it is one of zero and an infinite value. -/
noncomputable def product (x y : EReal) : Exact :=
  if x = 0 ∧ IsInfinite y ∨ IsInfinite x ∧ y = 0 then unknown else known (x * y)

open Classical in
/-- The quotient, unless it is one by zero or of infinite values. -/
noncomputable def ratio (x y : EReal) : Exact :=
  if y = 0 ∨ IsInfinite x ∧ IsInfinite y then unknown else known (x / y)

/-- The square root, unless it is one of a negative value. -/
noncomputable def root (x : EReal) : Exact :=
  if x < 0 then unknown else if x = ⊤ then known ⊤ else real (√x.toReal)

/-- The number that a text stands for, exactly. -/
noncomputable def ofText? (s : String) : Option Exact := do
  let cs ← Text.prepared? s
  let (negative, body) := Text.sign cs
  let word := String.ofList (body.map Char.toLower)
  if word == "inf" || word == "infinity" then some (known (if negative then ⊥ else ⊤))
  else if word == "nan" then some unknown
  else (Text.unsigned? negative body).map fun l =>
    real ((if l.negative then -1 else 1) * l.digits * 10 ^ l.exponent)

open Classical in
noncomputable instance : Scalar Exact where
  add := combine sum
  sub := combine fun x y => sum x (-y)
  mul := combine product
  div := combine ratio
  neg
    | known x => known (-x)
    | unknown => unknown
  lt a b := ∃ x y, a = known x ∧ b = known y ∧ x < y
  le a b := ∃ x y, a = known x ∧ b = known y ∧ x ≤ y
  ofScientific m s e := real (OfScientific.ofScientific m s e)
  decLt _ _ := Classical.propDecidable _
  decLe _ _ := Classical.propDecidable _
  sqrt
    | known x => root x
    | unknown => unknown
  nan := unknown
  inf := known ⊤
  isNaN
    | known _ => false
    | unknown => true
  isFinite
    | known x => decide ¬ IsInfinite x
    | unknown => false
  floor
    | known x => ⌊x.toReal⌋
    | unknown => 0
  ofInt? n := some (real n)
  ofText? := ofText?
  isMultiple
    | known x, known y => decide (∃ k : ℤ, x = (k : ℝ) * y)
    | _, _ => false

/-! ### The order -/

@[simp]
theorem known_lt {x y : EReal} : known x < known y ↔ x < y := by
  constructor
  · rintro ⟨_, _, ⟨⟩, ⟨⟩, h⟩
    exact h
  · intro h
    exact ⟨x, y, rfl, rfl, h⟩

@[simp]
theorem known_le {x y : EReal} : known x ≤ known y ↔ x ≤ y := by
  constructor
  · rintro ⟨_, _, ⟨⟩, ⟨⟩, h⟩
    exact h
  · intro h
    exact ⟨x, y, rfl, rfl, h⟩

theorem exists_known {a : Exact} (h : Scalar.isNaN a = false) : ∃ x, a = known x := by
  cases a with
  | known x => exact ⟨x, rfl⟩
  | unknown => cases h

instance : OrderedScalar Exact where
  isNaN_nan := rfl
  isNaN_inf := rfl
  known_of_le := by
    rintro _ _ ⟨x, y, rfl, rfl, -⟩
    exact ⟨rfl, rfl⟩
  le_trans := by
    rintro _ _ c ⟨x, y, rfl, rfl, hxy⟩ hyz
    obtain ⟨_, z, ⟨⟩, rfl, hyz⟩ := hyz
    exact known_le.mpr (hxy.trans hyz)
  le_total := by
    intro a b ha hb
    obtain ⟨x, rfl⟩ := exists_known ha
    obtain ⟨y, rfl⟩ := exists_known hb
    rw [known_le, known_le]
    exact le_total x y
  lt_iff := by
    rintro (x | _) (y | _)
    · rw [known_lt, known_le, known_le]
      exact lt_iff_le_not_ge
    all_goals exact ⟨nofun, nofun⟩
  le_inf := by
    intro a ha
    obtain ⟨x, rfl⟩ := exists_known ha
    exact known_le.mpr le_top

@[simp]
theorem isFinite_inf : Scalar.isFinite (Scalar.inf : Exact) = false :=
  decide_eq_false (not_not.mpr (.inl rfl))

theorem negInf_eq : (Scalar.negInf : Exact) = known ⊥ := congrArg known EReal.neg_top

/-! ### Real numbers -/

section

variable {x y : ℝ}

theorem not_isInfinite : ¬ IsInfinite (x : EReal) :=
  not_or.mpr ⟨EReal.coe_ne_top x, EReal.coe_ne_bot x⟩

@[simp]
theorem isNaN_real : Scalar.isNaN (real x) = false := rfl

@[simp]
theorem isFinite_real : Scalar.isFinite (real x) = true := decide_eq_true not_isInfinite

/-- A finite value is a real number. -/
theorem exists_real {a : Exact} (h : Scalar.isFinite a = true) : ∃ x, a = real x := by
  cases a with
  | known x =>
    have hx : ¬ IsInfinite x := of_decide_eq_true h
    obtain ⟨htop, hbot⟩ := not_or.mp hx
    exact ⟨x.toReal, congrArg known (EReal.coe_toReal htop hbot).symm⟩
  | unknown => cases h

@[simp]
theorem real_lt : real x < real y ↔ x < y := known_lt.trans EReal.coe_lt_coe_iff

@[simp]
theorem real_le : real x ≤ real y ↔ x ≤ y := known_le.trans EReal.coe_le_coe_iff

theorem not_real_le_negInf : ¬ real x ≤ (Scalar.negInf : Exact) := by
  rw [negInf_eq]
  exact fun h => EReal.coe_ne_bot x (le_bot_iff.mp (known_le.mp h))

theorem ofScientific_eq (m : Nat) (s : Bool) (e : Nat) :
    (OfScientific.ofScientific m s e : Exact) = real (OfScientific.ofScientific m s e) := rfl

theorem zero_eq : (0.0 : Exact) = real 0 := by
  rw [ofScientific_eq]
  norm_num

theorem one_eq : (1.0 : Exact) = real 1 := by
  rw [ofScientific_eq]
  norm_num

/-- A value between two real numbers is one. -/
theorem exists_real_of_between {a : Exact} (hx : real x < a) (hy : a ≤ real y) :
    ∃ r, a = real r := by
  obtain ⟨_, z, ⟨⟩, rfl, hxz⟩ := hx
  have hzy : z ≤ y := known_le.mp hy
  lift z to ℝ using ⟨(hzy.trans_lt (EReal.coe_lt_top y)).ne, ((EReal.bot_lt_coe x).trans hxz).ne'⟩
  exact ⟨z, rfl⟩

theorem zero_lt_real : (0.0 : Exact) < real x ↔ 0 < x := by
  rw [zero_eq, real_lt]

theorem real_le_zero : real x ≤ (0.0 : Exact) ↔ x ≤ 0 := by
  rw [zero_eq, real_le]

@[simp]
theorem real_add : real x + real y = real (x + y) := by
  show sum x y = known ((x + y : ℝ) : EReal)
  rw [sum, if_neg fun h => not_isInfinite h.1, EReal.coe_add]

@[simp]
theorem neg_real : -real x = real (-x) := congrArg known (EReal.coe_neg x).symm

@[simp]
theorem real_sub : real x - real y = real (x - y) := by
  show sum x (-(y : EReal)) = known ((x - y : ℝ) : EReal)
  rw [sum, if_neg fun h => not_isInfinite h.1, EReal.coe_sub, sub_eq_add_neg]

@[simp]
theorem real_mul : real x * real y = real (x * y) := by
  show product x y = known ((x * y : ℝ) : EReal)
  have hfinite : ¬ ((x : EReal) = 0 ∧ IsInfinite (y : EReal) ∨
      IsInfinite (x : EReal) ∧ (y : EReal) = 0) :=
    fun h => h.elim (fun h => not_isInfinite h.2) fun h => not_isInfinite h.1
  rw [product, if_neg hfinite, EReal.coe_mul]

theorem real_div (hy : y ≠ 0) : real x / real y = real (x / y) := by
  show ratio x y = known ((x / y : ℝ) : EReal)
  have hfinite : ¬ ((y : EReal) = 0 ∨ IsInfinite (x : EReal) ∧ IsInfinite (y : EReal)) :=
    fun h => h.elim (fun h => hy (EReal.coe_eq_zero.mp h)) fun h => not_isInfinite h.1
  rw [ratio, if_neg hfinite, EReal.coe_div]

theorem sqrt_real (hx : 0 ≤ x) : Scalar.sqrt (real x) = real (√x) := by
  show root x = _
  rw [root, if_neg (not_lt.mpr (EReal.coe_nonneg.mpr hx)), if_neg (EReal.coe_ne_top x),
    EReal.toReal_coe]

@[simp]
theorem least_real : Scalar.least (real x) (real y) = real (min x y) := by
  unfold Scalar.least
  rcases lt_or_ge y x with h | h
  · rw [if_pos (real_lt.mpr h), min_eq_right h.le]
  · rw [if_neg (fun hlt => not_lt.mpr h (real_lt.mp hlt)), min_eq_left h]

@[simp]
theorem greatest_real : Scalar.greatest (real x) (real y) = real (max x y) := by
  unfold Scalar.greatest
  rcases lt_or_ge x y with h | h
  · rw [if_pos (real_lt.mpr h), max_eq_right h.le]
  · rw [if_neg (fun hlt => not_lt.mpr h (real_lt.mp hlt)), max_eq_left h]

@[simp]
theorem magnitude_real : Scalar.magnitude (real x) = real |x| := by
  unfold Scalar.magnitude
  rw [zero_eq]
  rcases lt_or_ge x 0 with h | h
  · rw [if_pos (real_lt.mpr h), neg_real, abs_of_neg h]
  · rw [if_neg (fun hlt => not_lt.mpr h (real_lt.mp hlt)), abs_of_nonneg h]

theorem isZero_real : Scalar.isZero (real x) = decide (x = 0) := by
  unfold Scalar.isZero
  rw [zero_eq]
  simp only [real_le]
  norm_num [le_antisymm_iff, Bool.decide_and]

theorem quotient_real (hy : y ≠ 0) :
    Scalar.quotient (real x) (real y) = .ok (real (x / y)) := by
  unfold Scalar.quotient
  rw [isZero_real, decide_eq_false hy, if_neg Bool.false_ne_true, real_div hy]

theorem power_real : Scalar.power (real x) (real y) = .ok (real y) := by
  unfold Scalar.power
  rw [isFinite_real, isFinite_real]
  rfl

@[simp]
theorem square_real : Scalar.square (real x) = .ok (real (x ^ 2)) := by
  unfold Scalar.square
  rw [real_mul, power_real, pow_two]

@[simp]
theorem cube_real : Scalar.cube (real x) = .ok (real (x ^ 3)) := by
  unfold Scalar.cube
  rw [real_mul, real_mul, power_real, pow_three']

end

/-- The order tells real numbers apart, so these are ahead. -/
instance : DirectedScalar Exact where
  Ahead a := ∃ x, a = real x
  ahead_zero := ⟨_, rfl⟩
  ahead_half := ⟨_, rfl⟩
  ahead_two := ⟨_, rfl⟩
  ahead_add := by
    rintro _ _ ⟨x, rfl⟩ ⟨y, rfl⟩
    exact ⟨x + y, real_add⟩
  ahead_mul := by
    rintro _ _ ⟨x, rfl⟩ ⟨y, rfl⟩
    exact ⟨x * y, real_mul⟩
  eq_of_le_of_le := by
    rintro _ _ ⟨x, rfl⟩ ⟨y, rfl⟩ hxy hyx
    exact congrArg real (le_antisymm (real_le.mp hxy) (real_le.mp hyx))

theorem ahead_real (x : ℝ) : DirectedScalar.Ahead (real x) := ⟨x, rfl⟩

/-! ### Signs of differences and quotients -/

theorem lt_of_sub_pos {a b : Exact} (h : (0.0 : Exact) < a - b) : b < a := by
  obtain ⟨_, d, hzero, hd, hpos⟩ := h
  have hzero' : (0 : EReal) = _ := known.inj (zero_eq.symm.trans hzero)
  rw [← hzero'] at hpos
  rcases a with x | _
  · rcases b with y | _
    · have hsum : sum x (-y) = known d := hd
      unfold sum at hsum
      split at hsum
      · cases hsum
      · cases hsum
        exact known_lt.mpr (EReal.sub_pos.mp hpos)
    · cases hd
  · cases hd

theorem pos_of_div_pos {a b : Exact} (h : (0.0 : Exact) < a / b) (hb : (0.0 : Exact) < b) :
    (0.0 : Exact) < a := by
  obtain ⟨_, q, hzero, hq, hpos⟩ := h
  obtain ⟨_, y, hzero', rfl, hy⟩ := hb
  rw [← known.inj (zero_eq.symm.trans hzero)] at hpos
  rw [← known.inj (zero_eq.symm.trans hzero')] at hy
  rcases a with x | _
  · have hratio : ratio x y = known q := hq
    unfold ratio at hratio
    split at hratio
    · cases hratio
    · cases hratio
      rw [zero_eq]
      refine known_lt.mpr (lt_of_not_ge fun hx => ?_)
      exact absurd hpos (EReal.div_nonpos_of_nonpos_of_nonneg hx hy.le).not_gt
  · cases hq

instance : ReductionScalar Exact where
  lt_of_sub_pos := lt_of_sub_pos
  pos_of_div_pos := pos_of_div_pos
  lt_inf h := by
    obtain ⟨x, rfl⟩ := exists_real h
    exact known_lt.mpr (EReal.coe_lt_top x)

end Exact

end Descent
