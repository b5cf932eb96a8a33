import Descent.Machine
import Descent.Scalar
import Mathlib.Algebra.Order.Ring.Int
import Mathlib.Data.Prod.Lex

/-!
# The order of the scalars

`OrderedScalar R` is what the best-so-far bookkeeping needs of comparisons: the values that are
known are in a total order with `inf` at the end, and nothing is comparable with a value that is
not known.  Two values may be equal in the order without being the same, as the two zeros are.

`DirectedScalar R` is what a search along a ray needs of its step lengths: they stay among values
that the order does tell apart.  Of machine floats these are the ones without a sign
(`Descent.Proofs.Scalar.Sign`).

A machine float is compared through its parts.  `Unpacked.rank` places the parts in a linear
order, first by kind and sign, then by exponent, then by significand, and the comparison of the
parts that stand for values is that of their ranks (`Unpacked.compare_eq`).  So machine floats are
an `OrderedScalar`.
-/

namespace Descent

/-- Scalars whose known values are in a total order. -/
class OrderedScalar (R : Type) [Scalar R] : Prop where
  isNaN_nan : Scalar.isNaN (Scalar.nan : R) = true
  isNaN_inf : Scalar.isNaN (Scalar.inf : R) = false
  /-- Only known values are compared. -/
  known_of_le {x y : R} : x ≤ y → Scalar.isNaN x = false ∧ Scalar.isNaN y = false
  le_trans {x y z : R} : x ≤ y → y ≤ z → x ≤ z
  le_total {x y : R} : Scalar.isNaN x = false → Scalar.isNaN y = false → x ≤ y ∨ y ≤ x
  lt_iff {x y : R} : x < y ↔ x ≤ y ∧ ¬ y ≤ x
  le_inf {x : R} : Scalar.isNaN x = false → x ≤ Scalar.inf

namespace OrderedScalar

variable {R : Type} [Scalar R] [OrderedScalar R] {x y z : R}

theorem le_refl (hx : Scalar.isNaN x = false) : x ≤ x := (le_total hx hx).elim id id

theorem le_of_lt (h : x < y) : x ≤ y := (lt_iff.mp h).1

theorem not_le_of_lt (h : x < y) : ¬ y ≤ x := (lt_iff.mp h).2

theorem known_of_lt (h : x < y) : Scalar.isNaN x = false ∧ Scalar.isNaN y = false :=
  known_of_le (le_of_lt h)

theorem lt_irrefl (x : R) : ¬ x < x := fun h => not_le_of_lt h (le_of_lt h)

theorem lt_of_lt_of_le (hxy : x < y) (hyz : y ≤ z) : x < z := by
  rw [lt_iff]
  refine ⟨le_trans (le_of_lt hxy) hyz, fun hzx => ?_⟩
  exact not_le_of_lt hxy (le_trans hyz hzx)

/-- Of two known values, one that does not lie below the other lies at or above it. -/
theorem le_of_not_lt (hx : Scalar.isNaN x = false) (hy : Scalar.isNaN y = false)
    (h : ¬ x < y) : y ≤ x := by
  rcases le_total hy hx with hyx | hxy
  · exact hyx
  · rw [lt_iff] at h
    exact Classical.byContradiction fun hyx => h ⟨hxy, hyx⟩

end OrderedScalar

/-- Scalars some of which are ahead: they are closed under what a search does to a step length,
and two of them that are equal in the order are the same. -/
class DirectedScalar (R : Type) [Scalar R] where
  Ahead : R → Prop
  ahead_zero : Ahead 0.0
  ahead_half : Ahead 0.5
  ahead_two : Ahead 2.0
  ahead_add {x y : R} : Ahead x → Ahead y → Ahead (x + y)
  ahead_mul {x y : R} : Ahead x → Ahead y → Ahead (x * y)
  eq_of_le_of_le {x y : R} : Ahead x → Ahead y → x ≤ y → y ≤ x → x = y

open Float.Model (UnpackedFloat)

namespace Unpacked

/-! ### Comparing the parts -/

/-- The place of a float's parts among the values. -/
def rank : UnpackedFloat → Int ×ₗ Int ×ₗ Int
  | .infinity .negative => toLex (-2, toLex (0, 0))
  | .finite .negative m e _ => toLex (-1, toLex (-e, -(m : Int)))
  | .notANumber | .zero _ => toLex (0, toLex (0, 0))
  | .finite .positive m e _ => toLex (1, toLex (e, (m : Int)))
  | .infinity .positive => toLex (2, toLex (0, 0))

private theorem compare_toLex {α β : Type} [Ord α] [Ord β] (a a' : α) (b b' : β) :
    compare (toLex (a, b)) (toLex (a', b')) = (compare a a').then (compare b b') := rfl

private theorem compare_natCast (m n : Nat) : compare (m : Int) (n : Int) = compare m n := by
  rcases Nat.lt_trichotomy m n with h | h | h
  · rw [Nat.compare_eq_lt.mpr h, Int.compare_eq_lt.mpr (by omega)]
  · rw [Nat.compare_eq_eq.mpr h, Int.compare_eq_eq.mpr (by omega)]
  · rw [Nat.compare_eq_gt.mpr h, Int.compare_eq_gt.mpr (by omega)]

private theorem compare_neg (m n : Int) : compare (-m) (-n) = (compare m n).swap := by
  rw [Int.compare_swap]
  rcases Int.lt_trichotomy m n with h | h | h
  · rw [Int.compare_eq_gt.mpr h, Int.compare_eq_gt.mpr (by omega)]
  · rw [Int.compare_eq_eq.mpr h.symm, Int.compare_eq_eq.mpr (by omega)]
  · rw [Int.compare_eq_lt.mpr h, Int.compare_eq_lt.mpr (by omega)]

/-- Parts that stand for values are compared as their ranks are. -/
theorem compare_eq {a b : UnpackedFloat} (ha : a.isNaN = false) (hb : b.isNaN = false) :
    a.compare b = some (compare (rank a) (rank b)) := by
  rcases a with ⟨_ | _⟩ | _ | _ | ⟨_ | _, m₁, e₁, h₁⟩ <;>
    rcases b with ⟨_ | _⟩ | _ | _ | ⟨_ | _, m₂, e₂, h₂⟩ <;>
    first
    | rfl
    | contradiction
    | skip
  -- only two finite values of one sign are told apart by more than their kind
  · show _ = some (compare (toLex (_, toLex (_, _))) (toLex (_, toLex (_, _))))
    rw [compare_toLex, compare_toLex, compare_neg e₁ e₂, compare_neg (m₁ : Int) m₂,
      compare_natCast, ← Ordering.swap_then]
    rfl
  · show _ = some (compare (toLex (_, toLex (_, _))) (toLex (_, toLex (_, _))))
    rw [compare_toLex, compare_toLex, compare_natCast]
    rfl

/-- What is of a lesser kind lies below. -/
theorem toLex_lt_of_lt {m n : Int} {p q : Int ×ₗ Int} (h : m < n) :
    toLex (m, p) < toLex (n, q) :=
  Prod.Lex.toLex_lt_toLex.mpr (.inl h)

theorem compare_of_isNaN {a b : UnpackedFloat} (h : ¬ (a.isNaN = false ∧ b.isNaN = false)) :
    a.compare b = none := by
  rcases a with ⟨_ | _⟩ | _ | _ | ⟨_ | _⟩ <;> rcases b with _ | _ | _ | _ <;>
    first
    | rfl
    | exact absurd ⟨rfl, rfl⟩ h

theorem le_iff {a b : UnpackedFloat} :
    a.le b ↔ (a.isNaN = false ∧ b.isNaN = false) ∧ rank a ≤ rank b := by
  unfold UnpackedFloat.le
  by_cases h : a.isNaN = false ∧ b.isNaN = false
  · rw [compare_eq h.1 h.2, ← compare_le_iff_le, Option.any_some, Ordering.isLE_iff_ne_gt]
    exact (and_iff_right h).symm
  · rw [compare_of_isNaN h]
    simp [h]

theorem lt_iff {a b : UnpackedFloat} :
    a.lt b ↔ (a.isNaN = false ∧ b.isNaN = false) ∧ rank a < rank b := by
  unfold UnpackedFloat.lt
  by_cases h : a.isNaN = false ∧ b.isNaN = false
  · rw [compare_eq h.1 h.2, ← compare_lt_iff_lt, beq_iff_eq, Option.some_inj]
    exact (and_iff_right h).symm
  · rw [compare_of_isNaN h]
    simp [h]

end Unpacked

/-! ### Comparing machine floats -/

namespace Machine

/-- The place of a machine float among the values. -/
def rank (x : Float) : Int ×ₗ Int ×ₗ Int := Unpacked.rank x.toModel.unpack

theorem le_iff_rank {x y : Float} :
    x ≤ y ↔ (x.isNaN = false ∧ y.isNaN = false) ∧ rank x ≤ rank y := by
  have h : x ≤ y ↔ decide (x.toModel.unpack.le y.toModel.unpack = true) = true := Iff.rfl
  rw [h, decide_eq_true_iff, Unpacked.le_iff]
  rfl

theorem lt_iff_rank {x y : Float} :
    x < y ↔ (x.isNaN = false ∧ y.isNaN = false) ∧ rank x < rank y := by
  have h : x < y ↔ decide (x.toModel.unpack.lt y.toModel.unpack = true) = true := Iff.rfl
  rw [h, decide_eq_true_iff, Unpacked.lt_iff]
  rfl

/-- No parts are placed above those of the infinite float. -/
theorem rank_le_inf (x : Float) : rank x ≤ rank (Scalar.inf : Float) := by
  have hinf : rank (Scalar.inf : Float) = toLex (2, toLex (0, 0)) := by decide +kernel
  rw [hinf, rank]
  rcases x.toModel.unpack with ⟨_ | _⟩ | _ | _ | ⟨_ | _, m, e, h⟩ <;>
    first
    | exact le_refl _
    | exact (Unpacked.toLex_lt_of_lt (by decide)).le

end Machine

instance instOrderedScalarFloat : OrderedScalar Float where
  isNaN_nan := by decide +kernel
  isNaN_inf := by decide +kernel
  known_of_le h := (Machine.le_iff_rank.mp h).1
  le_trans hxy hyz := by
    rw [Machine.le_iff_rank] at hxy hyz ⊢
    exact ⟨⟨hxy.1.1, hyz.1.2⟩, hxy.2.trans hyz.2⟩
  le_total hx hy := by
    rw [Machine.le_iff_rank, Machine.le_iff_rank]
    exact (le_total _ _).imp (fun h => ⟨⟨hx, hy⟩, h⟩) (fun h => ⟨⟨hy, hx⟩, h⟩)
  lt_iff {x y} := by
    rw [Machine.lt_iff_rank, Machine.le_iff_rank, Machine.le_iff_rank]
    constructor
    · rintro ⟨hk, hr⟩
      exact ⟨⟨hk, hr.le⟩, fun h => not_lt_of_ge h.2 hr⟩
    · rintro ⟨⟨hk, -⟩, hn⟩
      exact ⟨hk, lt_of_not_ge fun h => hn ⟨⟨hk.2, hk.1⟩, h⟩⟩
  le_inf {x} hx := by
    rw [Machine.le_iff_rank]
    exact ⟨⟨hx, by decide +kernel⟩, Machine.rank_le_inf x⟩

end Descent
