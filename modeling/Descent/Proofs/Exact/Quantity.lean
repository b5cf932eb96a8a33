import Descent.Proofs.Exact.Scalar
import Descent.Quantity

/-!
# Quantities that are real numbers

In exact arithmetic an integer and a measured value that is finite both stand for a real number
(`Value.Denotes`).  Whichever kind each of them is, what is computed of such quantities stands for
what is computed of the real numbers.
-/

namespace Descent

open Exact

/-! ### Numbers -/

/-- The number stands for a real one. -/
def Number.Denotes : Number Exact → ℝ → Prop
  | .int n, r => (n : ℝ) = r
  | .real x, r => x = Exact.real r

namespace Number

variable {m k : Number Exact} {r s : ℝ}

theorem Denotes.toReal (h : m.Denotes r) : m.toReal = .ok (Exact.real r) := by
  cases m with
  | int n => exact congrArg (fun r => Except.ok (Exact.real r)) h
  | real x => exact congrArg Except.ok h

theorem Denotes.combine {whole : ℤ → ℤ → ℤ} {measured : Exact → Exact → Exact} {f : ℝ → ℝ → ℝ}
    (hwhole : ∀ i j : ℤ, (whole i j : ℝ) = f i j)
    (hmeasured : ∀ x y : ℝ, measured (Exact.real x) (Exact.real y) = Exact.real (f x y))
    (hm : m.Denotes r) (hk : k.Denotes s) :
    ∃ l, combine whole measured m k = .ok l ∧ l.Denotes (f r s) := by
  cases m with
  | int i =>
    cases k with
    | int j =>
      -- two integers are combined as such, without rounding
      have hi : (i : ℝ) = r := hm
      have hj : (j : ℝ) = s := hk
      refine ⟨.int (whole i j), rfl, ?_⟩
      rw [← hi, ← hj]
      exact hwhole i j
    | real y =>
      refine ⟨.real (measured (Exact.real r) (Exact.real s)), ?_, hmeasured r s⟩
      rw [Number.combine, hm.toReal, hk.toReal]
      · rfl
      · exact nofun
  | real x =>
    refine ⟨.real (measured (Exact.real r) (Exact.real s)), ?_, hmeasured r s⟩
    rw [Number.combine, hm.toReal, hk.toReal]
    · rfl
    · exact nofun

theorem floor_real (r : ℝ) : Scalar.floor (Exact.real r) = ⌊r⌋ :=
  congrArg Int.floor (EReal.toReal_coe r)

/-- A positive number is not at or below zero. -/
theorem Denotes.le_zero (hm : m.Denotes r) (hr : 0 < r) : m.le (.int 0) = false := by
  cases m with
  | int n =>
    have hn : (n : ℝ) = r := hm
    rw [← hn, Int.cast_pos] at hr
    exact decide_eq_false (not_le.mpr hr)
  | real x =>
    have hx : x = Exact.real r := hm
    have hof : Scalar.ofInt? (R := Exact) 0 = some (Exact.real 0) :=
      congrArg (fun r => some (Exact.real r)) Int.cast_zero
    have hfloor : ¬ ⌊r⌋ < 0 := not_lt.mpr (Int.floor_nonneg.mpr hr.le)
    subst hx
    show realLeInt (Exact.real r) 0 = false
    rw [realLeInt, if_pos isFinite_real, floor_real, hof, decide_eq_false hfloor, Bool.false_or]
    dsimp only
    rw [decide_eq_false (real_le.not.mpr (not_le.mpr hr)), Bool.and_false]

end Number

/-! ### Values -/

namespace Value

/-- The value stands for a real number. -/
def Denotes (v : Value Exact) (r : ℝ) : Prop := ∃ m, v.number? = some m ∧ m.Denotes r

variable {v w : Value Exact} {r s : ℝ}

theorem denotes_real (r : ℝ) : (Value.real (Exact.real r)).Denotes r := ⟨_, rfl, rfl⟩

theorem denotes_ofNumber {m : Number Exact} (h : m.Denotes r) : (ofNumber m).Denotes r := by
  cases m with
  | int n => exact ⟨_, rfl, h⟩
  | real x => exact ⟨_, rfl, h⟩

theorem Denotes.combineBy {symbol : String} {g : Number Exact → Number Exact →
    Except (Fault Exact) (Number Exact)} {f : ℝ → ℝ → ℝ}
    (hg : ∀ m k, m.Denotes r → k.Denotes s → ∃ l, g m k = .ok l ∧ l.Denotes (f r s))
    (hv : v.Denotes r) (hw : w.Denotes s) :
    ∃ u, combineBy symbol g v w = .ok u ∧ u.Denotes (f r s) := by
  obtain ⟨m, hvm, hm⟩ := hv
  obtain ⟨k, hwk, hk⟩ := hw
  obtain ⟨l, hl, hdenotes⟩ := hg m k hm hk
  refine ⟨ofNumber l, ?_, denotes_ofNumber hdenotes⟩
  unfold Value.combineBy
  rw [hvm, hwk]
  dsimp only
  rw [hl]
  rfl

theorem Denotes.add (hv : v.Denotes r) (hw : w.Denotes s) :
    ∃ u, v.add w = .ok u ∧ u.Denotes (r + s) :=
  hv.combineBy (fun _ _ => Number.Denotes.combine Int.cast_add fun _ _ => real_add) hw

theorem Denotes.sub (hv : v.Denotes r) (hw : w.Denotes s) :
    ∃ u, v.sub w = .ok u ∧ u.Denotes (r - s) :=
  hv.combineBy (fun _ _ => Number.Denotes.combine Int.cast_sub fun _ _ => real_sub) hw

theorem Denotes.mul (hv : v.Denotes r) (hw : w.Denotes s) :
    ∃ u, v.mul w = .ok u ∧ u.Denotes (r * s) :=
  hv.combineBy (fun _ _ => Number.Denotes.combine Int.cast_mul fun _ _ => real_mul) hw

theorem Denotes.toReal (h : v.Denotes r) : v.toReal = .ok (Exact.real r) := by
  obtain ⟨m, hvm, hm⟩ := h
  unfold Value.toReal
  split
  · rename_i hn
    rw [hvm] at hn
    cases hn
    exact hm.toReal
  · cases hvm
  · rename_i hn
    rw [hvm] at hn
    cases hn

theorem Denotes.measured (h : v.Denotes r) : v.measured = .ok (Exact.real r) := by
  obtain ⟨m, hvm, hm⟩ := h
  unfold Value.measured
  rw [hvm]
  exact hm.toReal

/-- A positive quantity is not at or below zero. -/
theorem Denotes.le_zero (h : v.Denotes r) (hr : 0 < r) : v.le (.int 0) = .ok false := by
  obtain ⟨m, hvm, hm⟩ := h
  have hcompare : v.le (.int 0) = .ok (m.le (.int 0)) := by
    unfold Value.le compareBy
    split
    · cases ‹Value.int 0 = Value.text _›
    · rw [hvm]
      rfl
  rw [hcompare, hm.le_zero hr]

end Value

end Descent
