import Descent.Document.State
import Descent.Json.Printer
import Descent.Proofs.Scalar.Sign

/-!
# Measured values in documents

A measured value is written so that it is read back as it was, whether it is finite or not
(`Document.toReal_ofReal`), and what is written is a number to the schema and finite to the
printer.  Of the values a document may hold, `Document.standsForReal` tells those that are read as
a measured value at all.
-/

namespace Descent

namespace Machine

/-- There is one machine float that is not a number. -/
theorem eq_nan_of_isNaN {x : Float} (h : x.isNaN = true) : x = 0.0 / 0.0 := by
  have hx : x.toModel.unpack.isNaN = true := h
  refine eq_of_unpack_eq ?_
  have hnan : (0.0 / 0.0 : Float).toModel.unpack = .notANumber := by rfl
  rw [hnan]
  cases hu : x.toModel.unpack with
  | notANumber => rfl
  | infinity | zero | finite => rw [hu] at hx; cases hx

/-- The machine floats that are numbers and not finite are the two infinite ones. -/
theorem eq_infinite_of_not_isFinite {x : Float} (hnan : x.isNaN = false)
    (hfinite : x.isFinite = false) : x = Binary.infinite (decide (x < 0.0)) := by
  have hn : x.toModel.unpack.isNaN = false := hnan
  have hf : x.toModel.unpack.isFinite = false := hfinite
  -- the sign of an infinite number is seen by comparing it with zero
  have hrank : (x < 0.0) ↔ rank x < toLex (0, toLex (0, 0)) := by
    rw [lt_iff_rank, rank_zero]
    exact and_iff_right ⟨hnan, by decide +kernel⟩
  refine eq_of_unpack_eq ?_
  cases hu : x.toModel.unpack with
  | notANumber => rw [hu] at hn; cases hn
  | zero | finite => rw [hu] at hf; cases hf
  | infinity s =>
    rw [rank, hu] at hrank
    cases s with
    | negative =>
      rw [decide_eq_true (hrank.mpr (Unpacked.toLex_lt_of_lt (by decide)))]
      rfl
    | positive =>
      have hnot : ¬ x < 0.0 := fun h =>
        not_lt_of_gt (hrank.mp h) (Unpacked.toLex_lt_of_lt (by decide))
      rw [decide_eq_false hnot]
      rfl

end Machine

namespace Document

theorem toReal_int (n : Int) :
    (Value.int n : Document).toReal =
      (Binary.ofInt? n).elim (.error (.outOfRange .integerRange)) .ok := by
  have hof : (Scalar.ofInt? n : Option Float) = Binary.ofInt? n := rfl
  show Number.toReal (.int n) = _
  unfold Number.toReal
  simp only [hof]
  cases Binary.ofInt? n <;> rfl

theorem toReal_text (s : String) :
    (Value.text s : Document).toReal =
      (Text.measured? s).elim (.error (.wrongValue (.unreadable s))) .ok := by
  have hof : (Scalar.ofText? s : Option Float) = Text.measured? s := rfl
  unfold Value.toReal
  simp only [Value.number?, hof]
  cases Text.measured? s <;> rfl

/-! ### Writing and reading back -/

/-- A measured value is written as itself or as the word for it. -/
theorem ofReal_cases (x : Float) :
    (x.isFinite = true ∧ ofReal x = .real x) ∨
      ∃ s, s ∈ Schema.specialWords ∧ ofReal x = .text s ∧ Text.measured? s = some x := by
  unfold ofReal
  by_cases hnan : x.isNaN = true
  · -- one of the three special numbers, each with its word
    right
    rw [if_pos hnan, Machine.eq_nan_of_isNaN hnan]
    exact ⟨"nan", by decide, rfl, by decide +kernel⟩
  · rw [if_neg hnan]
    by_cases hfinite : x.isFinite = true
    · left
      rw [if_pos hfinite]
      exact ⟨hfinite, rfl⟩
    · right
      rw [if_neg hfinite]
      have hx := Machine.eq_infinite_of_not_isFinite (Bool.eq_false_iff.mpr hnan)
        (Bool.eq_false_iff.mpr hfinite)
      by_cases hlt : x < 0.0
      · rw [decide_eq_true hlt] at hx
        rw [if_pos hlt, hx]
        exact ⟨"-inf", by decide, rfl, by decide +kernel⟩
      · rw [decide_eq_false hlt] at hx
        rw [if_neg hlt, hx]
        exact ⟨"inf", by decide, rfl, by decide +kernel⟩

theorem toReal_ofReal (x : Float) : (ofReal x).toReal = .ok x := by
  rcases ofReal_cases x with ⟨-, h⟩ | ⟨s, -, h, hs⟩
  · rw [h]
    rfl
  · rw [h, toReal_text, hs]
    rfl

theorem isNumber_ofReal (x : Float) : Schema.isNumber (ofReal x) = true := by
  rcases ofReal_cases x with ⟨-, h⟩ | ⟨s, hs, h, -⟩
  · rw [h]
    rfl
  · rw [h]
    exact List.contains_iff_mem.mpr hs

theorem isStrict_ofReal (x : Float) : Json.isStrict (ofReal x) = true := by
  rcases ofReal_cases x with ⟨hx, h⟩ | ⟨s, -, h, -⟩
  · rw [h]
    exact hx
  · rw [h]
    rfl

/-- No measured value is written as nothing. -/
theorem ofReal_ne_null (x : Float) : ofReal x ≠ .null := by
  rcases ofReal_cases x with ⟨-, h⟩ | ⟨s, -, h, -⟩ <;> rw [h] <;> nofun

/-! ### What is read as a measured value -/

/-- Whether a value is read as a measured value: a truth value, a number in range, or a text that
stands for one. -/
def standsForReal : Document → Bool
  | .bool _ | .real _ => true
  | .int n => (Binary.ofInt? n).isSome
  | .text s => (Text.measured? s).isSome
  | .null | .list _ | .object _ => false

/-- A value is read exactly if it stands for a measured value. -/
theorem exists_toReal {v : Document} : (∃ x, v.toReal = .ok x) ↔ standsForReal v = true := by
  cases v with
  | bool b =>
    refine iff_of_true ?_ rfl
    cases b
    · exact ⟨0.0, rfl⟩
    · exact ⟨1.0, rfl⟩
  | real x => exact iff_of_true ⟨x, rfl⟩ rfl
  | int n =>
    rw [toReal_int, standsForReal]
    cases Binary.ofInt? n <;> simp
  | text s =>
    rw [toReal_text, standsForReal]
    cases Text.measured? s <;> simp
  | null | list | object => exact iff_of_false nofun nofun

end Document

end Descent
