import Descent.Proofs.Scalar.Order
import Descent.Proofs.State.Merge
import Mathlib.Data.List.Induction

/-!
# The best cost so far, over every history

From a fresh state, whatever the changes, the best cost is the least of `inf` and the known costs
merged so far, and the other entries kept with it are those of the merge that met it
first (`BooksExact`, `booksExact_fresh`); a merge answers `true` exactly when it lowers the best
cost (`State.merge_fst_eq_true_iff_drops`).

The order of the scalars need not tell equal values apart: of two zeros of different sign, or of a
cost that is met again, the first one stays.
-/

namespace Descent

variable {R V M : Type} [Scalar R]

/-- The cost that a change merges, if it is a measured value. -/
def Change.cost? : Change R V M → Option R
  | merge d => d.measuredCost
  | advance | conclude _ => none

/-- The costs that were merged, in the order of the changes. -/
def costs (cs : List (Change R V M)) : List R := cs.filterMap Change.cost?

/-- `x` is the least of `inf` and the known values among `xs`. -/
structure IsLowest (x : R) (xs : List R) : Prop where
  mem : x = Scalar.inf ∨ x ∈ xs
  known : Scalar.isNaN x = false
  le_inf : x ≤ Scalar.inf
  le : ∀ y ∈ xs, Scalar.isNaN y = false → x ≤ y

/-- Of the costs merged by `pre`, then `d`, then `post`, the cost `x` of `d` is the least one and
was not met before. -/
structure IsRecord (pre : List (Change R V M)) (d : Delta R V M) (post : List (Change R V M))
    (x : R) : Prop where
  met : d.measuredCost = some x
  lt_inf : x < Scalar.inf
  lt_earlier : ∀ y ∈ costs pre, Scalar.isNaN y = false → x < y
  le_later : ∀ y ∈ costs post, Scalar.isNaN y = false → x ≤ y

/-- What a state keeps of its best cost. -/
structure Books (R V : Type) where
  bestCost : Value R
  bestParam : Option V
  lastBestIter : Value R
  prevBestCost : Value R

namespace State

/-- The entries of a state about its best cost. -/
def books (s : State R V M) : Books R V :=
  ⟨s.bestCost, s.bestParam, s.lastBestIter, s.prevBestCost⟩

/-! ### Changes and the best cost -/

/-- A parameter that is set stays set. -/
theorem isSome_param_change {s : State R V M} (h : s.param.isSome) (c : Change R V M) :
    (s.change c).param.isSome := by
  cases c with
  | merge d =>
    rw [change_merge, merge_param, Option.isSome_or, h, Bool.or_true]
  | advance =>
    obtain ⟨k, hk⟩ := s.change_advance
    rw [hk]
    exact h
  | conclude reason =>
    obtain ⟨r, hr⟩ := s.change_conclude reason
    rw [hr]
    exact h

/-- A change that merges no cost below the best one keeps the entries about the best cost. -/
theorem books_change_of_not_lt {s : State R V M} {c : Change R V M} {b : R}
    (hb : s.bestCost = .real b) (h : ∀ x, c.cost? = some x → ¬ x < b) :
    (s.change c).books = s.books := by
  -- only the merge of a cost below the best one changes the books
  cases c with
  | advance =>
    obtain ⟨k, hk⟩ := s.change_advance
    rw [hk]
    rfl
  | conclude reason =>
    obtain ⟨r, hr⟩ := s.change_conclude reason
    rw [hr]
    rfl
  | merge d =>
    rw [change_merge]
    cases hd : d.cost with
    | none => rw [merge_of_none hd]; rfl
    | some v =>
      cases hv : v.toReal with
      | error f => rw [merge_of_error hd hv]; rfl
      | ok x =>
        have hx : ¬ x < b := h x (Delta.measuredCost_eq_some.mpr ⟨v, hd, hv⟩)
        rw [merge_of_ok hd hv, mergeCost_of_not_lt (s := s.facing d) hb hx]
        rfl

/-- A delta whose cost lies below the best one is recorded with its parameter, at the iteration
it is merged in. -/
theorem merge_of_lt {s : State R V M} {d : Delta R V M} {b x : R} (hb : s.bestCost = .real b)
    (hx : d.measuredCost = some x) (h : x < b) :
    (s.merge d).1 = .ok true ∧
      (s.merge d).2.books = ⟨.real x, (s.merge d).2.param, s.curIter, s.bestCost⟩ := by
  obtain ⟨v, hd, hv⟩ := Delta.measuredCost_eq_some.mp hx
  rw [merge_of_ok hd hv, mergeCost_of_lt (s := s.facing d) hb h]
  exact ⟨rfl, rfl⟩

/-- A merge answers whether the cost of the delta lies below the best one, and is refused exactly
when that cost is no measured value. -/
theorem merge_fst {s : State R V M} {b : R} (hb : s.bestCost = .real b) (d : Delta R V M) :
    (s.merge d).1 =
      match d.cost with
      | none => .ok false
      | some c => c.toReal.map fun x => decide (x < b) := by
  cases hd : d.cost with
  | none => rw [merge_of_none hd]
  | some c =>
    dsimp only
    cases hc : c.toReal with
    | error f => rw [merge_of_error hd hc]; rfl
    | ok x =>
      have hbest : (s.facing d).bestCost = .real b := hb
      rw [merge_of_ok hd hc, mergeCost_fst, hbest]
      rfl

theorem merge_fst_eq_true_iff {s : State R V M} {b : R} (hb : s.bestCost = .real b)
    {d : Delta R V M} : (s.merge d).1 = .ok true ↔ ∃ x, d.measuredCost = some x ∧ x < b := by
  rw [merge_fst hb, Delta.measuredCost]
  cases d.cost with
  | none => simp
  | some c => cases h : c.toReal <;> simp [h, Except.map, Except.toOption]

theorem merge_fst_eq_error_iff {s : State R V M} {b : R} (hb : s.bestCost = .real b)
    {d : Delta R V M} {f : Fault R} :
    (s.merge d).1 = .error f ↔ ∃ c, d.cost = some c ∧ c.toReal = .error f := by
  rw [merge_fst hb]
  cases d.cost with
  | none => simp
  | some c => cases h : c.toReal <;> simp [h, Except.map]

theorem isSome_param_after {s : State R V M} (h : s.param.isSome) (cs : List (Change R V M)) :
    (s.after cs).param.isSome := by
  induction cs using List.reverseRecOn with
  | nil => exact h
  | append_singleton cs c ih =>
    rw [after_concat]
    exact isSome_param_change ih c

end State

/-! ### The record of a history -/

theorem costs_append (cs ds : List (Change R V M)) : costs (cs ++ ds) = costs cs ++ costs ds :=
  List.filterMap_append

theorem mem_costs_concat {cs : List (Change R V M)} {c : Change R V M} {y : R} :
    y ∈ costs (cs ++ [c]) ↔ y ∈ costs cs ∨ c.cost? = some y := by
  rw [costs_append, List.mem_append]
  refine or_congr_right ?_
  unfold costs
  rw [List.mem_filterMap]
  simp

variable [OrderedScalar R]

open OrderedScalar

/-- The entries about the best cost are exact for the history `cs` from `s₀`: those of a fresh
state if no cost lay below `inf`, and else those of the merge that met the least cost first. -/
def BooksExact (s₀ : State R V M) (cs : List (Change R V M)) : Prop :=
  ((∀ y ∈ costs cs, ¬ y < Scalar.inf) ∧
      (s₀.after cs).books = ⟨.real Scalar.inf, none, .int 0, .real Scalar.inf⟩) ∨
    ∃ pre d post x, cs = pre ++ .merge d :: post ∧ IsRecord pre d post x ∧
      (s₀.after cs).books =
        ⟨.real x, (s₀.after (pre ++ [.merge d])).param, (s₀.after pre).curIter,
          (s₀.after pre).bestCost⟩

theorem BooksExact.isLowest {s₀ : State R V M} {cs : List (Change R V M)}
    (h : BooksExact s₀ cs) :
    ∃ b, (s₀.after cs).bestCost = .real b ∧ IsLowest b (costs cs) := by
  rcases h with ⟨hy, hs⟩ | ⟨pre, d, post, x, rfl, hx, hs⟩
  · refine ⟨Scalar.inf, congrArg Books.bestCost hs, .inl rfl, isNaN_inf, le_refl isNaN_inf, ?_⟩
    intro y hmem hk
    exact le_of_not_lt hk isNaN_inf (hy y hmem)
  · have hk : Scalar.isNaN x = false := (known_of_lt hx.lt_inf).1
    have hd : costs (Change.merge d :: post) = x :: costs post :=
      List.filterMap_cons_some hx.met
    refine ⟨x, congrArg Books.bestCost hs, ?_, hk, le_of_lt hx.lt_inf, ?_⟩
    · right
      rw [costs_append, hd]
      simp
    · -- a cost was merged before the record, with it, or after it
      intro y hmem hy
      rw [costs_append, hd, List.mem_append, List.mem_cons] at hmem
      rcases hmem with hpre | rfl | hpost
      · exact le_of_lt (hx.lt_earlier y hpre hy)
      · exact le_refl hy
      · exact hx.le_later y hpost hy

/-- The entries stay exact over a change that merges no cost below the best one. -/
theorem BooksExact.concat_of_not_lt {s₀ : State R V M} {cs : List (Change R V M)}
    (h : BooksExact s₀ cs) {c : Change R V M} {b : R} (hb : (s₀.after cs).bestCost = .real b)
    (hc : ∀ x, c.cost? = some x → ¬ x < b) : BooksExact s₀ (cs ++ [c]) := by
  have hsame : (s₀.after (cs ++ [c])).books = (s₀.after cs).books := by
    rw [State.after_concat]
    exact State.books_change_of_not_lt hb hc
  rcases h with ⟨hy, hs⟩ | ⟨pre, d, post, x, rfl, hx, hs⟩
  · -- there is no record yet, and the change sets none
    left
    refine ⟨?_, hsame.trans hs⟩
    intro y hmem
    rcases mem_costs_concat.mp hmem with hmem | hmem
    · exact hy y hmem
    · have : b = Scalar.inf := Value.real.inj (hb.symm.trans (congrArg Books.bestCost hs))
      rw [← this]
      exact hc y hmem
  · -- the record stays where it is, and the change joins those that come after it
    right
    have hbx : b = x := Value.real.inj (hb.symm.trans (congrArg Books.bestCost hs))
    subst hbx
    refine ⟨pre, d, post ++ [c], b, by simp, ⟨hx.met, hx.lt_inf, hx.lt_earlier, ?_⟩,
      hsame.trans hs⟩
    intro y hmem hy
    rcases mem_costs_concat.mp hmem with hmem | hmem
    · exact hx.le_later y hmem hy
    · exact le_of_not_lt hy (known_of_lt hx.lt_inf).1 (hc y hmem)

/-- The entries are exact after a merge of a cost below the best one, which is a new record. -/
theorem BooksExact.concat_of_lt {s₀ : State R V M} {cs : List (Change R V M)}
    (h : BooksExact s₀ cs) {d : Delta R V M} {b x : R} (hb : (s₀.after cs).bestCost = .real b)
    (hx : d.measuredCost = some x) (hlt : x < b) : BooksExact s₀ (cs ++ [.merge d]) := by
  obtain ⟨b', hb', hlow⟩ := h.isLowest
  obtain rfl : b = b' := Value.real.inj (hb.symm.trans hb')
  right
  refine ⟨cs, d, [], x, rfl, ⟨hx, lt_of_lt_of_le hlt hlow.le_inf, ?_, by simp [costs]⟩, ?_⟩
  · intro y hmem hy
    exact lt_of_lt_of_le hlt (hlow.le y hmem hy)
  · rw [State.after_concat]
    exact (State.merge_of_lt hb hx hlt).2

/-- Whatever the changes made to a fresh state, its entries about the best cost are exact. -/
theorem booksExact_fresh (param : V) (ceiling target : Value R) (cs : List (Change R V M)) :
    BooksExact (State.fresh param ceiling target) cs := by
  -- the last change of a history sets a new record or keeps the one there is
  induction cs using List.reverseRecOn with
  | nil => exact .inl ⟨by simp [costs], rfl⟩
  | append_singleton cs c ih =>
    obtain ⟨b, hb, -⟩ := ih.isLowest
    by_cases h : ∃ x, c.cost? = some x ∧ x < b
    · obtain ⟨x, hx, hlt⟩ := h
      cases c with
      | merge d => exact ih.concat_of_lt hb hx hlt
      | advance => cases hx
      | conclude reason => cases hx
    · exact ih.concat_of_not_lt hb fun x hx hlt => h ⟨x, hx, hlt⟩

/-- A merge answers `true` exactly when the best cost strictly drops. -/
theorem State.merge_fst_eq_true_iff_drops {s : State R V M} {b : R}
    (hb : s.bestCost = .real b) (d : Delta R V M) :
    (s.merge d).1 = .ok true ↔ ∃ b', (s.merge d).2.bestCost = .real b' ∧ b' < b := by
  rw [State.merge_fst_eq_true_iff hb]
  constructor
  · rintro ⟨x, hx, hlt⟩
    exact ⟨x, congrArg Books.bestCost (State.merge_of_lt hb hx hlt).2, hlt⟩
  · -- without a cost below it the best cost is kept, and so it does not drop
    rintro ⟨b', hb', hlt⟩
    by_contra hno
    have hsame : (s.change (.merge d)).books = s.books :=
      State.books_change_of_not_lt hb fun x hx h => hno ⟨x, hx, h⟩
    have hbb : Value.real b' = .real b :=
      hb'.symm.trans ((congrArg Books.bestCost hsame).trans hb)
    rw [Value.real.inj hbb] at hlt
    exact lt_irrefl b hlt

/-- **The best cost so far is exact over every history.**  After any changes to a fresh state: the
best cost is the least of `inf` and the known costs merged; the entries kept with it are those of
the merge that met it first, the parameter being set; and the next merge answers `true` exactly
when it lowers the best cost, and is refused only for a cost that is no measured value. -/
theorem best_exact_of_fresh (param : V) (ceiling target : Value R) (cs : List (Change R V M)) :
    BooksExact (State.fresh param ceiling target) cs ∧
      ((State.fresh param ceiling target : State R V M).after cs).param.isSome ∧
      ∃ b, ((State.fresh param ceiling target : State R V M).after cs).bestCost = .real b ∧
        IsLowest b (costs cs) ∧
        ∀ d : Delta R V M,
          let merged := ((State.fresh param ceiling target).after cs).merge d
          (merged.1 = .ok true ↔ ∃ b', merged.2.bestCost = .real b' ∧ b' < b) ∧
            ∀ f, merged.1 = .error f ↔ ∃ c, d.cost = some c ∧ c.toReal = .error f := by
  have hexact := booksExact_fresh param ceiling target cs
  obtain ⟨b, hb, hlow⟩ := hexact.isLowest
  refine ⟨hexact, State.isSome_param_after rfl cs, b, hb, hlow, fun d => ⟨?_, fun f => ?_⟩⟩
  · exact State.merge_fst_eq_true_iff_drops hb d
  · exact State.merge_fst_eq_error_iff hb

/-- A history on machine floats: a cost, an unknown one, the first one again, and a lower one. -/
def floatHistory : List (Change Float Float Unit) :=
  [.merge { param := some 1.0, cost := some (.real 2.0) }, .advance,
    .merge { cost := some (.real Scalar.nan) }, .merge { param := some 3.0, cost := some (.int 2) },
    .advance, .merge { param := some 4.0, cost := some (.real 1.5) }, .conclude .converged]

theorem best_exact_of_fresh_floatHistory :
    ((State.fresh 0.0 (.int 5) (.real 0.0) : State Float Float Unit).after floatHistory).books =
        ⟨.real 1.5, some 4.0, .int 2, .real 2.0⟩ ∧
      BooksExact (State.fresh 0.0 (.int 5) (.real 0.0)) floatHistory :=
  ⟨rfl, (best_exact_of_fresh 0.0 (.int 5) (.real 0.0) floatHistory).1⟩

end Descent
