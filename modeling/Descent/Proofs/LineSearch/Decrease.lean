import Descent.Method.Basic
import Descent.Proofs.Exact.Surface
import Descent.Proofs.LineSearch.Faithful

/-!
# What a line search settles on

In exact arithmetic a search down a line settles on a step length at which the objective has
decreased sufficiently (`Profile.Decreases`), so that this is not above its value at the origin, or
it has run out of trials (`Method.RunsOut`), in one of three ways.  All trials of a backtracking
search were rejected, and the next length in line is taken untested.  All trials of a strong Wolfe
search were accepted as far as the decrease goes and fell off too steeply still, and the next length
in line is taken untested, too.  Or the first trial of such a search was rejected and so was every
middle between it and the origin, and the last middle is taken although it was rejected.

What a zoom keeps is `Wolfe.Bracket.Stands`: the lower end of its bracket decreases the objective
sufficiently unless it is the origin, and in that case the upper end has come down from the first
trial by halvings that were all rejected.
-/

open scoped RealInnerProductSpace

namespace Descent

open Act (Triple Yields)
open Exact

/-- The value falls by the fraction `c` at least of what the slope at the origin promises. -/
def Profile.Decreases (φ : Profile) (c α : ℝ) : Prop :=
  φ.value α ≤ φ.value 0 + c * α * φ.slope 0

theorem Profile.Decreases.le {φ : Profile} {c α : ℝ} (h : φ.Decreases c α) (hc : 0 < c)
    (hα : 0 < α) (hslope : φ.slope 0 ≤ 0) : φ.value α ≤ φ.value 0 := by
  have hfalls : c * α * φ.slope 0 ≤ 0 := mul_nonpos_of_nonneg_of_nonpos (mul_pos hc hα).le hslope
  exact h.trans (add_le_of_nonpos_right hfalls)

/-- Where the value has not fallen below the one at the origin, it has not decreased sufficiently
down a slope. -/
theorem Profile.not_decreases_of_le {φ : Profile} {c α : ℝ} (hc : 0 < c) (hα : 0 < α)
    (hslope : φ.slope 0 < 0) (h : φ.value 0 ≤ φ.value α) : ¬ φ.Decreases c α := by
  have hfalls : c * α * φ.slope 0 < 0 := mul_neg_of_pos_of_neg (mul_pos hc hα) hslope
  unfold Decreases
  linarith

/-- The step length is positive, and the value has decreased sufficiently there. -/
def StepLength.Down {V : Type} (φ : Profile) (c : ℝ) (step : StepLength Exact V) : Prop :=
  ∃ α, step.alpha = real α ∧ 0 < α ∧ φ.Decreases c α

variable {n : ℕ} {σ : Type} {f : Surface n} {x d : Vec n} {op : Operator Exact (Vec n) (Mat n) σ}

/-! ### Backtracking -/

namespace Backtracking

/-- A search whose constants are real numbers. -/
noncomputable abbrev ofReal (α₀ ρ c : ℝ) (maxIter : Int) : Backtracking Exact :=
  ⟨real α₀, real ρ, real c, maxIter⟩

variable {α₀ ρ c : ℝ} {maxIter : Int}

theorem isSufficient_iff {φ : Profile} {α : ℝ} :
    (ofReal α₀ ρ c maxIter).isSufficient (real (φ.value 0)) (real (φ.slope 0)) (real α)
      (real (φ.value α)) = true ↔ φ.Decreases c α := by
  unfold isSufficient
  rw [decide_eq_true_iff, real_mul, real_mul, real_add, real_le]
  rfl

theorem real_shrunk (α₀ ρ : ℝ) (k : ℕ) :
    real (α₀ * ρ ^ k) * real ρ = real (α₀ * ρ ^ (k + 1)) := by
  rw [real_mul, mul_assoc, ← pow_succ]

/-- The search settles on a decrease, or takes the length after all trials, which were rejected. -/
theorem yields_trials_real (hop : op.Follows f.landscape) (hα₀ : 0 < α₀) (hρ : 0 < ρ) (N : ℕ) :
    Yields (Probe.Faithful f.landscape (some x) d)
      ((ofReal α₀ ρ c maxIter).trials op (some x) d (real ((f.profile x d).value 0))
        (real ((f.profile x d).slope 0)) N (real α₀))
      (fun step => step.Down (f.profile x d) c ∨ step.alpha = real (α₀ * ρ ^ N) ∧
        ∀ j < N, ¬ (f.profile x d).Decreases c (α₀ * ρ ^ j)) := by
  refine (triple_trials (J := fun k alpha t => (alpha = real (α₀ * ρ ^ k) ∧
      ∀ j < k, ¬ (f.profile x d).Decreases c (α₀ * ρ ^ j)) ∧ t.Faithful f.landscape (some x) d)
    (fun t ht => ⟨⟨?_, nofun⟩, ht⟩) (fun k _ alpha => Triple.assume ?_) ?_).yields
  · rw [pow_zero, mul_one]
  · rintro ⟨rfl, hrejected⟩
    refine (Surface.yields_cost hop).triple.post ?_
    rintro _ t ⟨rfl, ht⟩
    split
    next hmet =>
      exact ⟨.inl ⟨_, rfl, mul_pos hα₀ (pow_pos hρ k), isSufficient_iff.mp hmet⟩, ht⟩
    next hnot =>
      -- the trial is rejected, too
      have hrejected' : ∀ j < k + 1, ¬ (f.profile x d).Decreases c (α₀ * ρ ^ j) :=
        Nat.forall_lt_succ_right.mpr ⟨hrejected, fun h => hnot (isSufficient_iff.mpr h)⟩
      exact ⟨⟨real_shrunk α₀ ρ k, hrejected'⟩, ht⟩
  · rintro _ t ⟨⟨rfl, hrejected⟩, ht⟩
    exact ⟨.inr ⟨rfl, hrejected⟩, ht⟩

theorem yields_search_real (hop : op.Follows f.landscape) (hα₀ : 0 < α₀) (hρ : 0 < ρ)
    {s : State Exact (Vec n) (Mat n)} (hs : f.Placed x s) :
    Yields (fun _ => True) ((ofReal α₀ ρ c maxIter).search op d s)
      (fun step => step.Down (f.profile x d) c ∨ step.alpha = real (α₀ * ρ ^ maxIter.toNat) ∧
        ∀ j < maxIter.toNat, ¬ (f.profile x d).Decreases c (α₀ * ρ ^ j)) := by
  have htrials : Yields (Probe.Faithful f.landscape (some x) d)
      ((ofReal α₀ ρ c maxIter).trials op (some x) d (real ((f.profile x d).value 0))
        (real ((f.profile x d).slope 0)) maxIter.toNat (real α₀)) _ :=
    yields_trials_real hop hα₀ hρ maxIter.toNat
  rw [Surface.profile_value_zero] at htrials
  unfold search
  refine hs.yields_current.bind fun current hcurrent => ?_
  subst hcurrent
  refine (Yields.lift _).bind fun slope hslope => ?_
  cases (Surface.innerWith_gradient f x d).symm.trans hslope
  rw [hs.param]
  exact LineSearch.yields_along htrials

end Backtracking

/-! ### The strong Wolfe search -/

namespace Wolfe

/-- A search whose constants are real numbers. -/
noncomputable abbrev ofReal (α₀ c₁ c₂ : ℝ) (maxIter : Int) : Wolfe Exact :=
  ⟨real α₀, real c₁, real c₂, maxIter⟩

/-- The line of a search on which the profile is met, where the gradient at the origin is `g`. -/
noncomputable def lineOf (φ : Profile) (x d g : Vec n) : Line Exact (Vec n) where
  origin := some x
  direction := d
  cost := real (φ.value 0)
  grad := some g
  slope := real (φ.slope 0)

/-- The line down a surface from a point. -/
noncomputable def downFrom (f : Surface n) (x d : Vec n) : Line Exact (Vec n) where
  origin := some x
  direction := d
  cost := real ((f.profile x d).value 0)
  grad := some (f.gradient x)
  slope := real ((f.profile x d).slope 0)

variable {α₀ c₁ c₂ : ℝ} {maxIter : Int} {φ : Profile}

theorem tooHigh_lineOf_iff {α : ℝ} {g : Vec n} :
    (ofReal α₀ c₁ c₂ maxIter).tooHigh (lineOf φ x d g) (real α) (real (φ.value α)) = true ↔
      ¬ φ.Decreases c₁ α := by
  unfold tooHigh lineOf Profile.Decreases
  rw [decide_eq_true_iff, real_mul, real_mul, real_add, real_lt, not_le]

theorem flatEnough_lineOf_iff {slope : ℝ} {g : Vec n} :
    (ofReal α₀ c₁ c₂ maxIter).flatEnough (lineOf φ x d g) (real slope) = true ↔
      |slope| ≤ -c₂ * φ.slope 0 := by
  unfold flatEnough lineOf
  rw [decide_eq_true_iff, magnitude_real, neg_real, real_mul, real_le]

theorem tooHigh_iff {α : ℝ} :
    (ofReal α₀ c₁ c₂ maxIter).tooHigh (downFrom f x d) (real α) (real ((f.profile x d).value α)) =
      true ↔ ¬ (f.profile x d).Decreases c₁ α :=
  tooHigh_lineOf_iff

theorem flatEnough_iff {slope : ℝ} :
    (ofReal α₀ c₁ c₂ maxIter).flatEnough (downFrom f x d) (real slope) = true ↔
      |slope| ≤ -c₂ * (f.profile x d).slope 0 :=
  flatEnough_lineOf_iff

/-- A step length at which the value decreases sufficiently was taken further: beside its cost
there are a gradient and its slope. -/
inductive Taken (φ : Profile) (d : Vec n) (c₁ α : ℝ) : Exact → Option (Vec n) × Exact → Prop
  | intro {g : Vec n} (hdecreases : φ.Decreases c₁ α) (hslope : ⟪g, d⟫ = φ.slope α) :
      Taken φ d c₁ α (real (φ.value α)) (some g, real (φ.slope α))

/-- A step length whose cost is not too high is taken further. -/
theorem triple_slopeAt_real (hop : op.Follows f.landscape) {trial : Exact} {other : Bool}
    (hnot : ¬ ((ofReal α₀ c₁ c₂ maxIter).tooHigh (downFrom f x d) (real α) trial || other) =
      true) :
    Triple (fun t => trial = real ((f.profile x d).value α) ∧
        t.Faithful f.landscape (some x) d) (fun _ => True)
      (slopeAt op (downFrom f x d) (real α)) fun m t =>
        Taken (f.profile x d) d c₁ α trial m ∧ t.Faithful f.landscape (some x) d := by
  refine Triple.assume ?_
  rintro rfl
  rw [Bool.or_eq_true, tooHigh_iff, not_or, not_not] at hnot
  have hslope : Yields (Probe.Faithful f.landscape (some x) d)
      (slopeAt op (downFrom f x d) (real α))
      fun m => m = (some (f.gradient (x + α • d)), real ((f.profile x d).slope α)) := by
    unfold slopeAt
    refine (Surface.yields_gradient hop).bind ?_
    rintro _ rfl
    refine (Yields.lift _).bind fun slope hslope => Yields.pure ?_
    cases hslope
    rfl
  refine hslope.triple.post ?_
  rintro _ t ⟨rfl, ht⟩
  exact ⟨.intro hnot.1 rfl, ht⟩

/-! #### Brackets -/

/-- A zoom from the origin gave up: the first trial was rejected and so were the middles between it
and the origin, until the last of the passes or until the bracket had become too narrow. -/
structure GaveUp (φ : Profile) (α₀ c₁ : ℝ) (passes : ℕ) : Prop where
  one_le : 1 ≤ passes
  le_limit : passes ≤ zoomPasses
  narrow : passes < zoomPasses → α₀ / 2 ^ passes < 1e-12
  rejected : ∀ j ≤ passes, ¬ φ.Decreases c₁ (α₀ / 2 ^ j)

/-- What a zoom keeps of its bracket over `j` passes. -/
structure Bracket.Stands (φ : Profile) (α₀ c₁ : ℝ) (j : ℕ) (lo hi low : ℝ) : Prop where
  lower : 0 ≤ lo
  upper : 0 ≤ hi
  decreases : 0 < lo → φ.Decreases c₁ lo
  halved : lo = 0 → low = φ.value 0 ∧ hi = α₀ / 2 ^ j ∧ ∀ i ≤ j, ¬ φ.Decreases c₁ (α₀ / 2 ^ i)

namespace Bracket.Stands

variable {j : ℕ} {lo hi low : ℝ} (h : Stands φ α₀ c₁ j lo hi low)

include h

theorem middle_pos (hα₀ : 0 < α₀) : 0 < 0.5 * (lo + hi) := by
  have hsum : 0 < lo + hi := by
    rcases h.lower.eq_or_lt' with hzero | hpos
    · obtain ⟨-, hhalf, -⟩ := h.halved hzero
      rw [hzero, hhalf, zero_add]
      exact div_pos hα₀ (pow_pos two_pos j)
    · exact add_pos_of_pos_of_nonneg hpos h.upper
  exact mul_pos (by norm_num) hsum

/-- A middle that is rejected becomes the upper end. -/
theorem reject (hα₀ : 0 < α₀) (hc₁ : 0 < c₁) (hslope : φ.slope 0 < 0)
    (hmiddle : ¬ φ.Decreases c₁ (0.5 * (lo + hi)) ∨ low ≤ φ.value (0.5 * (lo + hi))) :
    Stands φ α₀ c₁ (j + 1) lo (0.5 * (lo + hi)) low where
  lower := h.lower
  upper := (h.middle_pos hα₀).le
  decreases := h.decreases
  halved hzero := by
    obtain ⟨hlow, hhi, hrejected⟩ := h.halved hzero
    have hmiddle_eq : 0.5 * (lo + hi) = α₀ / 2 ^ (j + 1) := by
      rw [hzero, hhi, zero_add, pow_succ]
      ring
    -- a middle that is no lower than the origin has not decreased sufficiently either
    have hnot : ¬ φ.Decreases c₁ (0.5 * (lo + hi)) := by
      rcases hmiddle with hnot | hle
      · exact hnot
      · exact Profile.not_decreases_of_le hc₁ (h.middle_pos hα₀) hslope (hlow ▸ hle)
    refine ⟨hlow, hmiddle_eq, fun i hi => ?_⟩
    rcases Nat.lt_or_eq_of_le hi with hlt | rfl
    · exact hrejected i (Nat.le_of_lt_succ hlt)
    · rwa [← hmiddle_eq]

omit h in
/-- A step length that is accepted becomes the lower end. -/
theorem of_decreases {α low : ℝ} (hα : 0 < α) (hhi : 0 ≤ hi) (hdecreases : φ.Decreases c₁ α) :
    Stands φ α₀ c₁ j α hi low where
  lower := hα.le
  upper := hhi
  decreases _ := hdecreases
  halved hzero := absurd hzero hα.ne'

end Bracket.Stands

/-- A bracket of real numbers stands after `j` passes. -/
def Bracket.StandsAfter (φ : Profile) (α₀ c₁ : ℝ) (j : ℕ) (b : Bracket Exact) : Prop :=
  ∃ lo hi low, b = ⟨real lo, real hi, real low⟩ ∧ Stands φ α₀ c₁ j lo hi low

/-- The step length tried last is the upper end as long as the lower one is the origin. -/
def Bracket.Tried (b : Bracket Exact) (tried : StepLength Exact (Vec n)) : Prop :=
  b.alo = real 0 → tried.alpha = b.ahi

/-- A zoom ends in a decrease, or it has given up. -/
inductive Zoomed (φ : Profile) (α₀ c₁ : ℝ) (step : StepLength Exact (Vec n)) : Prop
  | down (h : step.Down φ c₁)
  | gaveUp {passes : ℕ} (halpha : step.alpha = real (α₀ / 2 ^ passes))
      (h : GaveUp φ α₀ c₁ passes)

theorem Bracket.middle_real (lo hi low : ℝ) :
    (⟨real lo, real hi, real low⟩ : Bracket Exact).middle = real (0.5 * (lo + hi)) := by
  unfold middle
  dsimp only
  rw [real_add, ofScientific_eq, real_mul]

section

variable (hop : op.Follows f.landscape) (hα₀ : 0 < α₀) (hc₁ : 0 < c₁)
  (hslope : (f.profile x d).slope 0 < 0)

include hop hα₀ hc₁ hslope

/-- A pass accepts a decrease, or keeps how its bracket stands. -/
theorem triple_pass_real {j : ℕ} {lo hi low : ℝ}
    (h : Bracket.Stands (f.profile x d) α₀ c₁ j lo hi low) :
    Triple (Probe.Faithful f.landscape (some x) d) (fun _ => True)
      ((ofReal α₀ c₁ c₂ maxIter).pass op (downFrom f x d) ⟨real lo, real hi, real low⟩)
      (Pass.Leads (fun step t => step.Down (f.profile x d) c₁ ∧ t.Faithful f.landscape (some x) d)
        fun b tried t => (b.StandsAfter (f.profile x d) α₀ c₁ (j + 1) ∧
          t.Faithful f.landscape (some x) d) ∧ b.Tried tried) := by
  have hpos := h.middle_pos hα₀
  refine triple_pass (G := fun trial m t => Taken (f.profile x d) d c₁ (0.5 * (lo + hi)) trial m ∧
      t.Faithful f.landscape (some x) d)
    (Bracket.middle_real lo hi low) (Surface.yields_cost hop).triple ?_ ?_ ?_ ?_
  · rintro _ t ⟨rfl, ht⟩ hhigh
    rw [Bool.or_eq_true, tooHigh_iff, decide_eq_true_iff, real_le] at hhigh
    exact ⟨⟨⟨_, _, _, rfl, h.reject hα₀ hc₁ hslope hhigh⟩, ht⟩, fun _ => rfl⟩
  · exact fun trial hnot => triple_slopeAt_real hop hnot
  · rintro _ _ _ t ⟨⟨hdecreases, -⟩, ht⟩ -
    exact ⟨⟨_, rfl, hpos, hdecreases⟩, ht⟩
  · rintro _ _ _ t ⟨⟨hdecreases, -⟩, ht⟩ -
    -- the other end is one of the two there were
    obtain ⟨hi', hhi', hend⟩ : ∃ hi', 0 ≤ hi' ∧
        (if 0.0 ≤ real ((f.profile x d).slope (0.5 * (lo + hi))) * (real hi - real lo) then real lo
          else real hi) = real hi' := by
      split
      · exact ⟨lo, h.lower, rfl⟩
      · exact ⟨hi, h.upper, rfl⟩
    refine ⟨⟨⟨_, hi', _, congrArg (Bracket.mk _ · _) hend, .of_decreases hpos hhi' hdecreases⟩, ht⟩,
      fun hzero => ?_⟩
    exact absurd (real_injective hzero) hpos.ne'

omit hop hα₀ hc₁ hslope in
/-- A zoom that has come to its last pass, or to a bracket that is too narrow, settles for the lower
end or has given up. -/
theorem yields_settle_real {I : Probe Exact (Vec n) σ → Prop} {j : ℕ} {lo hi low : ℝ}
    {tried : StepLength Exact (Vec n)} (h : Bracket.Stands φ α₀ c₁ j lo hi low)
    (htried : lo = 0 → tried.alpha = real hi) (hj : 1 ≤ j) (hlimit : j ≤ zoomPasses)
    (hnarrow : j < zoomPasses → |hi - lo| < 1e-12) :
    Yields I (settle ⟨real lo, real hi, real low⟩ tried : Act Exact (Probe Exact (Vec n) σ) _)
      (Zoomed φ α₀ c₁) := by
  refine Yields.ite (fun hpos => ?_) fun hnot => Yields.pure ?_
  · rw [zero_lt_real] at hpos
    refine Yields.bind (P := fun _ => True) (fun _ _ _ hI hrun => ?_) fun p _ =>
      Yields.pure (.down ⟨lo, rfl, hpos, h.decreases hpos⟩)
    cases hrun
    exact ⟨⟨⟩, hI⟩
  · rw [zero_lt_real, not_lt] at hnot
    have hzero : lo = 0 := le_antisymm hnot h.lower
    obtain ⟨-, hhi, hrejected⟩ := h.halved hzero
    refine .gaveUp (hhi ▸ htried hzero) ⟨hj, hlimit, fun hlt => ?_, hrejected⟩
    have hwidth := hnarrow hlt
    rw [hzero, sub_zero, abs_of_nonneg h.upper] at hwidth
    exact hhi ▸ hwidth

/-- A zoom keeps how its bracket stands until it ends. -/
theorem yields_zoomInto_real {b : Bracket Exact}
    (h : b.StandsAfter (f.profile x d) α₀ c₁ 0) :
    Yields (Probe.Faithful f.landscape (some x) d)
      ((ofReal α₀ c₁ c₂ maxIter).zoomInto op (downFrom f x d) b)
      (Zoomed (f.profile x d) α₀ c₁) := by
  refine (triple_zoomInto (J := fun j b t => b.StandsAfter (f.profile x d) α₀ c₁ j ∧
      t.Faithful f.landscape (some x) d)
    (T := fun b tried _ => b.Tried tried) (fun t ht => ⟨h, ht⟩) ?_ ?_).yields
  · refine fun j _ b => Triple.assume ?_
    rintro ⟨lo, hi, low, rfl, h⟩
    refine (triple_pass_real hop hα₀ hc₁ hslope h).post fun pass t hpass => ?_
    cases pass with
    | accepted step => exact ⟨.down hpass.1, hpass.2⟩
    | narrowed b tried => exact hpass
  · rintro j _ tried hj hlimit hends t ⟨⟨⟨lo, hi, low, rfl, h⟩, ht⟩, htried⟩
    refine (yields_settle_real h (fun hzero => htried (congrArg real hzero)) hj hlimit ?_).triple t
      ht
    intro hlt
    have hnarrow := hends.resolve_left hlt.ne
    rwa [real_sub, magnitude_real, ofScientific_eq, real_lt] at hnarrow

end

/-! #### Trials -/

/-- The trials before the `k`-th were accepted as far as the decrease goes, and fell off too steeply
still. -/
structure Falling (φ : Profile) (α₀ c₁ c₂ : ℝ) (k : ℕ) : Prop where
  decreases : ∀ j < k, φ.Decreases c₁ (α₀ * 2 ^ j)
  steep : ∀ j < k, φ.slope (α₀ * 2 ^ j) < c₂ * φ.slope 0

namespace Falling

variable {k : ℕ}

theorem start : Falling φ α₀ c₁ c₂ 0 := ⟨nofun, nofun⟩

theorem next (h : Falling φ α₀ c₁ c₂ k) (hdecreases : φ.Decreases c₁ (α₀ * 2 ^ k))
    (hsteep : φ.slope (α₀ * 2 ^ k) < c₂ * φ.slope 0) : Falling φ α₀ c₁ c₂ (k + 1) where
  decreases := Nat.forall_lt_succ_right.mpr ⟨h.decreases, hdecreases⟩
  steep := Nat.forall_lt_succ_right.mpr ⟨h.steep, hsteep⟩

end Falling

/-- Where a search stands before its `k`-th trial. -/
structure Trying (φ : Profile) (α₀ c₁ c₂ : ℝ) (k : ℕ) (first : Bool) (previous before : ℝ) :
    Prop where
  falling : Falling φ α₀ c₁ c₂ k
  opening : first = true → k = 0 ∧ previous = 0 ∧ before = φ.value 0
  later : first = false → 0 < previous ∧ φ.Decreases c₁ previous

namespace Trying

variable {k : ℕ} {first : Bool} {previous before : ℝ}

theorem start : Trying φ α₀ c₁ c₂ 0 true 0 (φ.value 0) := ⟨.start, fun _ => ⟨rfl, rfl, rfl⟩, nofun⟩

variable (h : Trying φ α₀ c₁ c₂ k first previous before)

include h

theorem previous_nonneg : 0 ≤ previous := by
  cases first with
  | true => exact (h.opening rfl).2.1.ge
  | false => exact (h.later rfl).1.le

/-- A trial is the upper end of a bracket if it is not accepted, be it that this is the first one
and it was rejected or that there was one before it. -/
theorem bracket (hα₀ : 0 < α₀) (hnot : ¬ φ.Decreases c₁ (α₀ * 2 ^ k) ∨ first = false) :
    Bracket.Stands φ α₀ c₁ 0 previous (α₀ * 2 ^ k) before := by
  have hupper : 0 ≤ α₀ * 2 ^ k := (mul_pos hα₀ (pow_pos two_pos k)).le
  cases first with
  | true =>
    obtain ⟨rfl, rfl, rfl⟩ := h.opening rfl
    have hrejected : ¬ φ.Decreases c₁ (α₀ * 2 ^ 0) := hnot.resolve_right Bool.noConfusion
    refine ⟨le_rfl, hupper, fun hpos => absurd hpos (lt_irrefl 0), fun _ => ?_⟩
    refine ⟨rfl, ?_, fun i hi => ?_⟩
    · rw [pow_zero, mul_one, div_one]
    · obtain rfl := Nat.le_zero.mp hi
      rwa [pow_zero, mul_one, ← div_one α₀, ← pow_zero 2] at hrejected
  | false =>
    obtain ⟨hpos, hdecreases⟩ := h.later rfl
    exact .of_decreases hpos hupper hdecreases

/-- After a trial that decreases the value and falls off too steeply the next one is due. -/
theorem next (hα₀ : 0 < α₀) (hdecreases : φ.Decreases c₁ (α₀ * 2 ^ k))
    (hsteep : φ.slope (α₀ * 2 ^ k) < c₂ * φ.slope 0) (value : ℝ) :
    Trying φ α₀ c₁ c₂ (k + 1) false (α₀ * 2 ^ k) value where
  falling := h.falling.next hdecreases hsteep
  opening := nofun
  later _ := ⟨mul_pos hα₀ (pow_pos two_pos k), hdecreases⟩

end Trying

/-- A search ends as a zoom does, or its trials have fallen off too steeply to the last. -/
inductive Searched (φ : Profile) (α₀ c₁ c₂ : ℝ) (trials : ℕ) (step : StepLength Exact (Vec n)) :
    Prop
  | zoomed (h : Zoomed φ α₀ c₁ step)
  | falling (halpha : step.alpha = real (α₀ * 2 ^ trials)) (h : Falling φ α₀ c₁ c₂ trials)

/-- A slope that is not flat enough and does not rise falls off too steeply. -/
theorem steep_of_not_flat {slope m : ℝ} (hflat : ¬ |slope| ≤ -c₂ * m) (hfalls : slope < 0) :
    slope < c₂ * m := by
  rw [abs_of_neg hfalls, not_le] at hflat
  linarith

theorem real_doubled (α₀ : ℝ) (k : ℕ) : real (α₀ * 2 ^ k) * 2.0 = real (α₀ * 2 ^ (k + 1)) := by
  rw [ofScientific_eq, real_mul, pow_succ, mul_assoc]
  norm_num

/-- The search ends in a zoom, with a decrease, or with the length after all trials. -/
theorem yields_trials_real (hop : op.Follows f.landscape) (hα₀ : 0 < α₀) (hc₁ : 0 < c₁)
    (hslope : (f.profile x d).slope 0 < 0) (N : ℕ) :
    Yields (Probe.Faithful f.landscape (some x) d)
      ((ofReal α₀ c₁ c₂ maxIter).trials op (downFrom f x d) N true (real 0)
        (real ((f.profile x d).value 0)) (real α₀))
      (Searched (f.profile x d) α₀ c₁ c₂ N) := by
  refine (triple_trials (J := fun k first previous costBefore alpha t =>
      (∃ prev before, previous = real prev ∧ costBefore = real before ∧
        alpha = real (α₀ * 2 ^ k) ∧ Trying (f.profile x d) α₀ c₁ c₂ k first prev before) ∧
      t.Faithful f.landscape (some x) d)
    (B := fun b t => b.StandsAfter (f.profile x d) α₀ c₁ 0 ∧ t.Faithful f.landscape (some x) d)
    (fun t ht => ⟨⟨0, _, rfl, rfl, ?_, .start⟩, ht⟩) ?_ ?_ ?_).yields
  · rw [pow_zero, mul_one]
  · refine fun k _ first previous costBefore alpha => Triple.assume ?_
    rintro ⟨prev, before, rfl, rfl, rfl, h⟩
    have hpos : 0 < α₀ * 2 ^ k := mul_pos hα₀ (pow_pos two_pos k)
    refine triple_trial (G := fun trial m t => Taken (f.profile x d) d c₁ (α₀ * 2 ^ k) trial m ∧
        t.Faithful f.landscape (some x) d)
      (Surface.yields_cost hop).triple ?_ ?_ ?_ ?_ ?_
    · rintro _ t ⟨rfl, ht⟩ hhigh
      -- either the cost there is too high, or there was a trial before it
      have hrejected : ¬ (f.profile x d).Decreases c₁ (α₀ * 2 ^ k) ∨ first = false := by
        rw [Bool.or_eq_true, tooHigh_iff, Bool.and_eq_true, Bool.not_eq_true'] at hhigh
        exact hhigh.imp id And.left
      exact ⟨⟨_, _, _, rfl, h.bracket hα₀ hrejected⟩, ht⟩
    · exact fun trial hnot => triple_slopeAt_real hop hnot
    · rintro _ _ _ t ⟨⟨hdecreases, -⟩, ht⟩ -
      exact ⟨.zoomed (.down ⟨_, rfl, hpos, hdecreases⟩), ht⟩
    · -- the slope rises here, so there is a minimum between this trial and the one before
      rintro _ _ _ t ⟨⟨hdecreases, -⟩, ht⟩ - -
      exact ⟨⟨_, _, _, rfl, .of_decreases hpos h.previous_nonneg hdecreases⟩, ht⟩
    · -- it still falls: the next trial is twice as long
      rintro _ _ _ t ⟨⟨hdecreases, -⟩, ht⟩ hflat hfalls
      rw [flatEnough_iff] at hflat
      rw [zero_eq, real_le, not_le] at hfalls
      exact ⟨⟨_, _, rfl, rfl, real_doubled α₀ k,
        h.next hα₀ hdecreases (steep_of_not_flat hflat hfalls) _⟩, ht⟩
  · rintro first previous costBefore _ t ⟨⟨prev, before, -, -, rfl, h⟩, ht⟩
    exact ⟨.falling rfl h.falling, ht⟩
  · refine fun b => Triple.assume fun h => ?_
    refine (yields_zoomInto_real hop hα₀ hc₁ hslope h).triple.post fun step t ht => ?_
    exact ⟨.zoomed ht.1, ht.2⟩

/-- The search refuses a direction that does not lead down. -/
theorem yields_search_real (hop : op.Follows f.landscape) (hα₀ : 0 < α₀) (hc₁ : 0 < c₁)
    {s : State Exact (Vec n) (Mat n)} (hs : f.Placed x s) :
    Yields (fun _ => True) ((ofReal α₀ c₁ c₂ maxIter).search op d s)
      (Searched (f.profile x d) α₀ c₁ c₂ maxIter.toNat) := by
  unfold search
  refine hs.yields_current.bind fun current hcurrent => ?_
  subst hcurrent
  refine (Yields.lift _).bind fun slope hslope => ?_
  cases (Surface.innerWith_gradient f x d).symm.trans hslope
  refine Yields.ite (fun _ => (Yields.throw _).bind fun _ h => False.elim h) fun hdown => ?_
  rw [zero_eq, real_le, not_le] at hdown
  have htrials : Yields (Probe.Faithful f.landscape (some x) d)
      ((ofReal α₀ c₁ c₂ maxIter).trials op (downFrom f x d) maxIter.toNat true (real 0)
        (real ((f.profile x d).value 0)) (real α₀)) _ :=
    yields_trials_real hop hα₀ hc₁ hdown maxIter.toNat
  rw [downFrom, Surface.profile_value_zero] at htrials
  rw [hs.param, zero_eq]
  exact LineSearch.yields_along htrials

end Wolfe

/-! ### Whole searches -/

namespace Method

/-- A line search with constants that are real numbers in the ranges that its constructor
accepts. -/
inductive Admissible : Method Exact (Vec n) (Mat n) → Prop
  | backtracking {α₀ ρ c : ℝ} (hα₀ : 0 < α₀) (hρ : 0 < ρ ∧ ρ < 1) (hc : 0 < c ∧ c < 1)
      (maxIter : Int) : Admissible (.backtracking (.ofReal α₀ ρ c maxIter))
  | wolfe {α₀ c₁ c₂ : ℝ} (hα₀ : 0 < α₀) (hc₁ : 0 < c₁) (horder : c₁ < c₂) (hc₂ : c₂ < 1)
      (maxIter : Int) : Admissible (.wolfe (.ofReal α₀ c₁ c₂ maxIter))

/-- The ways in which a line search runs out of trials, and the step length that it takes then.  In
`backtracking` and `gaveUp`, and in `falling` without any trials, the search is made to take it, as
it has found nothing better.  `falling` after a trial passes over a length that it had accepted. -/
inductive RunsOut (φ : Profile) : Method Exact (Vec n) (Mat n) → ℝ → Prop
  /-- All trials were rejected, and the next length in line is taken. -/
  | backtracking {α₀ ρ c : ℝ} {maxIter : Int}
      (h : ∀ k < maxIter.toNat, ¬ φ.Decreases c (α₀ * ρ ^ k)) :
      RunsOut φ (.backtracking (.ofReal α₀ ρ c maxIter)) (α₀ * ρ ^ maxIter.toNat)
  /-- All trials fell off too steeply, and the next length in line is taken.  It is untested, while
  the last trial, if there was one, decreased the value sufficiently: at this exit a good step is
  given up (`Wolfe.decreases_of_search`). -/
  | falling {α₀ c₁ c₂ : ℝ} {maxIter : Int} (h : Wolfe.Falling φ α₀ c₁ c₂ maxIter.toNat) :
      RunsOut φ (.wolfe (.ofReal α₀ c₁ c₂ maxIter)) (α₀ * 2 ^ maxIter.toNat)
  /-- The first trial was rejected and so were the middles before it, and the last one is taken. -/
  | gaveUp {α₀ c₁ c₂ : ℝ} {maxIter : Int} {passes : ℕ} (h : Wolfe.GaveUp φ α₀ c₁ passes) :
      RunsOut φ (.wolfe (.ofReal α₀ c₁ c₂ maxIter)) (α₀ / 2 ^ passes)

/-- A search down a surface settles on a step length that does not lead up, or it has run out of
trials. -/
def Settles (f : Surface n) (line : Method Exact (Vec n) (Mat n)) (x d : Vec n)
    (step : StepLength Exact (Vec n)) : Prop :=
  ∃ α, step.alpha = real α ∧ 0 < α ∧
    (f.value (x + α • d) ≤ f.value x ∨ line.RunsOut (f.profile x d) α)

variable {line : Method Exact (Vec n) (Mat n)} {s : State Exact (Vec n) (Mat n)}

theorem settles_of_down {step : StepLength Exact (Vec n)} {c : ℝ} (hc : 0 < c)
    (hslope : ⟪f.gradient x, d⟫ ≤ 0) (h : step.Down (f.profile x d) c) :
    line.Settles f x d step := by
  obtain ⟨α, halpha, hα, hdecreases⟩ := h
  have hle := hdecreases.le hc hα ((f.profile_slope_zero x d).trans_le hslope)
  rw [Surface.profile_value_zero] at hle
  exact ⟨α, halpha, hα, .inl hle⟩

/-- Wherever a state stands on a surface, an admissible search along a direction of no rise
settles. -/
theorem Admissible.yields_search (hline : line.Admissible) (hop : op.Follows f.landscape)
    (hs : f.Placed x s) (hslope : ⟪f.gradient x, d⟫ ≤ 0) :
    Yields (fun _ => True) ((line.lineSearch op).search d s) (line.Settles f x d) := by
  cases hline with
  | backtracking hα₀ hρ hc maxIter =>
    refine (Backtracking.yields_search_real hop hα₀ hρ.1 hs).imp fun step hstep => ?_
    rcases hstep with hdown | ⟨halpha, hrejected⟩
    · exact settles_of_down hc.1 hslope hdown
    · exact ⟨_, halpha, mul_pos hα₀ (pow_pos hρ.1 _), .inr (.backtracking hrejected)⟩
  | wolfe hα₀ hc₁ horder hc₂ maxIter =>
    refine (Wolfe.yields_search_real hop hα₀ hc₁ hs).imp fun step hstep => ?_
    cases hstep with
    | zoomed hzoomed =>
      cases hzoomed with
      | down hdown => exact settles_of_down hc₁ hslope hdown
      | gaveUp halpha hgaveUp =>
        exact ⟨_, halpha, div_pos hα₀ (pow_pos two_pos _), .inr (.gaveUp hgaveUp)⟩
    | falling halpha hfalling =>
      exact ⟨_, halpha, mul_pos hα₀ (pow_pos two_pos _), .inr (.falling hfalling)⟩

end Method

end Descent
