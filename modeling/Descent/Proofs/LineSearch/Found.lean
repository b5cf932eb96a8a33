import Descent.Proofs.LineSearch.Best
import Descent.Proofs.LineSearch.Tried

/-!
# What a strong Wolfe search has found

In exact arithmetic the step length that a strong Wolfe search returns tells what it found, by what
is returned with it (`Wolfe.search_found`).

* With a gradient comes the best of the trials that decrease the objective sufficiently.  It is flat
  enough, too, unless the zoom ran to its end (`Wolfe.Spent`).
* With a cost and no gradient comes a trial that was rejected, and so were all others.
* With neither comes the length after all trials, untested.  They all decreased the objective
  sufficiently and fell off too steeply still.

In the last case a search that has found a sufficient decrease gives it up for a step length that it
has not tried, which may lead up (`Wolfe.decreases_of_search_hollows`).  This is the only case in
which it does (`Wolfe.decreases_of_search`).

What is returned is `Wolfe.Found`, shown of the zoom from pass to pass (`Wolfe.succeeds_pass`) and
of the search from trial to trial (`Wolfe.succeeds_trial`).
-/

open scoped RealInnerProductSpace

namespace Descent

open Act (Succeeds Triple)
open Exact

variable {n : ℕ} {M σ : Type} {op : Operator Exact (Vec n) M σ} {x d g : Vec n} {φ : Profile}
  {s : State Exact (Vec n) M} {opening : List (Vec n)}

/-! ### Two hollows -/

namespace Surface

/-- The coordinate of a point of the line. -/
noncomputable def coordinate (x : Vec 1) : ℝ := ∑ i, x i

/-- The direction in which the coordinate grows. -/
noncomputable def onward : Vec 1 := ∑ i, EuclideanSpace.single i 1

theorem coordinate_onward (α : ℝ) : coordinate (0 + α • onward) = α := by
  simp [coordinate, onward]

theorem inner_onward (m : ℝ) : ⟪m • onward, onward⟫ = m := by
  simp [onward, inner_smul_left]

/-- Two hollows of one shape, the second one further down a slope. -/
noncomputable def hollows : Surface 1 where
  value x := 10.0 * coordinate x ^ 2 * (coordinate x - 1) ^ 2 - coordinate x
  gradient x :=
    (20.0 * coordinate x * (coordinate x - 1) * (2.0 * coordinate x - 1) - 1) • onward
  hessian x := (120.0 * coordinate x ^ 2 - 120.0 * coordinate x + 20.0) • 1
  symmetric _ := Matrix.IsSymm.smul Matrix.isSymm_one _

/-- The state in the first hollow. -/
noncomputable def inFirst : State Exact (Vec 1) (Mat 1) where
  param := some 0
  cost := .real (real (hollows.value 0))
  grad := some (hollows.gradient 0)

theorem hollows_value (α : ℝ) :
    (hollows.profile 0 onward).value α = 10 * α ^ 2 * (α - 1) ^ 2 - α := by
  unfold profile hollows
  dsimp only
  rw [coordinate_onward]
  norm_num

theorem hollows_slope (α : ℝ) :
    (hollows.profile 0 onward).slope α = 20 * α * (α - 1) * (2 * α - 1) - 1 := by
  unfold profile hollows incline
  dsimp only
  rw [coordinate_onward, inner_onward]
  norm_num

theorem hollows_slope_zero : (hollows.profile 0 onward).slope 0 < 0 := by
  rw [hollows_slope]
  norm_num

theorem hollows_decreases_iff (α : ℝ) : (hollows.profile 0 onward).Decreases 1e-4 α ↔
    10 * α ^ 2 * (α - 1) ^ 2 ≤ (1 - 1e-4) * α := by
  unfold Profile.Decreases
  rw [hollows_value, hollows_value, hollows_slope]
  constructor <;> intro h <;> linarith

theorem seen_inFirst : (hollows.profile 0 onward).Seen hollows.operator 0 onward inFirst [] :=
  Placed.seen ⟨rfl, rfl, rfl⟩

/-- The second hollow is a sufficient decrease, and the slope is as steep there as in the first. -/
theorem falls_hollows : Wolfe.Falls (hollows.profile 0 onward) 1 1e-4 0.9 1 := by
  refine Wolfe.Falls.start.next ?_ ?_ fun h => absurd rfl h
  · rw [hollows_decreases_iff]
    norm_num
  · rw [hollows_slope, hollows_slope]
    norm_num

end Surface

namespace Wolfe

variable {α₀ c₁ c₂ α lo hi : ℝ} {maxIter : Int} {k : ℕ} {S middles : List ℝ}

/-! ### Outcomes -/

/-- The trials `T` led to a zoom that made all its passes, or to a bracket that is too narrow. -/
inductive Spent (α₀ : ℝ) : List ℝ → Prop
  | intro {k : ℕ} {middles : List ℝ} (hmiddles : middles ≠ [])
      (hbelow : ∀ m ∈ middles, m < α₀ * 2 ^ k)
      (hends : middles.length = zoomPasses ∨
        (α₀ * 2 ^ k - behind α₀ k) / 2 ^ middles.length < 1e-12) :
      Spent α₀ (doublings α₀ (k + 1) ++ middles)

/-- What a search of `N` trials at most returns after the trials `T`. -/
inductive Found (φ : Profile) (d : Vec n) (α₀ c₁ c₂ : ℝ) (N : ℕ) (T : List ℝ) :
    StepLength Exact (Vec n) → Prop
  | decreased {S : List ℝ} {α : ℝ} {g : Vec n} (hpos : 0 < α) (hbest : Best φ c₁ T S α)
      (hslope : ⟪g, d⟫ = φ.slope α) (hflat : |φ.slope α| ≤ c₂ * |φ.slope 0| ∨ Spent α₀ T)
      (hends : ¬ Falls φ α₀ c₁ c₂ N) :
      Found φ d α₀ c₁ c₂ N T ⟨real α, some (real (φ.value α)), some g⟩
  | rejected {α : ℝ} (hpos : 0 < α) (hnone : ∀ β ∈ T, ¬ φ.Decreases c₁ β)
      (hends : ¬ Falls φ α₀ c₁ c₂ N) :
      Found φ d α₀ c₁ c₂ N T ⟨real α, some (real (φ.value α)), none⟩
  | ranOut (htrials : T = doublings α₀ N) (hfalls : Falls φ α₀ c₁ c₂ N) :
      Found φ d α₀ c₁ c₂ N T ⟨real (α₀ * 2 ^ N), none, none⟩

/-- After `j` passes a zoom into the bracket that the `k`-th trial closed has come to this one. -/
def Bracket.Reached (φ : Profile) (x d : Vec n) (opening : List (Vec n)) (α₀ c₁ : ℝ) (k j : ℕ)
    (b : Bracket Exact) (p : Probe Exact (Vec n) (σ × List (Evaluation Exact (Vec n) M))) : Prop :=
  ∃ middles S lo hi, (middles.length = j ∧ b = ⟨real lo, real hi, real (φ.value lo)⟩ ∧
    Zooming φ α₀ c₁ k middles S lo hi) ∧ p.Met φ x d opening (doublings α₀ (k + 1) ++ middles) S

/-- As long as the lower end is the origin, the step length tried last was rejected. -/
def Bracket.Rejected (φ : Profile) (b : Bracket Exact) (tried : StepLength Exact (Vec n)) : Prop :=
  b.alo = real 0 → ∃ α, 0 < α ∧ tried = ⟨real α, some (real (φ.value α)), none⟩

/-- Where a search stands before its `k`-th trial, when none of those before has ended it. -/
structure Due (φ : Profile) (α₀ c₁ c₂ : ℝ) (k : ℕ) (first : Bool)
    (previous costBefore alpha : Exact) : Prop where
  first : first = (k == 0)
  previous : previous = real (behind α₀ k)
  costBefore : costBefore = real (φ.value (behind α₀ k))
  alpha : alpha = real (α₀ * 2 ^ k)
  best : Best φ c₁ (doublings α₀ k) (doublings α₀ k) (behind α₀ k)
  falls : Falls φ α₀ c₁ c₂ k

/-- A search has found something after some trials. -/
def Finds (φ : Profile) (x d : Vec n) (opening : List (Vec n)) (α₀ c₁ c₂ : ℝ) (N : ℕ)
    (step : StepLength Exact (Vec n))
    (p : Probe Exact (Vec n) (σ × List (Evaluation Exact (Vec n) M))) : Prop :=
  ∃ T S, Found φ d α₀ c₁ c₂ N T step ∧ p.Met φ x d opening T S

/-! ### Passes -/

/-- The slope where the gradient is known. -/
theorem succeeds_slopeOf {υ : Type} {I : Probe Exact (Vec n) υ → Prop} {v : Vec n} {m : ℝ}
    (hv : ⟪v, d⟫ = m) :
    Succeeds I (slopeOf (lineOf φ x d g) (some v)) fun slope p => slope = real m ∧ I p := by
  have hslope : Space.innerWith (some g) (some v) d = .ok (real m) := by rw [← hv]; rfl
  refine (Triple.lift ?_).post fun slope p hp => ⟨?_, hp.2⟩
  · exact hslope ▸ Act.Raises.ok _
  · exact (Except.ok.inj (hslope.symm.trans hp.1)).symm

theorem flat_iff (hslope : φ.slope 0 < 0) {m : ℝ} :
    (ofReal α₀ c₁ c₂ maxIter).flatEnough (lineOf φ x d g) (real m) = true ↔
      |m| ≤ c₂ * |φ.slope 0| := by
  rw [flatEnough_lineOf_iff, abs_of_neg hslope, mul_neg, neg_mul]

/-- A trial is rejected if it does not decrease the value sufficiently, or not below the one
before. -/
theorem rejects_iff {before : ℝ} :
    ((ofReal α₀ c₁ c₂ maxIter).tooHigh (lineOf φ x d g) (real α) (real (φ.value α)) ||
        !(k == 0) && decide (real before ≤ real (φ.value α))) = true ↔
      ¬ φ.Decreases c₁ α ∨ k ≠ 0 ∧ before ≤ φ.value α := by
  simp only [Bool.or_eq_true, tooHigh_lineOf_iff, Bool.and_eq_true, Bool.not_eq_true',
    beq_eq_false_iff_ne, decide_eq_true_iff, real_le]

section

variable (hseen : φ.Seen op x d s opening)

include hseen

/-- At a new step length the slope is taken. -/
theorem succeeds_slopeAt {T S : List ℝ} (hpos : 0 < α) (hnew : α ∉ S) :
    Succeeds (Probe.Met φ x d opening T S) (slopeAt op.recorded (lineOf φ x d g) (real α))
      fun m p => (∃ v, m = (some v, real (φ.slope α)) ∧ ⟪v, d⟫ = φ.slope α) ∧
        p.Met φ x d opening T (S ++ [α]) := by
  unfold slopeAt
  refine (Probe.succeeds_gradient (hseen.slope_ahead _ hpos) hnew).bind fun grad =>
    Triple.assume ?_
  rintro ⟨v, rfl, hv⟩
  refine (succeeds_slopeOf hv).bind fun slope => Triple.assume ?_
  rintro rfl
  exact .pure fun p hp => ⟨⟨v, rfl, hv⟩, hp⟩

variable {N : ℕ} (hα₀ : 0 < α₀) (hslope : φ.slope 0 < 0) (hends : ¬ Falls φ α₀ c₁ c₂ N)

include hα₀ hslope hends

/-- A pass tries the middle, and accepts it or narrows the bracket. -/
theorem succeeds_pass (h : Zooming φ α₀ c₁ k middles S lo hi) :
    Succeeds (Probe.Met φ x d opening (doublings α₀ (k + 1) ++ middles) S)
      ((ofReal α₀ c₁ c₂ maxIter).pass op.recorded (lineOf φ x d g)
        ⟨real lo, real hi, real (φ.value lo)⟩)
      (Pass.Leads (Finds φ x d opening α₀ c₁ c₂ N) fun b tried p =>
        b.Reached φ x d opening α₀ c₁ k (middles.length + 1) p ∧ b.Rejected φ tried) := by
  have hpos := h.halved.middle_pos hα₀
  have hnew := h.halved.middle_not_mem hα₀
  have hlength : (middles ++ [0.5 * (lo + hi)]).length = middles.length + 1 := by simp
  refine triple_pass (G := fun trial m p => (Taken φ d c₁ (0.5 * (lo + hi)) trial m ∧
      φ.value (0.5 * (lo + hi)) ≤ φ.value lo) ∧ p.Met φ x d opening
        (doublings α₀ (k + 1) ++ (middles ++ [0.5 * (lo + hi)])) (S ++ [0.5 * (lo + hi)]))
    (Bracket.middle_real lo hi _) (Probe.succeeds_cost (hseen.value_ahead _ hpos) hnew) ?_ ?_ ?_ ?_
  · rintro _ p ⟨rfl, hp⟩ hhigh
    rw [Bool.or_eq_true, tooHigh_lineOf_iff, decide_eq_true_iff, real_le] at hhigh
    rw [List.append_assoc] at hp
    refine ⟨⟨_, S, lo, _, ⟨hlength, rfl, h.reject hα₀ hhigh⟩, hp⟩, fun _ => ⟨_, hpos, ?_⟩⟩
    -- the slope is taken at trials only, so not yet at this one
    rw [hp.knows.untaken _ fun hmem => hnew (h.best.taken hmem)]
    rfl
  · refine fun trial hnot => Triple.assume ?_
    rintro rfl
    rw [Bool.or_eq_true, tooHigh_lineOf_iff, decide_eq_true_iff, real_le, not_or, not_not,
      not_le] at hnot
    refine (succeeds_slopeAt hseen hpos fun hmem => hnew (h.best.taken hmem)).post ?_
    rintro _ p ⟨⟨v, rfl, hv⟩, hp⟩
    rw [List.append_assoc] at hp
    exact ⟨⟨.intro hnot.1 hv, hnot.2.le⟩, hp⟩
  · rintro _ _ _ p ⟨⟨⟨hdecreases, hv⟩, hle⟩, hp⟩ hflat
    rw [flat_iff hslope] at hflat
    have hbest := h.best.accept hpos hdecreases hle
    rw [List.append_assoc] at hbest
    exact ⟨_, _, .decreased hpos hbest hv (.inl hflat) hends, hp⟩
  · rintro _ _ _ p ⟨⟨⟨hdecreases, -⟩, hle⟩, hp⟩ -
    -- the other end is one of the two there were
    obtain ⟨hi', hhi', hend⟩ : ∃ hi', (hi' = lo ∨ hi' = hi) ∧
        (if 0.0 ≤ real (φ.slope (0.5 * (lo + hi))) * (real hi - real lo) then real lo
          else real hi) = real hi' := by
      split
      · exact ⟨lo, .inl rfl, rfl⟩
      · exact ⟨hi, .inr rfl, rfl⟩
    refine ⟨⟨_, _, _, hi', ⟨hlength, congrArg (Bracket.mk _ · _) hend,
      h.accept hα₀ hdecreases hle hhi'⟩, hp⟩, fun hzero => ?_⟩
    exact absurd (real_injective hzero) hpos.ne'

variable (hc₁ : 0 < c₁)

include hc₁

omit hseen hα₀ in
/-- A zoom that has come to its end settles for the best trial, or for one that was rejected. -/
theorem succeeds_settle {tried : StepLength Exact (Vec n)}
    (h : Zooming φ α₀ c₁ k middles S lo hi) (hmiddles : middles ≠ [])
    (hspent : middles.length = zoomPasses ∨ |hi - lo| < 1e-12)
    (htried : lo = 0 → ∃ α, 0 < α ∧ tried = ⟨real α, some (real (φ.value α)), none⟩) :
    Succeeds (Probe.Met φ x d opening (doublings α₀ (k + 1) ++ middles) S)
      (settle ⟨real lo, real hi, real (φ.value lo)⟩ tried :
        Act Exact (Probe Exact (Vec n) (σ × List (Evaluation Exact (Vec n) M))) _)
      (Finds φ x d opening α₀ c₁ c₂ N) := by
  refine Triple.ite (fun hpos => ?_) fun hnot => ?_
  · rw [zero_lt_real] at hpos
    -- the slope was taken at the best trial, so that both are known there
    have hmem := h.best.mem hpos
    refine (Probe.succeeds_stepLength (h.best.taken hmem) hmem).post ?_
    rintro step p ⟨⟨v, rfl, hv⟩, hp⟩
    rw [h.halved.width] at hspent
    have hspent' : Spent α₀ (doublings α₀ (k + 1) ++ middles) := .intro hmiddles h.below hspent
    exact ⟨_, _, .decreased hpos h.best hv (.inr hspent') hends, hp⟩
  · rw [zero_lt_real, not_lt] at hnot
    have hzero := le_antisymm hnot h.best.nonneg
    obtain ⟨α, hα, rfl⟩ := htried hzero
    have hnone := h.best.none_decreases hzero hc₁ hslope
    exact .pure fun p hp => ⟨_, _, .rejected hα hnone hends, hp⟩

/-- The bracket that the `k`-th trial closed is zoomed into. -/
theorem succeeds_zoomInto {b : Bracket Exact} :
    Succeeds (b.Reached φ x d opening α₀ c₁ k 0)
      ((ofReal α₀ c₁ c₂ maxIter).zoomInto op.recorded (lineOf φ x d g) b)
      (Finds φ x d opening α₀ c₁ c₂ N) := by
  refine triple_zoomInto (J := fun j b => b.Reached φ x d opening α₀ c₁ k j)
    (T := fun b tried _ => b.Rejected φ tried) (fun _ ht => ht) ?_ ?_
  · intro j _ b
    refine Triple.of_exists fun middles => Triple.of_exists fun S => Triple.of_exists fun lo =>
      Triple.of_exists fun hi => Triple.assume ?_
    rintro ⟨rfl, rfl, h⟩
    exact succeeds_pass hseen hα₀ hslope hends h
  · rintro j b tried hj - hspent p ⟨⟨middles, S, lo, hi, ⟨rfl, rfl, h⟩, hp⟩, htried⟩
    rw [real_sub, magnitude_real, ofScientific_eq, real_lt] at hspent
    exact succeeds_settle hslope hends hc₁ h (List.ne_nil_of_length_pos hj) hspent
      (fun hzero => htried (congrArg real hzero)) p hp

end

/-! ### Trials -/

section

variable (hseen : φ.Seen op x d s opening) (hα₀ : 0 < α₀) (hc₁ : 0 < c₁) (hc₂ : 0 < c₂)
  (hslope : φ.slope 0 < 0)

include hseen hα₀ hc₁ hc₂ hslope

/-- The `k`-th trial, where those before it have fallen off, ends the search, or it closes a bracket
or falls off, too. -/
theorem succeeds_trial {N : ℕ} (hk : k < N) {first : Bool} {previous costBefore alpha : Exact}
    (h : Due φ α₀ c₁ c₂ k first previous costBefore alpha) :
    Succeeds (Probe.Met φ x d opening (doublings α₀ k) (doublings α₀ k))
      ((ofReal α₀ c₁ c₂ maxIter).trial op.recorded (lineOf φ x d g) first previous costBefore alpha)
      (Trial.Leads (Finds φ x d opening α₀ c₁ c₂ N)
        (fun b p => ¬ Falls φ α₀ c₁ c₂ N ∧ b.Reached φ x d opening α₀ c₁ k 0 p)
        fun cost p => Due φ α₀ c₁ c₂ (k + 1) false alpha cost (alpha * 2.0) ∧
          p.Met φ x d opening (doublings α₀ (k + 1)) (doublings α₀ (k + 1))) := by
  obtain ⟨rfl, rfl, rfl, rfl, hbest, hfalls⟩ := h
  have hpos := trial_pos hα₀ k
  have hnew := not_mem_doublings (k := k) hα₀
  have hclosed := Bracket.Halved.start (k := k) hα₀
  refine triple_trial (G := fun trial m p => (Taken φ d c₁ (α₀ * 2 ^ k) trial m ∧
      (k ≠ 0 → φ.value (α₀ * 2 ^ k) < φ.value (behind α₀ k)) ∧
      Best φ c₁ (doublings α₀ (k + 1)) (doublings α₀ (k + 1)) (α₀ * 2 ^ k)) ∧
        p.Met φ x d opening (doublings α₀ (k + 1)) (doublings α₀ (k + 1)))
    (Probe.succeeds_cost (hseen.value_ahead _ hpos) hnew) ?_ ?_ ?_ ?_ ?_
  · -- the bracket reaches up to this trial, and the best one is still the one before
    rintro _ p ⟨rfl, hp⟩ hhigh
    rw [rejects_iff] at hhigh
    have hbest' := hbest.reject hpos (hhigh.imp id And.right)
    rw [← doublings_succ] at hbest' hp
    refine ⟨fun h => h.not_rejected hk hhigh, [], _, _, _, ⟨rfl, rfl, .start hbest' hclosed⟩, ?_⟩
    rwa [List.append_nil]
  · refine fun trial hlow => Triple.assume ?_
    rintro rfl
    rw [rejects_iff, not_or, not_not, not_and, not_le] at hlow
    obtain ⟨hdecreases, hlower⟩ := hlow
    -- the first trial is below the origin by its decrease, any other below the one before
    have hle : φ.value (α₀ * 2 ^ k) ≤ φ.value (behind α₀ k) := by
      rcases Nat.eq_zero_or_pos k with rfl | hk0
      · exact hdecreases.le hc₁ hpos hslope.le
      · exact (hlower hk0.ne').le
    have hbest' := hbest.accept hpos hdecreases hle
    refine (succeeds_slopeAt hseen hpos hnew).post ?_
    rintro _ p ⟨⟨v, rfl, hv⟩, hp⟩
    rw [← doublings_succ] at hbest' hp
    exact ⟨⟨.intro hdecreases hv, hlower, hbest'⟩, hp⟩
  · rintro _ _ _ p ⟨⟨⟨-, hv⟩, -, hbest'⟩, hp⟩ hflat
    rw [flat_iff hslope] at hflat
    have hends : ¬ Falls φ α₀ c₁ c₂ N := fun h => h.not_flat hk hslope hc₂ (.inl hflat)
    exact ⟨_, _, .decreased hpos hbest' hv (.inl hflat) hends, hp⟩
  · -- the value rises from here on, so the bracket reaches back to the trial before
    rintro _ _ _ p ⟨⟨⟨-, -⟩, -, hbest'⟩, hp⟩ - hrises
    rw [zero_eq, real_le] at hrises
    refine ⟨fun h => h.not_flat hk hslope hc₂ (.inr hrises), [], _, _, _,
      ⟨rfl, rfl, .start hbest' hclosed.symm⟩, ?_⟩
    rwa [List.append_nil]
  · rintro _ _ _ p ⟨⟨⟨hdecreases, -⟩, hlower, hbest'⟩, hp⟩ hnot hdrops
    rw [flatEnough_lineOf_iff] at hnot
    rw [zero_eq, real_le, not_le] at hdrops
    have hfalls' := hfalls.next hdecreases (steep_of_not_flat hnot hdrops) hlower
    rw [← behind_succ] at hbest' ⊢
    exact ⟨⟨rfl, rfl, rfl, behind_succ α₀ k ▸ real_doubled α₀ k, hbest', hfalls'⟩, hp⟩

/-- The trials end the search, or one of them leads to a zoom, or they all fall off. -/
theorem succeeds_trials (N : ℕ) :
    Succeeds (Probe.Met φ x d opening [] [])
      ((ofReal α₀ c₁ c₂ maxIter).trials op.recorded (lineOf φ x d g) N true (real 0)
        (real (φ.value 0)) (real α₀))
      (Finds φ x d opening α₀ c₁ c₂ N) := by
  refine triple_trials (J := fun k first previous costBefore alpha p =>
      Due φ α₀ c₁ c₂ k first previous costBefore alpha ∧
        p.Met φ x d opening (doublings α₀ k) (doublings α₀ k))
    (B := fun b p => ∃ k, ¬ Falls φ α₀ c₁ c₂ N ∧ b.Reached φ x d opening α₀ c₁ k 0 p)
    (fun p hp => ⟨⟨rfl, rfl, rfl, ?_, .origin, .start⟩, hp⟩) ?_ ?_ ?_
  · rw [pow_zero, mul_one]
  · refine fun k hk first previous costBefore alpha => Triple.assume fun h => ?_
    refine (succeeds_trial hseen hα₀ hc₁ hc₂ hslope hk h).post fun trial p hp => ?_
    cases trial with
    | accepted step => exact hp
    | closed b => exact ⟨k, hp⟩
    | falling cost => exact hp
  · rintro _ _ _ _ p ⟨⟨rfl, rfl, rfl, rfl, -, hfalls⟩, hp⟩
    -- the length of the step is twice the last trial, which was never asked about
    have hnew := not_mem_doublings (k := N) hα₀
    rw [hp.knows.stepLength_untried hnew hnew]
    exact ⟨_, _, .ranOut rfl hfalls, hp⟩
  · exact fun b => Triple.of_exists fun k => Triple.assume fun hends =>
      succeeds_zoomInto hseen hα₀ hslope hends hc₁

/-- A search finds the best of its trials, or has rejected all of them, or ran out of them. -/
theorem succeeds_search (maxIter : Int) :
    Succeeds (Session.Asked []) ((ofReal α₀ c₁ c₂ maxIter).search op.recorded d s) fun step u =>
      ∃ T, Found φ d α₀ c₁ c₂ maxIter.toNat T step ∧
        u.Asked (opening ++ T.map fun α => x + α • d) := by
  unfold search
  refine (LineSearch.current_of_seen hseen Session.succeeds_costValue
    Session.succeeds_gradient).bind fun current => Triple.assume ?_
  rintro ⟨g, rfl, hg⟩
  have hinner : Space.innerWith (some g) (some g) d = .ok (real (φ.slope 0)) := by rw [← hg]; rfl
  show Triple _ _ (Act.lift (Space.innerWith (some g) (some g) d) >>= _) _
  rw [hinner, hseen.param]
  refine (Triple.lift (Act.Raises.ok _)).bind fun slope => Triple.assume fun hslope' => ?_
  cases hslope'
  refine Triple.ite (fun hup => ?_) fun _ => ?_
  · -- the direction leads down, so it is not refused
    rw [zero_eq, real_le] at hup
    exact absurd hslope (not_lt.mpr hup)
  · rw [zero_eq]
    exact LineSearch.succeeds_along (succeeds_trials hseen hα₀ hc₁ hc₂ hslope maxIter.toNat)

end

/-! ### Searches -/

open Surface (hollows onward inFirst)

/-- On a session the search from a state ends with the step length, and so does the one whose
operator notes its calls: it asks for the cost at the points of the opening and of the trials. -/
structure Ends (w : Wolfe Exact) (op : Operator Exact (Vec n) M σ) (x d : Vec n)
    (s : State Exact (Vec n) M) (session : Session Exact σ) (opening : List (Vec n))
    (step : StepLength Exact (Vec n)) (T : List ℝ) : Prop where
  answers : ∃ u, (w.search op d s).run session = (.ok step, u)
  asks : ∃ u, (w.search op.recorded d s).run (session.recording (Vec n) M) = (.ok step, u) ∧
    u.Asked (opening ++ T.map fun α => x + α • d)

theorem exists_ends (hseen : φ.Seen op x d s opening) (hslope : φ.slope 0 < 0) (hα₀ : 0 < α₀)
    (hc₁ : 0 < c₁) (hc₂ : 0 < c₂) (maxIter : Int) (session : Session Exact σ) :
    ∃ step T, (ofReal α₀ c₁ c₂ maxIter).Ends op x d s session opening step T ∧
      Found φ d α₀ c₁ c₂ maxIter.toNat T step := by
  have hsearch := Act.succeeds_iff.mp (succeeds_search hseen hα₀ hc₁ hc₂ hslope maxIter)
  obtain ⟨step, u, hrun, T, hfound, hasked⟩ := hsearch (session.recording (Vec n) M) rfl
  refine ⟨step, T, ⟨?_, u, hrun, hasked⟩, hfound⟩
  -- the search goes beside its recording
  have : Nonempty (Session Exact σ) := ⟨session⟩
  have hparam : s.param.isSome = true := by rw [hseen.param]; rfl
  have hbeside := (ofReal α₀ c₁ c₂ maxIter).lineSearch_beside
    (Transcript.serves_recording op .cost) (Transcript.serves_recording op .gradient) d s s.maxIters
    s.time hparam
  have htogether : (Transcript.recording Exact σ (Vec n) M).together
      (session.recording (Vec n) M) session := ⟨rfl, rfl, rfl, rfl, rfl⟩
  have hanswer :
      (((ofReal α₀ c₁ c₂ maxIter).search op.recorded d s).run (session.recording (Vec n) M)).1 =
        (((ofReal α₀ c₁ c₂ maxIter).search op d s).run session).1 :=
    (hbeside.together (fun _ _ => id) (fun _ => id) htogether).1.eq
  rw [hrun] at hanswer
  exact ⟨_, Prod.ext hanswer.symm rfl⟩

/-- **What a strong Wolfe search returns is determined by what it found.**  On a profile that falls
at the origin it returns a positive step length.  If a gradient comes with it, so does the cost, the
step length is the best of the trials that decrease the value sufficiently, and the slope there is
flat enough unless the zoom ran to its end.  If a cost and no gradient comes with it, all trials
were rejected.  If neither does, the trials have run out: all of them decreased the value
sufficiently and fell off too steeply, and the step length is the next one in line. -/
theorem search_found (hseen : φ.Seen op x d s opening) (hslope : φ.slope 0 < 0) (hα₀ : 0 < α₀)
    (hc₁ : 0 < c₁) (hc₂ : 0 < c₂) (maxIter : Int) (session : Session Exact σ) :
    ∃ step T α, (ofReal α₀ c₁ c₂ maxIter).Ends op x d s session opening step T ∧
      step.alpha = real α ∧ 0 < α ∧
      (∀ g, step.grad = some g → step.cost = some (real (φ.value α)) ∧ ⟪g, d⟫ = φ.slope α ∧
        φ.Decreases c₁ α ∧ α ∈ T ∧ (∀ β ∈ T, φ.Decreases c₁ β → φ.value α ≤ φ.value β) ∧
        (¬ Spent α₀ T → |φ.slope α| ≤ c₂ * |φ.slope 0|)) ∧
      (∀ c, step.cost = some c → step.grad = none →
        c = real (φ.value α) ∧ ∀ β ∈ T, ¬ φ.Decreases c₁ β) ∧
      (step.cost = none → step.grad = none →
        T = doublings α₀ maxIter.toNat ∧ Falling φ α₀ c₁ c₂ maxIter.toNat ∧
          α = α₀ * 2 ^ maxIter.toNat) := by
  obtain ⟨step, T, hends, hfound⟩ := exists_ends hseen hslope hα₀ hc₁ hc₂ maxIter session
  cases hfound with
  | @decreased S α g hpos hbest hg hflat =>
    -- a step that comes with its gradient is the best of the trials
    refine ⟨_, T, α, hends, rfl, hpos, ?_, nofun, nofun⟩
    rintro _ ⟨⟩
    exact ⟨rfl, hg, hbest.decreases, hbest.taken (hbest.mem hpos), hbest.least, hflat.resolve_right⟩
  | @rejected α hpos hnone =>
    -- a step that comes without it decreases too little, as all the trials do
    refine ⟨_, T, α, hends, rfl, hpos, nofun, ?_, nofun⟩
    rintro _ ⟨⟩ -
    exact ⟨rfl, hnone⟩
  | ranOut htrials hfalls =>
    refine ⟨_, T, _, hends, rfl, trial_pos hα₀ _, nofun, nofun, fun _ _ => ?_⟩
    exact ⟨htrials, hfalls.falling, rfl⟩

/-- With two trials the search from the first hollow does not run out, so a cost comes with the step
length. -/
theorem search_found_hollows :
    ∃ step T α, (ofReal 1 1e-4 0.9 2).Ends hollows.operator 0 onward inFirst
        ⟨{}, (), [], false, real 0⟩ [] step T ∧ step.alpha = real α ∧ 0 < α ∧
      step.cost = some (real ((hollows.profile 0 onward).value α)) ∧
      ((hollows.profile 0 onward).Decreases 1e-4 α ∨
        ∀ β ∈ T, ¬ (hollows.profile 0 onward).Decreases 1e-4 β) := by
  obtain ⟨step, T, α, hends, halpha, hpos, hgrad, hcost, hnone⟩ :=
    search_found Surface.seen_inFirst Surface.hollows_slope_zero one_pos
      (by norm_num : (0 : ℝ) < 1e-4) (by norm_num : (0 : ℝ) < 0.9) 2 ⟨{}, (), [], false, real 0⟩
  refine ⟨step, T, α, hends, halpha, hpos, ?_⟩
  cases hg : step.grad with
  | some g =>
    obtain ⟨hcost, -, hdecreases, -⟩ := hgrad g hg
    exact ⟨hcost, .inl hdecreases⟩
  | none =>
    cases hc : step.cost with
    | some c =>
      obtain ⟨rfl, hrejected⟩ := hcost c hc hg
      exact ⟨rfl, .inr hrejected⟩
    | none =>
      -- the second trial lies up the other side, so that it did not fall off
      obtain ⟨-, hfalling, -⟩ := hnone hc hg
      have hsecond := hfalling.decreases 1 (by decide)
      rw [Surface.hollows_decreases_iff] at hsecond
      norm_num at hsecond

/-- **A strong Wolfe search gives up a good step for an untested one** only if its trials run out.
If a trial decreases the value sufficiently, then so does the step length that is returned, unless
the trials have all fallen off too steeply; and if they have, the next length in line is returned,
untested. -/
theorem decreases_of_search (hseen : φ.Seen op x d s opening) (hslope : φ.slope 0 < 0)
    (hα₀ : 0 < α₀) (hc₁ : 0 < c₁) (hc₂ : 0 < c₂) (maxIter : Int) (session : Session Exact σ) :
    ∃ step T α, (ofReal α₀ c₁ c₂ maxIter).Ends op x d s session opening step T ∧
      step.alpha = real α ∧
      ((∃ β ∈ T, φ.Decreases c₁ β) → ¬ Falls φ α₀ c₁ c₂ maxIter.toNat → φ.Decreases c₁ α) ∧
      (Falls φ α₀ c₁ c₂ maxIter.toNat → T = doublings α₀ maxIter.toNat ∧ step.cost = none ∧
        step.grad = none ∧ α = α₀ * 2 ^ maxIter.toNat) := by
  obtain ⟨step, T, hends, hfound⟩ := exists_ends hseen hslope hα₀ hc₁ hc₂ maxIter session
  cases hfound with
  | decreased _ hbest _ _ hnot =>
    exact ⟨_, T, _, hends, rfl, fun _ _ => hbest.decreases, fun h => absurd h hnot⟩
  | rejected _ hnone hnot =>
    refine ⟨_, T, _, hends, rfl, ?_, fun h => absurd h hnot⟩
    rintro ⟨β, hβ, hdecreases⟩ -
    exact absurd hdecreases (hnone β hβ)
  | ranOut htrials hfalls =>
    exact ⟨_, T, _, hends, rfl, fun _ h => absurd hfalls h, fun _ => ⟨htrials, rfl, rfl, rfl⟩⟩

/-- A search with one trial finds the second hollow, and gives it up for an untested step length
twice as far, where the value is up on the other side. -/
theorem decreases_of_search_hollows :
    ∃ step, (ofReal 1 1e-4 0.9 1).Ends hollows.operator 0 onward inFirst
        ⟨{}, (), [], false, real 0⟩ [] step [1] ∧
      (hollows.profile 0 onward).Decreases 1e-4 1 ∧
      step.alpha = real 2 ∧ step.cost = none ∧ step.grad = none ∧
      ¬ (hollows.profile 0 onward).Decreases 1e-4 2 := by
  obtain ⟨step, T, α, hends, halpha, -, hout⟩ :=
    decreases_of_search Surface.seen_inFirst Surface.hollows_slope_zero one_pos
      (by norm_num : (0 : ℝ) < 1e-4) (by norm_num : (0 : ℝ) < 0.9) 1 ⟨{}, (), [], false, real 0⟩
  obtain ⟨htrials, hcost, hgrad, rfl⟩ := hout Surface.falls_hollows
  obtain rfl : T = [1] := by simpa [doublings] using htrials
  refine ⟨step, hends, ?_, ?_, hcost, hgrad, ?_⟩
  · rw [Surface.hollows_decreases_iff]
    norm_num
  · simpa using halpha
  · rw [Surface.hollows_decreases_iff]
    norm_num

end Wolfe

end Descent
