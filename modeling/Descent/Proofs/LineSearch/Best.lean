import Descent.Proofs.LineSearch.Decrease

/-!
# The best trial of a strong Wolfe search

A strong Wolfe search makes its first trials at step lengths that double (`Wolfe.doublings`), and
the trials of its zoom in the middles of a bracket.

The lower end of the bracket is the best of the trials so far that decrease the objective
sufficiently, or the origin if there are none (`Wolfe.Best`).  The bracket that the `k`-th trial
closes reaches from the trial before up to it, and no trial lies inside of it
(`Wolfe.Bracket.Halved`), so that its middle is a new one.  A zoom keeps both (`Wolfe.Zooming`),
whether it rejects a middle (`Wolfe.Zooming.reject`) or accepts it (`Wolfe.Zooming.accept`).

A search that finds no reason to zoom runs out of trials (`Wolfe.Falls`).
-/

namespace Descent.Wolfe

variable {α₀ c₁ c₂ α lo hi : ℝ} {j k : ℕ} {T S middles : List ℝ} {φ : Profile}

/-! ### The trials before a zoom -/

/-- The step lengths of the first `k` trials, each twice the one before. -/
noncomputable def doublings (α₀ : ℝ) (k : ℕ) : List ℝ :=
  (List.range k).map fun j => α₀ * (2 ^ j : ℕ)

/-- The step length before the `k`-th trial, which is the origin for the first one. -/
noncomputable def behind (α₀ : ℝ) : ℕ → ℝ
  | 0 => 0
  | k + 1 => α₀ * (2 ^ k : ℕ)

theorem doublings_succ (α₀ : ℝ) (k : ℕ) :
    doublings α₀ (k + 1) = doublings α₀ k ++ [α₀ * 2 ^ k] := by
  simp [doublings, List.range_succ]

theorem mem_doublings {β : ℝ} : β ∈ doublings α₀ k ↔ ∃ j < k, α₀ * 2 ^ j = β := by
  simp [doublings]

theorem behind_succ (α₀ : ℝ) (k : ℕ) : behind α₀ (k + 1) = α₀ * 2 ^ k := by
  simp [behind]

section

variable (hα₀ : 0 < α₀)

include hα₀

theorem trial_pos (k : ℕ) : 0 < α₀ * 2 ^ k := mul_pos hα₀ (pow_pos two_pos k)

theorem behind_nonneg (k : ℕ) : 0 ≤ behind α₀ k := by
  cases k with
  | zero => exact le_rfl
  | succ k =>
    rw [behind_succ]
    exact (trial_pos hα₀ k).le

theorem behind_lt (k : ℕ) : behind α₀ k < α₀ * 2 ^ k := by
  cases k with
  | zero => exact trial_pos hα₀ 0
  | succ k =>
    have hpos := trial_pos hα₀ k
    rw [behind_succ, pow_succ]
    linarith

/-- A trial is no longer than the last one. -/
theorem le_of_mem_doublings {β : ℝ} (h : β ∈ doublings α₀ k) : 0 < β ∧ β ≤ behind α₀ k := by
  obtain ⟨j, hj, rfl⟩ := mem_doublings.mp h
  refine ⟨trial_pos hα₀ j, ?_⟩
  cases k with
  | zero => omega
  | succ k =>
    have hpow : (2 : ℝ) ^ j ≤ 2 ^ k := pow_le_pow_right₀ one_le_two (Nat.le_of_lt_succ hj)
    rw [behind_succ]
    exact mul_le_mul_of_nonneg_left hpow hα₀.le

theorem not_mem_doublings : α₀ * 2 ^ k ∉ doublings α₀ k := by
  intro hmem
  have hle := (le_of_mem_doublings hα₀ hmem).2
  exact absurd (behind_lt hα₀ k) (not_lt.mpr hle)

end

/-! ### The best trial -/

/-- The step length is the best of the trials `T` that decrease the value sufficiently, or it is the
origin if there are none.  The slope was taken at the trials `S`. -/
structure Best (φ : Profile) (c₁ : ℝ) (T S : List ℝ) (lo : ℝ) : Prop where
  nonneg : 0 ≤ lo
  ahead : ∀ β ∈ T, 0 < β
  taken : S ⊆ T
  mem : 0 < lo → lo ∈ S
  decreases : φ.Decreases c₁ lo
  least : ∀ β ∈ T, φ.Decreases c₁ β → φ.value lo ≤ φ.value β

namespace Best

theorem origin : Best φ c₁ [] [] 0 where
  nonneg := le_rfl
  ahead := nofun
  taken := List.Subset.refl _
  mem h := absurd h (lt_irrefl 0)
  decreases := by
    unfold Profile.Decreases
    rw [mul_zero, zero_mul, add_zero]
  least := nofun

variable (h : Best φ c₁ T S lo)

include h

/-- A trial that is no better is rejected. -/
theorem reject (hα : 0 < α) (hnot : ¬ φ.Decreases c₁ α ∨ φ.value lo ≤ φ.value α) :
    Best φ c₁ (T ++ [α]) S lo where
  nonneg := h.nonneg
  ahead := List.forall_mem_append.mpr ⟨h.ahead, List.forall_mem_singleton.mpr hα⟩
  taken := List.subset_append_of_subset_left _ h.taken
  mem := h.mem
  decreases := h.decreases
  least := by
    refine List.forall_mem_append.mpr ⟨h.least, List.forall_mem_singleton.mpr fun hdecreases => ?_⟩
    exact hnot.resolve_left fun hno => hno hdecreases

/-- A trial that is better takes the place of the one before. -/
theorem accept (hα : 0 < α) (hdecreases : φ.Decreases c₁ α) (hle : φ.value α ≤ φ.value lo) :
    Best φ c₁ (T ++ [α]) (S ++ [α]) α where
  nonneg := hα.le
  ahead := List.forall_mem_append.mpr ⟨h.ahead, List.forall_mem_singleton.mpr hα⟩
  taken := List.append_subset.mpr
    ⟨List.subset_append_of_subset_left _ h.taken, List.subset_append_right T [α]⟩
  mem _ := List.mem_append_right S (List.mem_singleton_self α)
  decreases := hdecreases
  least := by
    refine List.forall_mem_append.mpr ⟨fun β hβ hβdecreases => ?_, ?_⟩
    · exact hle.trans (h.least β hβ hβdecreases)
    · exact List.forall_mem_singleton.mpr fun _ => le_rfl

/-- As long as the origin is the best, all trials are rejected. -/
theorem none_decreases (hzero : lo = 0) (hc₁ : 0 < c₁) (hslope : φ.slope 0 < 0) :
    ∀ β ∈ T, ¬ φ.Decreases c₁ β := by
  intro β hβ hdecreases
  have hle := h.least β hβ hdecreases
  rw [hzero] at hle
  exact Profile.not_decreases_of_le hc₁ (h.ahead β hβ) hslope hle hdecreases

end Best

/-! ### Brackets -/

/-- The bracket that the `k`-th trial closed after `j` halvings, with all trials outside of it. -/
structure Bracket.Halved (α₀ : ℝ) (k j : ℕ) (T : List ℝ) (lo hi : ℝ) : Prop where
  lower : 0 ≤ lo
  upper : 0 ≤ hi
  lower_le : lo ≤ α₀ * 2 ^ k
  upper_le : hi ≤ α₀ * 2 ^ k
  width : |hi - lo| = (α₀ * 2 ^ k - behind α₀ k) / 2 ^ j
  outside : ∀ β ∈ T, 0 ≤ (β - lo) * (β - hi)

namespace Bracket.Halved

theorem start (hα₀ : 0 < α₀) : Halved α₀ k 0 (doublings α₀ (k + 1)) (behind α₀ k) (α₀ * 2 ^ k) where
  lower := behind_nonneg hα₀ k
  upper := (trial_pos hα₀ k).le
  lower_le := (behind_lt hα₀ k).le
  upper_le := le_rfl
  width := by
    rw [abs_of_pos (sub_pos.mpr (behind_lt hα₀ k)), pow_zero, div_one]
  outside β hβ := by
    rw [doublings_succ, List.mem_append, List.mem_singleton] at hβ
    rcases hβ with hβ | rfl
    · have hle := (le_of_mem_doublings hα₀ hβ).2
      have hlt := behind_lt hα₀ k
      exact mul_nonneg_of_nonpos_of_nonpos (by linarith) (by linarith)
    · rw [sub_self, mul_zero]

variable (h : Halved α₀ k j T lo hi)

include h

/-- The ends of a bracket are alike. -/
theorem symm : Halved α₀ k j T hi lo where
  lower := h.upper
  upper := h.lower
  lower_le := h.upper_le
  upper_le := h.lower_le
  width := by rw [abs_sub_comm, h.width]
  outside β hβ := by rw [mul_comm]; exact h.outside β hβ

/-- The trials stay outside of the half with the upper end. -/
theorem half : Halved α₀ k (j + 1) (T ++ [0.5 * (lo + hi)]) (0.5 * (lo + hi)) hi where
  lower := by linarith [h.lower, h.upper]
  upper := h.upper
  lower_le := by linarith [h.lower_le, h.upper_le]
  upper_le := h.upper_le
  width := by
    have hhalf : hi - 0.5 * (lo + hi) = (hi - lo) / 2 := by ring
    rw [hhalf, abs_div, h.width, abs_two, pow_succ, div_div]
  outside β hβ := by
    rcases List.mem_append.mp hβ with hβ | hβ
    · -- twice the new product is the old one and a square
      have hout := h.outside β hβ
      nlinarith [sq_nonneg (β - hi)]
    · rw [List.mem_singleton.mp hβ, sub_self, zero_mul]

variable (hα₀ : 0 < α₀)

include hα₀

theorem ne : lo ≠ hi := by
  rintro rfl
  have hpos : 0 < (α₀ * 2 ^ k - behind α₀ k) / 2 ^ j :=
    div_pos (sub_pos.mpr (behind_lt hα₀ k)) (pow_pos two_pos j)
  rw [← h.width, sub_self, abs_zero] at hpos
  exact lt_irrefl 0 hpos

theorem middle_pos : 0 < 0.5 * (lo + hi) := by
  rcases lt_or_gt_of_ne (h.ne hα₀) with hlt | hlt
  · linarith [h.lower]
  · linarith [h.upper]

theorem middle_lt : 0.5 * (lo + hi) < α₀ * 2 ^ k := by
  rcases lt_or_gt_of_ne (h.ne hα₀) with hlt | hlt
  · linarith [h.upper_le]
  · linarith [h.lower_le]

/-- The middle lies inside of the bracket, where there are no trials. -/
theorem middle_not_mem : 0.5 * (lo + hi) ∉ T := by
  intro hmem
  -- the product of the distances to the ends is negative there
  have hout := h.outside _ hmem
  have hinside : 0 < (hi - lo) ^ 2 := sq_pos_of_ne_zero (sub_ne_zero.mpr (h.ne hα₀).symm)
  nlinarith

end Bracket.Halved

/-- Where a zoom stands that the `k`-th trial has led to: it has tried the middles, and its bracket
was halved as many times. -/
structure Zooming (φ : Profile) (α₀ c₁ : ℝ) (k : ℕ) (middles S : List ℝ) (lo hi : ℝ) : Prop where
  best : Best φ c₁ (doublings α₀ (k + 1) ++ middles) S lo
  halved : Bracket.Halved α₀ k middles.length (doublings α₀ (k + 1) ++ middles) lo hi
  below : ∀ m ∈ middles, m < α₀ * 2 ^ k

namespace Zooming

theorem start (hbest : Best φ c₁ (doublings α₀ (k + 1)) S lo)
    (hclosed : Bracket.Halved α₀ k 0 (doublings α₀ (k + 1)) lo hi) :
    Zooming φ α₀ c₁ k [] S lo hi where
  best := by rwa [List.append_nil]
  halved := by rwa [List.append_nil]
  below := nofun

variable (h : Zooming φ α₀ c₁ k middles S lo hi) (hα₀ : 0 < α₀)

include h hα₀

/-- A middle that is rejected becomes the upper end. -/
theorem reject
    (hnot : ¬ φ.Decreases c₁ (0.5 * (lo + hi)) ∨ φ.value lo ≤ φ.value (0.5 * (lo + hi))) :
    Zooming φ α₀ c₁ k (middles ++ [0.5 * (lo + hi)]) S lo (0.5 * (lo + hi)) where
  best := by
    rw [← List.append_assoc]
    exact h.best.reject (h.halved.middle_pos hα₀) hnot
  halved := by
    have hhalf := h.halved.symm.half.symm
    rw [← List.append_assoc, List.length_append, List.length_singleton]
    rwa [add_comm hi lo] at hhalf
  below := by
    refine List.forall_mem_append.mpr ⟨h.below, List.forall_mem_singleton.mpr ?_⟩
    exact h.halved.middle_lt hα₀

/-- A middle that is accepted becomes the lower end, and the upper one is either of those before. -/
theorem accept {hi' : ℝ} (hdecreases : φ.Decreases c₁ (0.5 * (lo + hi)))
    (hle : φ.value (0.5 * (lo + hi)) ≤ φ.value lo) (hhi' : hi' = lo ∨ hi' = hi) :
    Zooming φ α₀ c₁ k (middles ++ [0.5 * (lo + hi)]) (S ++ [0.5 * (lo + hi)]) (0.5 * (lo + hi))
      hi' where
  best := by
    rw [← List.append_assoc]
    exact h.best.accept (h.halved.middle_pos hα₀) hdecreases hle
  halved := by
    rw [← List.append_assoc, List.length_append, List.length_singleton]
    rcases hhi' with rfl | rfl
    · have hhalf := h.halved.symm.half
      rwa [add_comm hi hi'] at hhalf
    · exact h.halved.half
  below := by
    refine List.forall_mem_append.mpr ⟨h.below, List.forall_mem_singleton.mpr ?_⟩
    exact h.halved.middle_lt hα₀

end Zooming

/-! ### Trials that fall off -/

/-- The first `N` trials all decrease the value sufficiently, each to below the one before, and fall
off too steeply still. -/
structure Falls (φ : Profile) (α₀ c₁ c₂ : ℝ) (N : ℕ) : Prop where
  falling : Falling φ α₀ c₁ c₂ N
  lower : ∀ j < N, j ≠ 0 → φ.value (α₀ * 2 ^ j) < φ.value (behind α₀ j)

namespace Falls

theorem start : Falls φ α₀ c₁ c₂ 0 := ⟨.start, nofun⟩

variable {N : ℕ}

theorem next (h : Falls φ α₀ c₁ c₂ k) (hdecreases : φ.Decreases c₁ (α₀ * 2 ^ k))
    (hsteep : φ.slope (α₀ * 2 ^ k) < c₂ * φ.slope 0)
    (hlower : k ≠ 0 → φ.value (α₀ * 2 ^ k) < φ.value (behind α₀ k)) :
    Falls φ α₀ c₁ c₂ (k + 1) where
  falling := h.falling.next hdecreases hsteep
  lower := Nat.forall_lt_succ_right.mpr ⟨h.lower, hlower⟩

variable (h : Falls φ α₀ c₁ c₂ N) (hk : k < N)

include h hk

/-- None of the trials ends in a zoom below it. -/
theorem not_rejected :
    ¬ (¬ φ.Decreases c₁ (α₀ * 2 ^ k) ∨ k ≠ 0 ∧ φ.value (behind α₀ k) ≤ φ.value (α₀ * 2 ^ k)) := by
  rintro (hnot | ⟨hk0, hle⟩)
  · exact hnot (h.falling.decreases k hk)
  · exact absurd (h.lower k hk hk0) (not_lt.mpr hle)

/-- None of them is flat enough, nor does the value rise there. -/
theorem not_flat (hslope : φ.slope 0 < 0) (hc₂ : 0 < c₂) :
    ¬ (|φ.slope (α₀ * 2 ^ k)| ≤ c₂ * |φ.slope 0| ∨ 0 ≤ φ.slope (α₀ * 2 ^ k)) := by
  have hsteep := h.falling.steep k hk
  rintro (hflat | hrises)
  · rw [abs_of_neg hslope] at hflat
    linarith [neg_abs_le (φ.slope (α₀ * 2 ^ k))]
  · have hneg : c₂ * φ.slope 0 < 0 := mul_neg_of_pos_of_neg hc₂ hslope
    linarith

end Falls

end Descent.Wolfe
