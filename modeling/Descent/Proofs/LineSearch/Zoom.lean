import Descent.Proofs.LineSearch.Found

/-!
# The bracket of a zoom

A search calls for a zoom (`Wolfe.Calls`) where its trials come to a bracket
(`Wolfe.bracketing`).  A zoom is at a pass after some others (`Wolfe.AtPass`) until a middle is
accepted or it is at its end (`Wolfe.AtEnd`).

In exact arithmetic, whatever the profile along the line is, the bracket is in order there
(`Wolfe.Bracket.InOrder`): the lower end decreases the value sufficiently, the slope at the lower
end leads down into the bracket, and its width is halved by each pass.  It is in order when a trial
is rejected, and it is in order, the other way round, when the value rises at a trial; a pass keeps
it so for either half.

What a zoom settles for in the end was met before: its cost and its gradient are taken from the ray
(`Probe.Meets`).
-/

open scoped RealInnerProductSpace

namespace Descent

open Act (Succeeds Triple)
open Exact

/-! ### Where a search zooms -/

namespace Wolfe

section

variable {R V M σ : Type} [Scalar R] [Space R V]

variable {w : Wolfe R} {op : Operator R V M σ} {line : Line R V}

/-- The search from a state on a session calls for a zoom: along this line, into this bracket, on
this probe. -/
inductive Calls (w : Wolfe R) (op : Operator R V M σ) (direction : V) (s : State R V M)
    (u : Session R σ) : Line R V → Bracket R → Probe R V σ → Prop
  | intro {cost slope : R} {grad : Option V} {u' : Session R σ} {b : Bracket R} {p : Probe R V σ}
      (hcurrent : (LineSearch.current op s).run u = (.ok (cost, grad), u'))
      (hslope : Space.innerWith grad grad direction = .ok slope) (hdown : ¬ 0.0 ≤ slope)
      (hbracket : (w.bracketing op ⟨s.param, direction, cost, grad, slope⟩ w.maxIter.toNat true 0.0
        cost w.alpha0).run ⟨{}, u'⟩ = (.ok (.inr b), p)) :
      Calls w op direction s u ⟨s.param, direction, cost, grad, slope⟩ b p

/-- A search that calls for a zoom ends as the zoom does. -/
theorem run_search_of_calls {direction : V} {s : State R V M} {u : Session R σ} {b : Bracket R}
    {p : Probe R V σ} (h : w.Calls op direction s u line b p) :
    (w.search op direction s).run u =
      (((w.zoomInto op line b).run p).1, ((w.zoomInto op line b).run p).2.session) := by
  obtain ⟨hcurrent, hslope, hdown, hbracket⟩ := h
  unfold search
  rw [Act.run_bind_of_ok hcurrent]
  dsimp only
  rw [hslope, Act.run_bind_of_ok (Act.run_lift _ _), if_neg hdown, trials_eq]
  unfold LineSearch.along
  rw [Act.run_of, Act.run_bind_of_ok hbracket]
  rfl

/-! ### The passes of a zoom -/

/-- After `k` passes from a bracket on a probe the zoom is at another one, with its bracket and the
probe. -/
inductive AtPass (w : Wolfe R) (op : Operator R V M σ) (line : Line R V) (b₀ : Bracket R)
    (p₀ : Probe R V σ) : ℕ → Bracket R → Probe R V σ → Prop
  | first : AtPass w op line b₀ p₀ 0 b₀ p₀
  | next {k : ℕ} {b b' : Bracket R} {tried : StepLength R V} {p p' : Probe R V σ}
      (h : AtPass w op line b₀ p₀ k b p)
      (hpass : (w.pass op line b).run p = (.ok (.narrowed b' tried), p'))
      (hwide : ¬ Scalar.magnitude (b'.ahi - b'.alo) < 1e-12) (hlimit : k + 1 < zoomPasses) :
      AtPass w op line b₀ p₀ (k + 1) b' p'

/-- After `k` passes from a bracket on a probe the zoom is at its end, and settles. -/
inductive AtEnd (w : Wolfe R) (op : Operator R V M σ) (line : Line R V) (b₀ : Bracket R)
    (p₀ : Probe R V σ) : ℕ → Bracket R → StepLength R V → Probe R V σ → Prop
  | intro {k : ℕ} {b b' : Bracket R} {tried : StepLength R V} {p p' : Probe R V σ}
      (h : AtPass w op line b₀ p₀ k b p)
      (hpass : (w.pass op line b).run p = (.ok (.narrowed b' tried), p'))
      (hends : Scalar.magnitude (b'.ahi - b'.alo) < 1e-12 ∨ k + 1 = zoomPasses) :
      AtEnd w op line b₀ p₀ (k + 1) b' tried p'

variable {b₀ b : Bracket R} {p₀ p : Probe R V σ} {k : ℕ}

theorem AtPass.lt (h : w.AtPass op line b₀ p₀ k b p) : k < zoomPasses := by
  cases h with
  | first => decide
  | next _ _ _ hlimit => exact hlimit

/-- A zoom that is at a pass goes on with it. -/
theorem AtPass.run_zoomInto (h : w.AtPass op line b₀ p₀ k b p) (left : ℕ)
    (hleft : k + (left + 1) = zoomPasses) (tried : StepLength R V) :
    (w.zoomInto op line b₀).run p₀ = (w.zoom op line (left + 1) b tried).run p := by
  induction h generalizing left tried with
  | first =>
    rw [Nat.zero_add] at hleft
    unfold zoomInto
    rw [← hleft]
    rfl
  | next h hpass hwide _ ih =>
    -- one pass fewer is made and one more is left
    rw [ih (left + 1) (by omega) tried]
    conv_lhs => unfold zoom
    rw [Act.run_bind_of_ok hpass]
    dsimp only
    rw [if_neg hwide]
    rfl

omit [Space R V] in
/-- Whatever it settles for, a zoom ends with it. -/
theorem succeeds_settle_any {I : Probe R V σ → Prop} {tried : StepLength R V} :
    Succeeds I (settle b tried : Act R (Probe R V σ) _) fun _ _ => True := by
  refine Triple.ite (fun _ => ?_) fun _ => .pure fun _ _ => trivial
  exact Triple.get_bind fun p _ => .pure fun _ _ => trivial

/-- A zoom that is at its end settles. -/
theorem AtEnd.run_zoomInto {tried : StepLength R V} (h : w.AtEnd op line b₀ p₀ k b tried p) :
    (w.zoomInto op line b₀).run p₀ = (settle b tried).run p := by
  obtain ⟨h, hpass, hends⟩ := h
  obtain ⟨left, hleft⟩ := Nat.exists_eq_add_of_lt h.lt
  rw [h.run_zoomInto left (by omega) tried]
  unfold zoom
  rw [Act.run_bind_of_ok hpass]
  dsimp only
  split
  · rfl
  next hwide =>
    -- it was the last pass
    obtain rfl : left = 0 := by
      have := hends.resolve_left hwide
      omega
    rfl

end

end Wolfe

/-! ### What is met on the way -/

variable {n : ℕ} {M σ : Type} {op : Operator Exact (Vec n) M σ} {x y d g : Vec n} {φ : Profile}
  {s : State Exact (Vec n) M} {opening : List (Vec n)} {α c m : ℝ} {A B : Set ℝ}

namespace Session

theorem succeeds_costValue_at (h : op.CostsAt y c) :
    Succeeds (fun _ => True) (costValue op (some y)) fun v _ => v = real c := by
  rw [Act.succeeds_iff]
  intro u _
  obtain ⟨v, w, hrun, hv⟩ := h.answers u.world
  have hcost : (cost op (some y)).run u = (.ok v, u.charged .cost w) := by
    unfold cost
    rw [run_evaluate h.provides, hrun]
  unfold costValue
  rw [Act.run_bind_of_ok hcost, hv]
  exact ⟨real c, _, rfl, rfl⟩

theorem succeeds_gradient_at (h : op.SlopesAt d y m) :
    Succeeds (fun _ => True) (gradient op (some y)) fun o _ => ∃ g, o = some g ∧ ⟪g, d⟫ = m := by
  rw [Act.succeeds_iff]
  intro u _
  obtain ⟨g, w, hrun, hg⟩ := h.answers u.world
  unfold gradient
  rw [run_evaluate h.provides, hrun]
  exact ⟨some g, _, rfl, g, rfl, hg⟩

end Session

/-- A search begins with the value and the slope at the origin. -/
theorem LineSearch.succeeds_current (h : φ.Seen op x d s opening) :
    Succeeds (fun _ => True) (current op s) fun known _ =>
      ∃ g, known = (real (φ.value 0), some g) ∧ ⟪g, d⟫ = φ.slope 0 := by
  refine (current_of_seen (A := fun _ _ => True) h (fun hop => ?_) fun hop => ?_).post
    fun known u hu => hu.1
  · exact (Session.succeeds_costValue_at hop).post fun cost u hcost => ⟨hcost, trivial⟩
  · exact (Session.succeeds_gradient_at hop).post fun grad u hgrad => ⟨hgrad, trivial⟩

namespace Probe

/-- The ray of a probe knows the values at `T` and the slopes at `S` and nothing else, among them
the values at `A` and the slopes at `B`. -/
structure Holds (φ : Profile) (d : Vec n) (A B : Set ℝ) (T S : List ℝ)
    (p : Probe Exact (Vec n) σ) : Prop where
  knows : p.ray.Knows φ d T S
  values : ∀ α ∈ A, α ∈ T
  slopes : ∀ α ∈ B, α ∈ S

/-- The ray of a probe knows nothing but values and slopes of the profile, among them the values at
`A` and the slopes at `B`. -/
def Meets (φ : Profile) (d : Vec n) (A B : Set ℝ) (p : Probe Exact (Vec n) σ) : Prop :=
  ∃ T S, p.Holds φ d A B T S

theorem meets_empty (u : Session Exact σ) : Meets φ d ∅ ∅ (⟨{}, u⟩ : Probe Exact (Vec n) σ) :=
  ⟨[], [], .nothing, nofun, nofun⟩

theorem Meets.mono {p : Probe Exact (Vec n) σ} {A' B' : Set ℝ} (h : p.Meets φ d A B)
    (hA : A' ⊆ A) (hB : B' ⊆ B) : p.Meets φ d A' B' := by
  obtain ⟨T, S, h⟩ := h
  exact ⟨T, S, h.knows, fun α hα => h.values α (hA hα), fun α hα => h.slopes α (hB hα)⟩

/-- A step of the session leaves the ray as it is. -/
theorem succeeds_inSession_holds {β : Type} {T S : List ℝ} {Q : β → Prop}
    {a : Act Exact (Session Exact σ) β} (h : Succeeds (fun _ => True) a fun y _ => Q y) :
    Succeeds (Holds φ d A B T S) (inSession a) fun y p => Q y ∧ p.Holds φ d A B T S :=
  h.zoom (fun _ _ => trivial) fun _ _ _ hp hy => ⟨hy, hp.knows, hp.values, hp.slopes⟩

/-- The cost that is taken at a step length is the value there, and it is met from then on. -/
theorem succeeds_cost_at (hop : op.CostsAt (x + α • d) (φ.value α)) :
    Succeeds (Meets φ d A B) (cost op (some x) d (real α)) fun trial p =>
      trial = real (φ.value α) ∧ p.Meets φ d (insert α A) B := by
  refine Triple.of_exists fun T => Triple.of_exists fun S => ?_
  unfold cost
  refine Triple.get_bind fun p hp => ?_
  by_cases hmem : α ∈ T
  · rw [hp.knows.value α hmem]
    refine .pure fun p hp => ⟨rfl, T, S, hp.knows, ?_, hp.slopes⟩
    exact Set.forall_insert_of_forall hp.values hmem
  · rw [hp.knows.untried α hmem, Surface.point_real]
    refine (Triple.lift (Act.Raises.ok _)).bind fun y => Triple.assume fun hy => ?_
    cases hy
    refine (succeeds_inSession_holds (Session.succeeds_costValue_at hop)).bind fun trial =>
      Triple.assume ?_
    rintro rfl
    refine (Triple.modify fun p hp => ?_).bind fun _ => .pure fun p hp => ⟨rfl, hp⟩
    refine ⟨T ++ [α], S, hp.knows.tried α, ?_, hp.slopes⟩
    exact Set.forall_insert_of_forall (fun β hβ => List.mem_append_left _ (hp.values β hβ))
      (List.mem_append_right _ (List.mem_singleton_self α))

/-- The gradient that is taken at a step length has the slope there, and it is met from then on. -/
theorem succeeds_gradient_at (hop : op.SlopesAt d (x + α • d) (φ.slope α)) :
    Succeeds (Meets φ d A B) (gradient op (some x) d (real α)) fun grad p =>
      (∃ g, grad = some g ∧ ⟪g, d⟫ = φ.slope α) ∧ p.Meets φ d A (insert α B) := by
  refine Triple.of_exists fun T => Triple.of_exists fun S => ?_
  unfold gradient
  refine Triple.get_bind fun p hp => ?_
  by_cases hmem : α ∈ S
  · obtain ⟨g, hg, hslope⟩ := hp.knows.slope α hmem
    rw [hg]
    refine .pure fun p hp => ⟨⟨g, rfl, hslope⟩, T, S, hp.knows, hp.values, ?_⟩
    exact Set.forall_insert_of_forall hp.slopes hmem
  · rw [hp.knows.untaken α hmem, Surface.point_real]
    refine (Triple.lift (Act.Raises.ok _)).bind fun y => Triple.assume fun hy => ?_
    cases hy
    refine (succeeds_inSession_holds (Session.succeeds_gradient_at hop)).bind fun grad =>
      Triple.assume ?_
    rintro ⟨g, rfl, hg⟩
    refine (Triple.modify fun p hp => ?_).bind fun _ => .pure fun p hp => ⟨⟨g, rfl, hg⟩, hp⟩
    refine ⟨T, S ++ [α], hp.knows.taken hg, hp.values, ?_⟩
    exact Set.forall_insert_of_forall (fun β hβ => List.mem_append_left _ (hp.slopes β hβ))
      (List.mem_append_right _ (List.mem_singleton_self α))

/-- A step length at which both were met is returned with them, and nothing more is asked for. -/
theorem run_stepLength_of_meets {p : Probe Exact (Vec n) σ} (h : p.Meets φ d A B) (hA : α ∈ A)
    (hB : α ∈ B) : ∃ g, ⟪g, d⟫ = φ.slope α ∧
      (stepLength (real α)).run p = (.ok ⟨real α, some (real (φ.value α)), some g⟩, p) := by
  obtain ⟨T, S, h⟩ := h
  obtain ⟨g, hg, hslope⟩ := h.knows.slope α (h.slopes α hB)
  refine ⟨g, hslope, ?_⟩
  unfold stepLength Ray.stepLength
  rw [Act.run_bind_of_ok (Act.run_get p), Act.run_pure, h.knows.value α (h.values α hA), hg]
  rfl

end Probe

/-! ### Brackets in order -/

namespace Wolfe

/-- The bracket from `lo` to `hi` after `k` halvings of a width: no end lies behind the origin, the
lower one decreases the value sufficiently, and the slope there leads down into the bracket. -/
structure Bracket.InOrder (φ : Profile) (c₁ width : ℝ) (k : ℕ) (lo hi : ℝ) : Prop where
  lower : 0 ≤ lo
  upper : 0 ≤ hi
  decreases : φ.Decreases c₁ lo
  descends : φ.slope lo * (hi - lo) < 0
  halved : |hi - lo| = width / 2 ^ k

namespace Bracket.InOrder

variable {c₁ c₂ width lo hi : ℝ} {k : ℕ}

theorem start (hlower : 0 ≤ lo) (hupper : 0 ≤ hi) (hdecreases : φ.Decreases c₁ lo)
    (hdescends : φ.slope lo * (hi - lo) < 0) : InOrder φ c₁ |hi - lo| 0 lo hi where
  lower := hlower
  upper := hupper
  decreases := hdecreases
  descends := hdescends
  halved := by rw [pow_zero, div_one]

variable (h : InOrder φ c₁ width k lo hi)

include h

/-- There is room between the ends. -/
theorem ne : lo ≠ hi := by
  rintro rfl
  have hdescends := h.descends
  rw [sub_self, mul_zero] at hdescends
  exact lt_irrefl 0 hdescends

theorem middle_pos : 0 < 0.5 * (lo + hi) := by
  rcases lt_or_gt_of_ne h.ne with hlt | hlt
  · linarith [h.lower]
  · linarith [h.upper]

/-- The half that keeps the lower end. -/
theorem reject : InOrder φ c₁ width (k + 1) lo (0.5 * (lo + hi)) where
  lower := h.lower
  upper := h.middle_pos.le
  decreases := h.decreases
  descends := by
    have hhalf : φ.slope lo * (0.5 * (lo + hi) - lo) = φ.slope lo * (hi - lo) / 2 := by ring
    rw [hhalf]
    exact div_neg_of_neg_of_pos h.descends two_pos
  halved := by
    have hhalf : 0.5 * (lo + hi) - lo = (hi - lo) / 2 := by ring
    rw [hhalf, abs_div, h.halved, abs_two, pow_succ, div_div]

/-- The half that the slope in the middle leads into.  This slope does not vanish, since it is not
flat enough. -/
theorem accept (hdecreases : φ.Decreases c₁ (0.5 * (lo + hi)))
    (hslope : φ.slope (0.5 * (lo + hi)) ≠ 0) :
    InOrder φ c₁ width (k + 1) (0.5 * (lo + hi))
      (if 0 ≤ φ.slope (0.5 * (lo + hi)) * (hi - lo) then lo else hi) where
  lower := h.middle_pos.le
  upper := by
    -- the upper end is the one that the slope at the middle leads down to
    split
    · exact h.lower
    · exact h.upper
  decreases := hdecreases
  descends := by
    split
    next hle =>
      have hpos : 0 < φ.slope (0.5 * (lo + hi)) * (hi - lo) :=
        hle.lt_of_ne' (mul_ne_zero hslope (sub_ne_zero.mpr h.ne.symm))
      linarith
    next hlt =>
      linarith
  halved := by
    -- the middle is half the width from either end
    have hhalf : |hi - lo| / 2 = width / 2 ^ (k + 1) := by rw [h.halved, pow_succ, div_div]
    split
    · rw [show lo - 0.5 * (lo + hi) = -((hi - lo) / 2) by ring, abs_neg, abs_div, abs_two, hhalf]
    · rw [show hi - 0.5 * (lo + hi) = (hi - lo) / 2 by ring, abs_div, abs_two, hhalf]

end Bracket.InOrder

/-- The step length if it lies ahead of the origin. -/
def ahead (lo : ℝ) : Set ℝ := {α | α = lo ∧ 0 < α}

theorem ahead_subset (lo : ℝ) (A : Set ℝ) : ahead lo ⊆ insert lo A :=
  fun _ hα => Set.mem_insert_iff.mpr (.inl hα.1)

/-- Nothing has to be met at the origin. -/
theorem meets_origin (u : Session Exact σ) :
    (⟨{}, u⟩ : Probe Exact (Vec n) σ).Meets φ d (ahead 0) (ahead 0) := by
  refine (Probe.meets_empty u).mono ?_ ?_ <;> exact fun α hα => absurd (hα.1 ▸ hα.2) (lt_irrefl 0)

/-- The bracket is in order, and the probe has met both at its lower end unless that is the
origin. -/
def Bracket.Ready (φ : Profile) (d : Vec n) (c₁ width : ℝ) (k : ℕ) (b : Bracket Exact)
    (p : Probe Exact (Vec n) σ) : Prop :=
  ∃ lo hi, b = ⟨real lo, real hi, real (φ.value lo)⟩ ∧ Bracket.InOrder φ c₁ width k lo hi ∧
    p.Meets φ d (ahead lo) (ahead lo)

variable {α₀ c₁ c₂ width lo hi : ℝ} {maxIter : Int} {k : ℕ}

theorem ne_zero_of_not_flat (hc₂ : 0 < c₂) (hslope : φ.slope 0 < 0) {m : ℝ}
    (h : ¬ |m| ≤ -c₂ * φ.slope 0) : m ≠ 0 := by
  rintro rfl
  rw [abs_zero, neg_mul, not_le, neg_lt_zero] at h
  exact absurd h (mul_neg_of_pos_of_neg hc₂ hslope).not_gt

section

variable (hseen : φ.Seen op x d s opening) (hc₂ : 0 < c₂) (hslope : φ.slope 0 < 0)

include hseen

/-! ### Passes and trials -/

/-- A step length whose cost is not too high is taken further: with its slope it is met there. -/
theorem succeeds_slopeAt_at (hpos : 0 < α) {trial : Exact} {other : Bool}
    (hnot : ¬ ((ofReal α₀ c₁ c₂ maxIter).tooHigh (lineOf φ x d g) (real α) trial || other) =
      true) :
    Succeeds (fun p => trial = real (φ.value α) ∧ p.Meets φ d (insert α A) B)
      (slopeAt op (lineOf φ x d g) (real α)) fun m p =>
        Taken φ d c₁ α trial m ∧ p.Meets φ d (ahead α) (ahead α) := by
  refine Triple.assume ?_
  rintro rfl
  rw [Bool.or_eq_true, not_or, tooHigh_lineOf_iff, not_not] at hnot
  unfold slopeAt
  refine (Probe.succeeds_gradient_at (hseen.slope_ahead _ hpos)).bind fun grad => Triple.assume ?_
  rintro ⟨v, rfl, hv⟩
  refine (succeeds_slopeOf hv).bind fun slope => Triple.assume ?_
  rintro rfl
  exact .pure fun p hp => ⟨.intro hnot.1 hv, hp.mono (ahead_subset _ _) (ahead_subset _ _)⟩

include hc₂ hslope

/-- A pass that accepts no middle leaves a bracket in order, half as wide. -/
theorem succeeds_pass_inOrder (h : Bracket.InOrder φ c₁ width k lo hi) :
    Succeeds (Probe.Meets φ d (ahead lo) (ahead lo))
      ((ofReal α₀ c₁ c₂ maxIter).pass op (lineOf φ x d g) ⟨real lo, real hi, real (φ.value lo)⟩)
      (Pass.Leads (fun _ _ => True) fun b _ p => b.Ready φ d c₁ width (k + 1) p) := by
  have hpos := h.middle_pos
  refine triple_pass (G := fun trial m p => Taken φ d c₁ (0.5 * (lo + hi)) trial m ∧
      p.Meets φ d (ahead (0.5 * (lo + hi))) (ahead (0.5 * (lo + hi))))
    (Bracket.middle_real lo hi _) (Probe.succeeds_cost_at (hseen.value_ahead _ hpos)) ?_ ?_ ?_ ?_
  · -- too high a middle becomes the upper end, whatever the slope there is
    rintro _ p ⟨rfl, hp⟩ -
    exact ⟨lo, _, rfl, h.reject, hp.mono (Set.subset_insert _ _) subset_rfl⟩
  · -- any other becomes the lower end
    exact fun trial hnot => succeeds_slopeAt_at hseen hpos hnot
  · exact fun _ _ _ _ _ _ => trivial
  · -- and its slope chooses the upper one
    rintro _ _ _ p ⟨⟨hdecreases, -⟩, hp⟩ hflat
    rw [flatEnough_lineOf_iff] at hflat
    refine ⟨_, _, congrArg (Bracket.mk _ · _) ?_,
      h.accept hdecreases (ne_zero_of_not_flat hc₂ hslope hflat), hp⟩
    rw [zero_eq, real_sub, real_mul, apply_ite real]
    exact if_congr real_le rfl rfl

/-- A trial at which the value rises, or which is too high, closes a bracket in order with the one
before, if the value decreased sufficiently there and was still falling. -/
theorem succeeds_trial_inOrder {first : Bool} {previous α : ℝ} (hlower : 0 ≤ previous)
    (hα : previous < α) (hdecreases : φ.Decreases c₁ previous) (hfalls : φ.slope previous < 0) :
    Succeeds (Probe.Meets φ d (ahead previous) (ahead previous))
      ((ofReal α₀ c₁ c₂ maxIter).trial op (lineOf φ x d g) first (real previous)
        (real (φ.value previous)) (real α))
      (Trial.Leads (fun _ _ => True) (fun b p => ∃ width, b.Ready φ d c₁ width 0 p)
        fun cost p => (cost = real (φ.value α) ∧ φ.Decreases c₁ α ∧ φ.slope α < 0) ∧
          p.Meets φ d (ahead α) (ahead α)) := by
  have hpos := hlower.trans_lt hα
  refine triple_trial (G := fun trial m p => Taken φ d c₁ α trial m ∧
      p.Meets φ d (ahead α) (ahead α))
    (Probe.succeeds_cost_at (hseen.value_ahead _ hpos)) ?_ ?_ ?_ ?_ ?_
  · -- the slope at the trial before leads down to this one
    rintro _ p ⟨rfl, hp⟩ -
    have hdescends : φ.slope previous * (α - previous) < 0 :=
      mul_neg_of_neg_of_pos hfalls (sub_pos.mpr hα)
    exact ⟨_, previous, α, rfl, .start hlower hpos.le hdecreases hdescends,
      hp.mono (Set.subset_insert _ _) subset_rfl⟩
  · exact fun trial hnot => succeeds_slopeAt_at hseen hpos hnot
  · exact fun _ _ _ _ _ _ => trivial
  · -- the slope at this trial leads back to the one before
    rintro _ _ _ p ⟨⟨hdecreases', -⟩, hp⟩ hflat hrises
    rw [flatEnough_lineOf_iff] at hflat
    rw [zero_eq, real_le] at hrises
    have hup : 0 < φ.slope α := hrises.lt_of_ne' (ne_zero_of_not_flat hc₂ hslope hflat)
    have hdescends : φ.slope α * (previous - α) < 0 :=
      mul_neg_of_pos_of_neg hup (sub_neg.mpr hα)
    exact ⟨_, α, previous, rfl, .start hpos.le hlower hdecreases' hdescends, hp⟩
  · -- the slope leads on to the next trial
    rintro _ _ _ p ⟨⟨hdecreases', -⟩, hp⟩ - hdrops
    rw [zero_eq, real_le, not_le] at hdrops
    exact ⟨⟨rfl, hdecreases', hdrops⟩, hp⟩

/-- If the trials come to a bracket it is in order.  Each one is beyond the one before, at which the
value had decreased sufficiently and was still falling. -/
theorem succeeds_bracketing (hα₀ : 0 < α₀) (N : ℕ) :
    Succeeds (Probe.Meets φ d (ahead 0) (ahead 0))
      ((ofReal α₀ c₁ c₂ maxIter).bracketing op (lineOf φ x d g) N true (real 0) (real (φ.value 0))
        (real α₀))
      fun out p => Sum.elim (fun _ => True) (fun b => ∃ width, b.Ready φ d c₁ width 0 p) out := by
  refine triple_bracketing (J := fun _ _ previous costBefore alpha p => ∃ prev α,
      (previous = real prev ∧ costBefore = real (φ.value prev) ∧ alpha = real α ∧ 0 ≤ prev ∧
        prev < α ∧ φ.Decreases c₁ prev ∧ φ.slope prev < 0) ∧
      p.Meets φ d (ahead prev) (ahead prev)) (Q := fun _ _ => True)
    (B := fun b p => ∃ width, b.Ready φ d c₁ width 0 p) ?_ ?_ ?_
  · exact fun p hp => ⟨0, α₀, ⟨rfl, rfl, rfl, le_rfl, hα₀, Best.origin.decreases, hslope⟩, hp⟩
  · refine fun k _ first _ _ _ => Triple.of_exists fun prev => Triple.of_exists fun α =>
      Triple.assume ?_
    rintro ⟨rfl, rfl, rfl, hlower, hα, hdecreases, hfalls⟩
    refine (succeeds_trial_inOrder hseen hc₂ hslope hlower hα hdecreases hfalls).post
      fun trial p hp => ?_
    cases trial with
    | accepted step => trivial
    | closed b => exact hp
    | falling cost =>
      -- the value still falls here, so the next trial is twice as far
      obtain ⟨⟨rfl, hdecreases', hdrops⟩, hp⟩ := hp
      have hpos := hlower.trans_lt hα
      have hdouble : real α * 2.0 = real (α * 2) := by
        rw [ofScientific_eq, real_mul]
        norm_num
      exact ⟨α, α * 2, ⟨rfl, rfl, hdouble, hpos.le, by linarith, hdecreases', hdrops⟩, hp⟩
  · exact fun _ _ _ _ _ _ => trivial

/-! ### Zooms -/

/-- A zoom into a bracket in order ends with a step length. -/
theorem succeeds_zoomInto_inOrder {b : Bracket Exact} :
    Succeeds (b.Ready φ d c₁ width 0)
      ((ofReal α₀ c₁ c₂ maxIter).zoomInto op (lineOf φ x d g) b) fun _ _ => True := by
  refine triple_zoomInto (J := fun j b => b.Ready φ d c₁ width j) (T := fun _ _ _ => True)
    (fun _ hp => hp) ?_ fun _ _ _ _ _ _ => succeeds_settle_any
  intro j _ b
  refine Triple.of_exists fun lo => Triple.of_exists fun hi => Triple.assume ?_
  rintro rfl
  refine Triple.assume fun h => (succeeds_pass_inOrder hseen hc₂ hslope h).post fun pass p hp => ?_
  cases pass with
  | accepted step => trivial
  | narrowed b tried => exact ⟨hp, trivial⟩

/-- At each pass the bracket is in order. -/
theorem AtPass.ready {b₀ b : Bracket Exact} {p₀ p : Probe Exact (Vec n) σ}
    (h : (ofReal α₀ c₁ c₂ maxIter).AtPass op (lineOf φ x d g) b₀ p₀ k b p)
    (hb₀ : b₀.Ready φ d c₁ width 0 p₀) : b.Ready φ d c₁ width k p := by
  induction h with
  | first => exact hb₀
  | next _ hpass _ _ ih =>
    obtain ⟨lo, hi, rfl, hb, hp⟩ := ih
    exact (succeeds_pass_inOrder hseen hc₂ hslope hb _ hp).1 _ _ hpass

/-- In the end it is, too. -/
theorem AtEnd.ready {b₀ b : Bracket Exact} {tried : StepLength Exact (Vec n)}
    {p₀ p : Probe Exact (Vec n) σ}
    (h : (ofReal α₀ c₁ c₂ maxIter).AtEnd op (lineOf φ x d g) b₀ p₀ k b tried p)
    (hb₀ : b₀.Ready φ d c₁ width 0 p₀) : b.Ready φ d c₁ width k p := by
  obtain ⟨h, hpass, -⟩ := h
  obtain ⟨lo, hi, rfl, hb, hp⟩ := h.ready hseen hc₂ hslope hb₀
  exact (succeeds_pass_inOrder hseen hc₂ hslope hb _ hp).1 _ _ hpass

/-- Where a search calls for a zoom, the bracket is in order. -/
theorem Calls.ready (hα₀ : 0 < α₀) {session : Session Exact σ} {line : Line Exact (Vec n)}
    {b₀ : Bracket Exact} {p₀ : Probe Exact (Vec n) σ}
    (h : (ofReal α₀ c₁ c₂ maxIter).Calls op d s session line b₀ p₀) :
    ∃ g width, line = lineOf φ x d g ∧ b₀.Ready φ d c₁ width 0 p₀ := by
  obtain ⟨hcurrent, hinner, -, hbracket⟩ := h
  obtain ⟨g, hknown, hg⟩ := (LineSearch.succeeds_current hseen session trivial).1 _ _ hcurrent
  cases hknown
  have hinner' : Space.innerWith (some g) (some g) d = .ok (real (φ.slope 0)) := by rw [← hg]; rfl
  cases hinner'.symm.trans hinner
  have hline : (⟨s.param, d, real (φ.value 0), some g, real (φ.slope 0)⟩ : Line Exact (Vec n)) =
      lineOf φ x d g := by
    rw [hseen.param]
    rfl
  rw [hline, zero_eq] at hbracket
  obtain ⟨width, hb₀⟩ := (succeeds_bracketing hseen hc₂ hslope hα₀ maxIter.toNat _
    (meets_origin _)).1 _ _ hbracket
  exact ⟨g, width, hline, hb₀⟩

end

/-- **A zoom keeps a valid bracket.**  Wherever a search calls for a zoom, and at each pass of it:
the ends do not lie behind the origin, nor are both of them there; the cost that comes with the
lower end is the value there, and decreases sufficiently; the slope at the lower end leads down
into the bracket; its width is the one in the beginning, halved by each pass; and the middle lies
ahead of the origin.  The zoom ends with a step length, and so does the search.  When it settles for
a lower end ahead of the origin, the value has decreased sufficiently there, and the cost and the
gradient come with it although nothing more is asked for. -/
theorem zoom_keeps_order (hseen : φ.Seen op x d s opening) (hslope : φ.slope 0 < 0)
    (hα₀ : 0 < α₀) (hc₂ : 0 < c₂) {session : Session Exact σ} {line : Line Exact (Vec n)}
    {b₀ : Bracket Exact} {p₀ : Probe Exact (Vec n) σ}
    (hcalls : (ofReal α₀ c₁ c₂ maxIter).Calls op d s session line b₀ p₀) :
    ∃ lo₀ hi₀, b₀ = ⟨real lo₀, real hi₀, real (φ.value lo₀)⟩ ∧
      (∀ k b p, (ofReal α₀ c₁ c₂ maxIter).AtPass op line b₀ p₀ k b p →
        ∃ lo hi, b = ⟨real lo, real hi, real (φ.value lo)⟩ ∧
          0 ≤ lo ∧ 0 ≤ hi ∧ ¬ (lo = 0 ∧ hi = 0) ∧ φ.Decreases c₁ lo ∧
          φ.slope lo * (hi - lo) < 0 ∧ |hi - lo| = |hi₀ - lo₀| / 2 ^ k ∧
          b.middle = real (0.5 * (lo + hi)) ∧ 0 < 0.5 * (lo + hi)) ∧
      (∃ step p, ((ofReal α₀ c₁ c₂ maxIter).zoomInto op line b₀).run p₀ = (.ok step, p) ∧
        ((ofReal α₀ c₁ c₂ maxIter).search op d s).run session = (.ok step, p.session)) ∧
      ∀ k b tried p, (ofReal α₀ c₁ c₂ maxIter).AtEnd op line b₀ p₀ k b tried p →
        ∃ lo, b.alo = real lo ∧ (0 < lo → φ.Decreases c₁ lo ∧
          ∃ g, ⟪g, d⟫ = φ.slope lo ∧
            ((ofReal α₀ c₁ c₂ maxIter).zoomInto op line b₀).run p₀ =
              (.ok ⟨real lo, some (real (φ.value lo)), some g⟩, p)) := by
  have hsearch := run_search_of_calls hcalls
  obtain ⟨g, width, rfl, hb₀⟩ := hcalls.ready hseen hc₂ hslope hα₀
  obtain ⟨lo₀, hi₀, rfl, horder₀, hp₀⟩ := hb₀
  have hwidth : width = |hi₀ - lo₀| := by
    have hhalved := horder₀.halved
    rwa [pow_zero, div_one, eq_comm] at hhalved
  have hready : Bracket.Ready φ d c₁ width 0 ⟨real lo₀, real hi₀, real (φ.value lo₀)⟩ p₀ :=
    ⟨lo₀, hi₀, rfl, horder₀, hp₀⟩
  refine ⟨lo₀, hi₀, rfl, fun k b p hpass => ?_, ?_, fun k b tried p hend => ?_⟩
  · obtain ⟨lo, hi, rfl, horder, -⟩ := hpass.ready hseen hc₂ hslope hready
    refine ⟨lo, hi, rfl, horder.lower, horder.upper, ?_, horder.decreases, horder.descends,
      hwidth ▸ horder.halved, Bracket.middle_real lo hi _, horder.middle_pos⟩
    rintro ⟨rfl, rfl⟩
    exact horder.ne rfl
  · have hzoom : Succeeds (Bracket.Ready φ d c₁ width 0 _)
        ((ofReal α₀ c₁ c₂ maxIter).zoomInto op (lineOf φ x d g)
          ⟨real lo₀, real hi₀, real (φ.value lo₀)⟩) _ :=
      succeeds_zoomInto_inOrder hseen hc₂ hslope
    obtain ⟨step, p, hrun, -⟩ := Act.succeeds_iff.mp hzoom p₀ hready
    rw [hrun] at hsearch
    exact ⟨step, p, hrun, hsearch⟩
  · -- a lower end away from the start was tried, with its gradient, before it became the end
    obtain ⟨lo, hi, rfl, horder, hp⟩ := hend.ready hseen hc₂ hslope hready
    refine ⟨lo, rfl, fun hpos => ⟨horder.decreases, ?_⟩⟩
    obtain ⟨g, hg, hrun⟩ := Probe.run_stepLength_of_meets hp ⟨rfl, hpos⟩ ⟨rfl, hpos⟩
    refine ⟨g, hg, ?_⟩
    rw [hend.run_zoomInto]
    unfold settle
    rw [if_pos (zero_lt_real.mpr hpos)]
    exact hrun

/-! ### A zoom between two hollows -/

open Surface (hollows onward inFirst)

/-- A search whose first trial lies beyond the second hollow zooms back. -/
theorem calls_hollows : ∃ line p₀,
    (ofReal 2 1e-4 0.9 1).Calls hollows.operator onward inFirst ⟨{}, (), [], false, real 0⟩ line
      ⟨real 0, real 2, real ((hollows.profile 0 onward).value 0)⟩ p₀ := by
  have hseen := Surface.seen_inFirst
  obtain ⟨_, u, hcurrent, g, rfl, hg⟩ := Act.succeeds_iff.mp (LineSearch.succeeds_current hseen)
    ⟨{}, (), [], false, real 0⟩ trivial
  obtain ⟨_, p, hcost, rfl, -⟩ := Act.succeeds_iff.mp
    (Probe.succeeds_cost_at (hseen.value_ahead 2 two_pos)) _ (meets_origin u)
  -- the only trial the search may make decreases the cost too little
  have hhigh : (ofReal 2 1e-4 0.9 1).tooHigh (lineOf (hollows.profile 0 onward) 0 onward g) (real 2)
      (real ((hollows.profile 0 onward).value 2)) = true := by
    rw [tooHigh_lineOf_iff, Surface.hollows_decreases_iff]
    norm_num
  have hbracket : ((ofReal 2 1e-4 0.9 1).bracketing hollows.operator
      (lineOf (hollows.profile 0 onward) 0 onward g) 1 true 0.0
      (real ((hollows.profile 0 onward).value 0)) (real 2)).run ⟨{}, u⟩ =
        (.ok (.inr ⟨0.0, real 2, real ((hollows.profile 0 onward).value 0)⟩), p) := by
    -- so the first trial closes the bracket
    unfold bracketing
    refine (Act.run_bind_of_ok hcost).trans ?_
    rw [hhigh]
    rfl
  rw [zero_eq] at hbracket
  have hinner : Space.innerWith (some g) (some g) onward =
      .ok (real ((hollows.profile 0 onward).slope 0)) := by
    rw [← hg]
    rfl
  refine ⟨_, p, .intro hcurrent hinner ?_ ?_⟩
  · rw [zero_eq, real_le, not_le]
    exact Surface.hollows_slope_zero
  · rw [zero_eq]
    exact hbracket

/-- The slope at the origin leads into the bracket of this zoom, up to the first trial, and the
search ends. -/
theorem zoom_keeps_order_hollows : ∃ line p₀,
    (ofReal 2 1e-4 0.9 1).Calls hollows.operator onward inFirst ⟨{}, (), [], false, real 0⟩ line
      ⟨real 0, real 2, real ((hollows.profile 0 onward).value 0)⟩ p₀ ∧
    (∃ step u, ((ofReal 2 1e-4 0.9 1).search hollows.operator onward inFirst).run
      ⟨{}, (), [], false, real 0⟩ = (.ok step, u)) ∧
    (hollows.profile 0 onward).slope 0 * (2 - 0) < 0 := by
  obtain ⟨line, p₀, hcalls⟩ := calls_hollows
  obtain ⟨lo₀, hi₀, -, hpasses, ⟨step, p, -, hsearch⟩, -⟩ :=
    zoom_keeps_order Surface.seen_inFirst Surface.hollows_slope_zero two_pos
      (by norm_num : (0 : ℝ) < 0.9) hcalls
  refine ⟨line, p₀, hcalls, ⟨step, _, hsearch⟩, ?_⟩
  obtain ⟨lo, hi, hb, -, -, -, -, hdescends, -⟩ := hpasses 0 _ _ .first
  simp only [Bracket.mk.injEq, real_injective.eq_iff] at hb
  obtain ⟨rfl, rfl, -⟩ := hb
  exact hdescends

end Wolfe

end Descent
