import Descent.Proofs.LineSearch.Found
import Descent.Proofs.LineSearch.Noted

/-!
# The first sufficient step length

A backtracking search tries the step lengths `α₀`, `α₀ρ`, `α₀ρ²` and so on, and returns the first
one at which the cost has decreased sufficiently, with that cost and no gradient, or the one after
all trials, with neither (`Backtracking.search_first`).  This is so whatever the direction, and also
where costs are infinite, as long as none is unknown.

What it evaluates is determined as well: the cost and the gradient at the point of the state where
the state lacks them (`Backtracking.OpensCost`, `Backtracking.OpensSlope`), and then the cost at
each trial up to the one it returns.  While it shrinks the step length the ray knows the trials
before, and none of these comes again (`Backtracking.untried_cons`).
-/

open scoped RealInnerProductSpace

namespace Descent

open Act (Succeeds Triple)
open Exact

theorem Exact.known_add_real (e : EReal) (r : ℝ) : known e + real r = known (e + r) := by
  show sum e r = known (e + r)
  have hfinite : ¬ (IsInfinite e ∧ (r : EReal) = -e) := by
    rintro ⟨rfl | rfl, hr⟩
    · exact EReal.coe_ne_bot r (hr.trans EReal.neg_top)
    · exact EReal.coe_ne_top r (hr.trans EReal.neg_bot)
  rw [sum, if_neg hfinite]

variable {n : ℕ} {M σ : Type} {op : Operator Exact (Vec n) M σ} {x y d : Vec n}
  {s : State Exact (Vec n) M}

/-- At the point the operator answers with the cost that `price` says, which may be infinite. -/
def Operator.Prices (op : Operator Exact (Vec n) M σ) (price : Vec n → EReal) (y : Vec n) : Prop :=
  op.CostsWith y fun c => c = known (price y)

namespace Backtracking

variable {α₀ ρ c slope : ℝ} {before : EReal} {price : Vec n → EReal} {maxIter : Int} {k : ℕ}
  {start : Counts}

/-! ### Trials -/

/-- The cost at a step length is at most the one before and the fraction `c` of what the slope
promises. -/
def Sufficient (price : Vec n → EReal) (x d : Vec n) (before : EReal) (c slope α : ℝ) : Prop :=
  price (x + α • d) ≤ before + ((c * α * slope : ℝ) : EReal)

theorem isSufficient_known_iff {α : ℝ} :
    (ofReal α₀ ρ c maxIter).isSufficient (known before) (real slope) (real α)
      (known (price (x + α • d))) = true ↔ Sufficient price x d before c slope α := by
  unfold isSufficient
  rw [decide_eq_true_iff, real_mul, real_mul, known_add_real, known_le]
  rfl

/-- The queries of the first `k` trials. -/
noncomputable def shrinkings (x d : Vec n) (α₀ ρ : ℝ) (k : ℕ) : List (Capability × Vec n) :=
  (List.range k).map fun j => (.cost, x + (α₀ * ρ ^ j) • d)

theorem shrinkings_succ (x d : Vec n) (α₀ ρ : ℝ) (k : ℕ) :
    shrinkings x d α₀ ρ (k + 1) = shrinkings x d α₀ ρ k ++ [(.cost, x + (α₀ * ρ ^ k) • d)] := by
  rw [shrinkings, shrinkings, List.range_succ, List.map_append, List.map_singleton]

/-- What a search of `N` trials at most returns, and after how many: the first step length that is
sufficient, or the one after all trials. -/
inductive Stops (price : Vec n → EReal) (x d : Vec n) (α₀ ρ : ℝ) (sufficient : ℝ → Prop) (N : ℕ) :
    ℕ → StepLength Exact (Vec n) → Prop
  | first {k : ℕ} (hleast : IsLeast {k | k < N ∧ sufficient (α₀ * ρ ^ k)} k) :
      Stops price x d α₀ ρ sufficient N (k + 1)
        ⟨real (α₀ * ρ ^ k), some (known (price (x + (α₀ * ρ ^ k) • d))), none⟩
  | untried (hnone : ∀ k < N, ¬ sufficient (α₀ * ρ ^ k)) :
      Stops price x d α₀ ρ sufficient N N ⟨real (α₀ * ρ ^ N), none, none⟩

section

variable (hα₀ : 0 < α₀) (hρ : 0 < ρ) (hρ₁ : ρ < 1)

include hα₀ hρ hρ₁

/-- The step lengths shrink. -/
theorem shrunk_lt {i j : ℕ} (h : i < j) : α₀ * ρ ^ j < α₀ * ρ ^ i :=
  mul_lt_mul_of_pos_left (pow_lt_pow_right_of_lt_one₀ hρ hρ₁ h) hα₀

/-- The trials after the one that comes on the ray are still not on it. -/
theorem untried_cons {ray : Ray Exact (Vec n)} {v : Exact}
    (h : ∀ i, k ≤ i → Ray.known (real (α₀ * ρ ^ i)) ray.costs = none) (i : ℕ) (hi : k + 1 ≤ i) :
    Ray.known (real (α₀ * ρ ^ i)) ((real (α₀ * ρ ^ k), v) :: ray.costs) = none := by
  rw [Ray.known_cons_real, if_neg (shrunk_lt hα₀ hρ hρ₁ hi).ne]
  exact h i (Nat.le_of_succ_le hi)

/-- Where a search stands before its `k`-th trial: those before it were not sufficient, and those
after it are not on the ray. -/
structure Shrinks (price : Vec n → EReal) (x d : Vec n) (α₀ ρ : ℝ) (sufficient : ℝ → Prop)
    (asked : List (Capability × Vec n)) (calls : List (Evaluation Exact (Vec n) M))
    (ray : Ray Exact (Vec n)) (k : ℕ) (alpha : Exact) : Prop where
  alpha : alpha = real (α₀ * ρ ^ k)
  queries : calls.map Evaluation.query = asked ++ shrinkings x d α₀ ρ k
  untried : ∀ i, k ≤ i → Ray.known (real (α₀ * ρ ^ i)) ray.costs = none
  insufficient : ∀ j < k, ¬ sufficient (α₀ * ρ ^ j)

/-- The trials stop at the first one that is sufficient. -/
theorem succeeds_trials (N : ℕ) {calls : List (Evaluation Exact (Vec n) M)}
    {asked : List (Capability × Vec n)}
    (hprice : ∀ j < N, op.Prices price (x + (α₀ * ρ ^ j) • d))
    (hcalls : calls.map Evaluation.query = asked) :
    Succeeds (Probe.Stands start calls {})
      ((ofReal α₀ ρ c maxIter).trials op.recorded (some x) d (known before) (real slope) N
        (real α₀))
      fun step p => ∃ trials, Stops price x d α₀ ρ (Sufficient price x d before c slope) N
        trials step ∧ p.session.Queried start (asked ++ shrinkings x d α₀ ρ trials) := by
  refine triple_trials (J := fun k alpha p => ∃ calls ray,
      Shrinks price x d α₀ ρ (Sufficient price x d before c slope) asked calls ray k alpha ∧
        p.Stands start calls ray)
    (fun p hp => ⟨calls, {}, ⟨?_, ?_, fun _ _ => rfl, nofun⟩, hp⟩) (fun k hk alpha => ?_) ?_
  · rw [pow_zero, mul_one]
  · rw [hcalls]
    exact (List.append_nil asked).symm
  · refine Triple.of_exists fun calls => Triple.of_exists fun ray => Triple.assume ?_
    rintro ⟨rfl, hqueries, huntried, hnot⟩
    refine (Probe.succeeds_cost_new (hprice k hk) (huntried k le_rfl)).post ?_
    rintro _ p ⟨v, ⟨-, rfl⟩, hp⟩
    have hqueries' : List.map Evaluation.query (calls ++ [.cost (x + (α₀ * ρ ^ k) • d) (.ok v)]) =
        asked ++ shrinkings x d α₀ ρ (k + 1) := by
      rw [List.map_append, hqueries, List.append_assoc, shrinkings_succ]
      rfl
    split
    next hmet =>
      -- the trials before it were not sufficient, so this one is the least
      rw [isSufficient_known_iff] at hmet
      refine ⟨k + 1, .first ⟨⟨hk, hmet⟩, fun j hj => ?_⟩, _, hqueries', hp.noted⟩
      exact not_lt.mp fun hlt => hnot j hlt hj.2
    next hrejected =>
      rw [isSufficient_known_iff] at hrejected
      exact ⟨_, _, ⟨real_shrunk α₀ ρ k, hqueries', untried_cons hα₀ hρ hρ₁ huntried,
        Nat.forall_lt_succ_right.mpr ⟨hnot, hrejected⟩⟩, hp⟩
  · rintro _ p ⟨calls, ray, ⟨rfl, hqueries, huntried, hnot⟩, hp⟩
    rw [hp.ray, huntried N le_rfl]
    exact ⟨N, .untried hnot, calls, hqueries, hp.noted⟩

end

/-! ### The point of the state -/

/-- The cost at the point of a state is told by the state, or asked for where the state does not
know it. -/
inductive OpensCost (op : Operator Exact (Vec n) M σ) (price : Vec n → EReal) (x : Vec n)
    (s : State Exact (Vec n) M) : EReal → List (Capability × Vec n) → Prop
  | told {before : EReal} (h : s.cost.measured = .ok (known before)) :
      OpensCost op price x s before []
  | asked (h : s.cost.measured = .ok .unknown) (hprice : op.Prices price x) :
      OpensCost op price x s (price x) [(.cost, x)]

/-- The slope at the point of a state is that of its gradient, which is asked for where the state
has none. -/
inductive OpensSlope (op : Operator Exact (Vec n) M σ) (x d : Vec n)
    (s : State Exact (Vec n) M) (slope : ℝ) : List (Capability × Vec n) → Prop
  | told {g : Vec n} (h : s.grad = some g) (hslope : ⟪g, d⟫ = slope) : OpensSlope op x d s slope []
  | asked (h : s.grad = none) (hgrad : op.GradientWith x fun g => ⟪g, d⟫ = slope) :
      OpensSlope op x d s slope [(.gradient, x)]

variable {forCost forSlope : List (Capability × Vec n)}

/-- A search begins with the cost and the slope at the point of the state. -/
theorem succeeds_current (hx : s.param = some x) (hcost : OpensCost op price x s before forCost)
    (hgrad : OpensSlope op x d s slope forSlope) :
    Succeeds (Session.Queried start []) (LineSearch.current op.recorded s) fun current u =>
      (∃ g, current = (known before, some g) ∧ ⟪g, d⟫ = slope) ∧
        u.Queried start (forCost ++ forSlope) := by
  refine LineSearch.triple_current
    (C := fun cost u => cost = known before ∧ u.Queried start forCost) ?_
    fun cost => Triple.assume ?_
  · cases hcost with
    | told h =>
      rw [LineSearch.costAt_of_known h rfl]
      exact .pure fun u hu => ⟨rfl, hu⟩
    | asked h hprice =>
      rw [LineSearch.costAt_of_unknown h rfl, hx]
      exact Session.succeeds_costValue_queried hprice
  · rintro rfl
    cases hgrad with
    | told h hslope =>
      rw [LineSearch.gradientAt_of_some h, List.append_nil]
      exact .pure fun u hu => ⟨⟨_, rfl, hslope⟩, hu⟩
    | asked h hgrad =>
      rw [LineSearch.gradientAt_of_none h, hx]
      refine (Session.succeeds_gradient_queried hgrad).post ?_
      rintro _ u ⟨⟨g, rfl, hslope⟩, hu⟩
      exact ⟨⟨g, rfl, hslope⟩, hu⟩

/-! ### Searches -/

/-- On a session the search from a state ends with the step length and is charged for the queries;
and so it ends if the operator notes its calls, which are these queries. -/
structure Asks (b : Backtracking Exact) (op : Operator Exact (Vec n) M σ) (d : Vec n)
    (s : State Exact (Vec n) M) (session : Session Exact σ) (queries : List (Capability × Vec n))
    (step : StepLength Exact (Vec n)) : Prop where
  answers : ∃ u, (b.search op d s).run session = (.ok step, u) ∧
    u.counts = session.counts.chargeAll queries
  asks : ∃ u, (b.search op.recorded d s).run (session.recording (Vec n) M) = (.ok step, u) ∧
    u.Queried session.counts queries

section

variable (hα₀ : 0 < α₀) (hρ : 0 < ρ) (hρ₁ : ρ < 1) (hx : s.param = some x)
  (hcost : OpensCost op price x s before forCost) (hgrad : OpensSlope op x d s slope forSlope)
  (maxIter) (hprice : ∀ j < maxIter.toNat, op.Prices price (x + (α₀ * ρ ^ j) • d))

include hα₀ hρ hρ₁ hx hcost hgrad hprice

theorem succeeds_search :
    Succeeds (Session.Queried start []) ((ofReal α₀ ρ c maxIter).search op.recorded d s)
      fun step u => ∃ trials, Stops price x d α₀ ρ (Sufficient price x d before c slope)
        maxIter.toNat trials step ∧
          u.Queried start (forCost ++ forSlope ++ shrinkings x d α₀ ρ trials) := by
  unfold search
  refine (succeeds_current hx hcost hgrad).bind fun current => Triple.assume ?_
  rintro ⟨g, rfl, hslope⟩
  have hinner : Space.innerWith (some g) (some g) d = .ok (real slope) := by rw [← hslope]; rfl
  show Triple _ _ (Act.lift (Space.innerWith (some g) (some g) d) >>= _) _
  rw [hinner, hx]
  refine (Triple.lift (Act.Raises.ok _)).bind fun slope' => Triple.assume fun hslope' => ?_
  cases hslope'
  refine Triple.of_exists fun calls => Triple.assume fun hcalls => ?_
  refine LineSearch.succeeds_along_noted ?_
  exact succeeds_trials hα₀ hρ hρ₁ maxIter.toNat hprice hcalls

theorem exists_asks (session : Session Exact σ) :
    ∃ trials step, (ofReal α₀ ρ c maxIter).Asks op d s session
        (forCost ++ forSlope ++ shrinkings x d α₀ ρ trials) step ∧
      Stops price x d α₀ ρ (Sufficient price x d before c slope) maxIter.toNat trials step := by
  have hsearch : Succeeds (Session.Queried session.counts [])
      ((ofReal α₀ ρ c maxIter).search op.recorded d s) _ :=
    succeeds_search maxIter hα₀ hρ hρ₁ hx hcost hgrad hprice
  obtain ⟨step, u, hrun, trials, hstops, hqueried⟩ := Act.succeeds_iff.mp hsearch
    (session.recording (Vec n) M) ⟨[], rfl, Session.noted_recording session⟩
  refine ⟨trials, step, ⟨?_, u, hrun, hqueried⟩, hstops⟩
  -- the search goes beside its recording
  have : Nonempty (Session Exact σ) := ⟨session⟩
  have hparam : s.param.isSome = true := by rw [hx]; rfl
  have hbeside := (ofReal α₀ ρ c maxIter).lineSearch_beside (Transcript.serves_recording op .cost)
    (Transcript.serves_recording op .gradient) d s s.maxIters s.time hparam
  obtain ⟨u', hrun', hcounts⟩ := Transcript.run_of_recording hbeside hrun
  exact ⟨u', hrun', hcounts.trans hqueried.charged⟩

/-- **A backtracking search returns the first sufficient step length.**  If one of its trials is
sufficient, it returns the least one with the cost there and no gradient, and has asked for the cost
at the trials up to this one.  Otherwise it returns the step length after all trials with neither,
and has asked for the cost at all trials.  Before these it has asked for what the state lacks at its
point. -/
theorem search_first (session : Session Exact σ) :
    ((∃ k < maxIter.toNat, Sufficient price x d before c slope (α₀ * ρ ^ k)) →
      ∃ k, IsLeast {k | k < maxIter.toNat ∧ Sufficient price x d before c slope (α₀ * ρ ^ k)} k ∧
        (ofReal α₀ ρ c maxIter).Asks op d s session
          (forCost ++ forSlope ++ shrinkings x d α₀ ρ (k + 1))
          ⟨real (α₀ * ρ ^ k), some (known (price (x + (α₀ * ρ ^ k) • d))), none⟩) ∧
    ((∀ k < maxIter.toNat, ¬ Sufficient price x d before c slope (α₀ * ρ ^ k)) →
      (ofReal α₀ ρ c maxIter).Asks op d s session
        (forCost ++ forSlope ++ shrinkings x d α₀ ρ maxIter.toNat)
        ⟨real (α₀ * ρ ^ maxIter.toNat), none, none⟩) := by
  obtain ⟨trials, step, hasks, hstops⟩ :=
    exists_asks (c := c) maxIter hα₀ hρ hρ₁ hx hcost hgrad hprice session
  cases hstops with
  | first hleast =>
    exact ⟨fun _ => ⟨_, hleast, hasks⟩, fun hnone => absurd hleast.1.2 (hnone _ hleast.1.1)⟩
  | untried hnone =>
    refine ⟨?_, fun _ => hasks⟩
    rintro ⟨k, hk, hsufficient⟩
    exact absurd hsufficient (hnone k hk)

end

open Surface (hollows onward inFirst)

theorem sufficient_hollows_iff (α : ℝ) :
    Sufficient (fun y => (hollows.value y : EReal)) 0 onward ((hollows.profile 0 onward).value 0) c
      ((hollows.profile 0 onward).slope 0) α ↔ (hollows.profile 0 onward).Decreases c α := by
  unfold Sufficient Profile.Decreases
  rw [← EReal.coe_add, EReal.coe_le_coe_iff]
  rfl

/-- From the first hollow the first trial goes too far and the second one finds the other hollow. -/
theorem search_first_hollows :
    (ofReal 2 0.5 1e-4 50).Asks hollows.operator onward inFirst ⟨{}, (), [], false, real 0⟩
      [(.cost, 0 + (2 : ℝ) • onward), (.cost, 0 + (1 : ℝ) • onward)]
      ⟨real 1, some (real (hollows.value (0 + (1 : ℝ) • onward))), none⟩ := by
  have hcost : OpensCost hollows.operator (fun y => (hollows.value y : EReal)) 0 inFirst
      ((hollows.profile 0 onward).value 0) [] := by
    rw [Surface.profile_value_zero]
    exact .told rfl
  have hgrad : OpensSlope hollows.operator 0 onward inFirst
      ((hollows.profile 0 onward).slope 0) [] := by
    rw [Surface.profile_slope_zero]
    exact .told rfl rfl
  -- the problem answers everywhere
  have hprice : ∀ y, hollows.operator.Prices (fun y => (hollows.value y : EReal)) y := fun y =>
    ⟨rfl, fun w => ⟨_, w, rfl, _, rfl, rfl⟩⟩
  obtain ⟨hfirst, -⟩ := search_first (c := 1e-4) 50 two_pos (by norm_num : (0 : ℝ) < 0.5)
    (by norm_num) rfl hcost hgrad (fun j _ => hprice _) ⟨{}, (), [], false, real 0⟩
  simp only [sufficient_hollows_iff, Surface.hollows_decreases_iff] at hfirst
  obtain ⟨k, hleast, hasks⟩ := hfirst ⟨1, by decide, by norm_num⟩
  have hle : k ≤ 1 := hleast.2 ⟨by decide, by norm_num⟩
  -- a step of `2` does not decrease the cost enough
  have hne : k ≠ 0 := by
    rintro rfl
    have hfar := hleast.1.2
    norm_num at hfar
  obtain rfl : k = 1 := by omega
  have hone : (2 * 0.5 ^ 1 : ℝ) = 1 := by norm_num
  rw [hone, List.nil_append, shrinkings_succ, shrinkings_succ, hone, pow_zero, mul_one] at hasks
  exact hasks

end Backtracking

end Descent
