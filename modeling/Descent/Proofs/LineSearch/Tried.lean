import Descent.Proofs.Act.Triple
import Descent.Proofs.Exact.Surface
import Descent.Proofs.LineSearch.Beside
import Descent.Proofs.LineSearch.Rules

/-!
# What a search has tried

Along its line a search is told the values and the slopes of a `Profile`: at the origin by the
state, or by the operator where the state lacks them, and ahead of it by the operator
(`Profile.Seen`).

The trials of a search are the step lengths at whose points it asks for the cost, as a recording of
its operator notes them (`costPoints`).  `Probe.Met` says of a probe which trials were made and
where the slope was taken, and that its ray knows this and nothing else.  Each cost and slope that
is taken at a new step length is added to it (`Probe.succeeds_cost`, `Probe.succeeds_gradient`), so
what comes with a step length in the end (`Probe.succeeds_stepLength`) says what was done there.
-/

open scoped RealInnerProductSpace

namespace Descent

open Act (Succeeds Triple)
open Exact

/-! ### Calls for the cost -/

section

variable {R V M : Type}

/-- The point of a call for the cost. -/
def Evaluation.costPoint? : Evaluation R V M → Option V
  | cost x _ => some x
  | _ => none

/-- The points that the cost was asked for, one after the other. -/
def costPoints (calls : List (Evaluation R V M)) : List V := calls.filterMap Evaluation.costPoint?

@[simp]
theorem costPoints_cost (calls : List (Evaluation R V M)) (x : V)
    (answer : Except (Fault R) (Value R)) :
    costPoints (calls ++ [.cost x answer]) = costPoints calls ++ [x] := by
  simp [costPoints, Evaluation.costPoint?]

@[simp]
theorem costPoints_gradient (calls : List (Evaluation R V M)) (x : V)
    (answer : Except (Fault R) (Option V)) :
    costPoints (calls ++ [.gradient x answer]) = costPoints calls := by
  simp [costPoints, Evaluation.costPoint?]

/-- The session with an operator that notes its calls, none of which was made yet. -/
def Session.recording {σ : Type} (V M : Type) (u : Session R σ) :
    Session R (σ × List (Evaluation R V M)) where
  counts := u.counts
  world := (u.world, [])
  journal := u.journal
  debug := u.debug
  elapsed := u.elapsed

end

variable {n : ℕ} {M σ : Type} {op : Operator Exact (Vec n) M σ} {x y d : Vec n} {c m α : ℝ}

/-! ### Operators that answer with real numbers -/

namespace Operator

/-- At the point the operator answers with the real cost, whatever state it is in. -/
structure CostsAt (op : Operator Exact (Vec n) M σ) (y : Vec n) (c : ℝ) : Prop where
  provides : op.provides .cost = true
  answers : ∀ w, ∃ v w',
    (op.evaluate .cost op.cost y).run w = (.ok v, w') ∧ v.toReal = .ok (real c)

/-- At the point the operator answers with a gradient of the real slope in the direction, whatever
state it is in. -/
structure SlopesAt (op : Operator Exact (Vec n) M σ) (d y : Vec n) (m : ℝ) : Prop where
  provides : op.provides .gradient = true
  answers : ∀ w, ∃ g w',
    (op.evaluate .gradient op.gradient y).run w = (.ok (some g), w') ∧ ⟪g, d⟫ = m

end Operator

namespace Session

variable {points : List (Vec n)}

/-- The cost was asked for at the points, as is noted. -/
def Asked (points : List (Vec n)) (u : Session Exact (σ × List (Evaluation Exact (Vec n) M))) :
    Prop :=
  costPoints u.world.2 = points

theorem succeeds_costValue (h : op.CostsAt y c) :
    Succeeds (Asked points) (costValue op.recorded (some y)) fun v u =>
      v = real c ∧ Asked (points ++ [y]) u := by
  rw [Act.succeeds_iff]
  intro u hu
  obtain ⟨v, w', hrun, hv⟩ := h.answers u.world.1
  have hnoted : (op.recorded.evaluate .cost op.recorded.cost y).run u.world =
      (.ok v, (w', u.world.2 ++ [.cost y (.ok v)])) := by
    show (Operator.noting Evaluation.cost (op.evaluate .cost op.cost) y).run u.world = _
    rw [Operator.run_noting, hrun]
  have hcost : (cost op.recorded (some y)).run u =
      (.ok v, u.charged .cost (w', u.world.2 ++ [.cost y (.ok v)])) := by
    unfold cost
    rw [run_evaluate ((op.provides_recorded .cost).trans h.provides), hnoted]
  refine ⟨real c, u.charged .cost (w', u.world.2 ++ [.cost y (.ok v)]), ?_, rfl, ?_⟩
  · unfold costValue
    rw [Act.run_bind_of_ok hcost, Act.run_lift, hv]
  · show costPoints (u.world.2 ++ [.cost y (.ok v)]) = points ++ [y]
    rw [costPoints_cost, hu]

theorem succeeds_gradient (h : op.SlopesAt d y m) :
    Succeeds (Asked points) (gradient op.recorded (some y)) fun g u =>
      (∃ v, g = some v ∧ ⟪v, d⟫ = m) ∧ Asked points u := by
  rw [Act.succeeds_iff]
  intro u hu
  obtain ⟨v, w', hrun, hv⟩ := h.answers u.world.1
  have hnoted : (op.recorded.evaluate .gradient op.recorded.gradient y).run u.world =
      (.ok (some v), (w', u.world.2 ++ [.gradient y (.ok (some v))])) := by
    show (Operator.noting Evaluation.gradient (op.evaluate .gradient op.gradient) y).run u.world = _
    rw [Operator.run_noting, hrun]
  refine ⟨some v, u.charged .gradient (w', u.world.2 ++ [.gradient y (.ok (some v))]), ?_,
    ⟨v, rfl, hv⟩, ?_⟩
  · unfold gradient
    rw [run_evaluate ((op.provides_recorded .gradient).trans h.provides), hnoted]
  · show costPoints (u.world.2 ++ [.gradient y (.ok (some v))]) = points
    rw [costPoints_gradient, hu]

end Session

/-! ### What a search is told -/

/-- The value at the origin is told by the state, or by the operator when it is asked for it; the
list is of the points at which it is. -/
inductive Profile.Opens (φ : Profile) (op : Operator Exact (Vec n) M σ) (x : Vec n)
    (s : State Exact (Vec n) M) : List (Vec n) → Prop
  | told (h : s.cost.measured = .ok (real (φ.value 0))) : Opens φ op x s []
  | asked {c : Exact} (h : s.cost.measured = .ok c) (hnan : Scalar.isNaN c = true)
      (hcost : op.CostsAt x (φ.value 0)) : Opens φ op x s [x]

/-- What a search along the line from a state is told is the profile. -/
structure Profile.Seen (φ : Profile) (op : Operator Exact (Vec n) M σ) (x d : Vec n)
    (s : State Exact (Vec n) M) (opening : List (Vec n)) : Prop where
  param : s.param = some x
  opens : φ.Opens op x s opening
  slopes : (∃ g, s.grad = some g ∧ ⟪g, d⟫ = φ.slope 0) ∨
    s.grad = none ∧ op.SlopesAt d x (φ.slope 0)
  value_ahead : ∀ α, 0 < α → op.CostsAt (x + α • d) (φ.value α)
  slope_ahead : ∀ α, 0 < α → op.SlopesAt d (x + α • d) (φ.slope α)

/-- What a search is told on a surface is the profile of the surface. -/
theorem Surface.Placed.seen {f : Surface n} {s : State Exact (Vec n) (Mat n)} (h : f.Placed x s) :
    (f.profile x d).Seen f.operator x d s [] where
  param := h.param
  opens := .told (by rw [h.cost, f.profile_value_zero]; rfl)
  slopes := .inl ⟨_, h.grad, (f.profile_slope_zero x d).symm⟩
  value_ahead _ _ := ⟨rfl, fun _ => ⟨_, _, rfl, rfl⟩⟩
  slope_ahead _ _ := ⟨rfl, fun _ => ⟨_, _, rfl, rfl⟩⟩

variable {φ : Profile} {s : State Exact (Vec n) M} {opening : List (Vec n)} {T S : List ℝ}

namespace LineSearch

/-- A search begins with the value and the slope at the origin.  What is known of the session may
depend on where the cost was asked for. -/
theorem current_of_seen {υ : Type} {op' : Operator Exact (Vec n) M υ}
    {A : List (Vec n) → Session Exact υ → Prop} (h : φ.Seen op x d s opening)
    (hcost : op.CostsAt x (φ.value 0) →
      Succeeds (A []) (Session.costValue op' (some x)) fun cost u =>
        cost = real (φ.value 0) ∧ A [x] u)
    (hgrad : op.SlopesAt d x (φ.slope 0) →
      Succeeds (A opening) (Session.gradient op' (some x)) fun grad u =>
        (∃ g, grad = some g ∧ ⟪g, d⟫ = φ.slope 0) ∧ A opening u) :
    Succeeds (A []) (current op' s) fun known u =>
      (∃ g, known = (real (φ.value 0), some g) ∧ ⟪g, d⟫ = φ.slope 0) ∧ A opening u := by
  refine triple_current (C := fun cost u => cost = real (φ.value 0) ∧ A opening u) ?_
    fun cost => Triple.assume ?_
  · cases h.opens with
    | told hknown =>
      rw [costAt_of_known hknown isNaN_real]
      exact .pure fun u hu => ⟨rfl, hu⟩
    | asked hmeasured hnan hop =>
      rw [costAt_of_unknown hmeasured hnan, h.param]
      exact hcost hop
  · rintro rfl
    rcases h.slopes with ⟨g, hg, hslope⟩ | ⟨hnone, hop⟩
    · rw [gradientAt_of_some hg]
      exact .pure fun u hu => ⟨⟨g, rfl, hslope⟩, hu⟩
    · rw [gradientAt_of_none hnone, h.param]
      refine (hgrad hop).post ?_
      rintro _ u ⟨⟨g, rfl, hslope⟩, hu⟩
      exact ⟨⟨g, rfl, hslope⟩, hu⟩

end LineSearch

/-! ### What a ray knows -/

theorem Ray.known_cons_real {β : Type} {a b : ℝ} {v : β} {rest : List (Exact × β)} :
    known (real a) ((real b, v) :: rest) = if a = b then some v else known (real a) rest := by
  show (if real b ≤ real a ∧ real a ≤ real b then some v else known (real a) rest) = _
  congr 1
  rw [real_le, real_le, ← le_antisymm_iff]
  exact propext eq_comm

/-- The ray knows the values at the trials `T` and gradients of the slopes at the step lengths `S`,
and nothing else. -/
structure Ray.Knows (φ : Profile) (d : Vec n) (T S : List ℝ) (ray : Ray Exact (Vec n)) : Prop where
  value : ∀ α ∈ T, known (real α) ray.costs = some (real (φ.value α))
  untried : ∀ α, α ∉ T → known (real α) ray.costs = none
  slope : ∀ α ∈ S, ∃ g, known (real α) ray.grads = some (some g) ∧ ⟪g, d⟫ = φ.slope α
  untaken : ∀ α, α ∉ S → known (real α) ray.grads = none

namespace Ray.Knows

variable {ray : Ray Exact (Vec n)}

theorem nothing : Knows φ d [] [] {} where
  value := nofun
  untried _ _ := rfl
  slope := nofun
  untaken _ _ := rfl

/-- A trial adds its value. -/
theorem tried (h : ray.Knows φ d T S) (α : ℝ) :
    Knows φ d (T ++ [α]) S { ray with costs := (real α, real (φ.value α)) :: ray.costs } where
  value β hβ := by
    rw [known_cons_real]
    split
    next heq => rw [heq]
    next hne =>
      refine h.value β ?_
      simpa [hne] using hβ
  untried β hβ := by
    simp only [List.mem_append, List.mem_singleton, not_or] at hβ
    rw [known_cons_real, if_neg hβ.2]
    exact h.untried β hβ.1
  slope := h.slope
  untaken := h.untaken

/-- Where a gradient is taken its slope is added. -/
theorem taken (h : ray.Knows φ d T S) {g : Vec n} (hg : ⟪g, d⟫ = φ.slope α) :
    Knows φ d T (S ++ [α]) { ray with grads := (real α, some g) :: ray.grads } where
  value := h.value
  untried := h.untried
  slope β hβ := by
    rw [known_cons_real]
    split
    next heq => exact ⟨g, rfl, heq ▸ hg⟩
    next hne =>
      refine h.slope β ?_
      simpa [hne] using hβ
  untaken β hβ := by
    simp only [List.mem_append, List.mem_singleton, not_or] at hβ
    rw [known_cons_real, if_neg hβ.2]
    exact h.untaken β hβ.1

/-- A step length that was not tried has neither a cost nor a gradient. -/
theorem stepLength_untried (h : ray.Knows φ d T S) (hT : α ∉ T) (hS : α ∉ S) :
    ray.stepLength (real α) = ⟨real α, none, none⟩ := by
  unfold Ray.stepLength
  rw [h.untried α hT, h.untaken α hS]
  rfl

end Ray.Knows

namespace Probe

/-- The cost was asked for at the points of the opening and of the trials `T`, and the slope was
taken at the step lengths `S`. -/
structure Met (φ : Profile) (x d : Vec n) (opening : List (Vec n)) (T S : List ℝ)
    (p : Probe Exact (Vec n) (σ × List (Evaluation Exact (Vec n) M))) : Prop where
  asked : p.session.Asked (opening ++ T.map fun α => x + α • d)
  knows : p.ray.Knows φ d T S

/-- At a new trial the cost is asked for. -/
theorem succeeds_cost (hop : op.CostsAt (x + α • d) (φ.value α)) (hnew : α ∉ T) :
    Succeeds (Met φ x d opening T S) (cost op.recorded (some x) d (real α)) fun trial p =>
      trial = real (φ.value α) ∧ Met φ x d opening (T ++ [α]) S p := by
  unfold cost
  refine Triple.get_bind fun p hp => ?_
  rw [hp.knows.untried α hnew, Surface.point_real]
  refine (Triple.lift (Act.Raises.ok _)).bind fun y => Triple.assume fun hy => ?_
  cases hy
  have hcost : Succeeds (Met φ x d opening T S)
      (inSession (Session.costValue op.recorded (some (x + α • d)))) fun trial p =>
        trial = real (φ.value α) ∧
          p.session.Asked (opening ++ (T ++ [α]).map fun α => x + α • d) ∧
            p.ray.Knows φ d T S := by
    refine (Session.succeeds_costValue hop).zoom (fun p hp => hp.asked) fun p trial u hp hu => ?_
    rw [List.map_append, ← List.append_assoc]
    exact ⟨hu.1, hu.2, hp.knows⟩
  refine hcost.bind fun trial => Triple.assume ?_
  rintro rfl
  refine (Triple.modify fun p hp => ?_).bind fun _ => .pure fun p hp => ⟨rfl, hp⟩
  exact ⟨hp.1, hp.2.tried α⟩

/-- At a new step length the slope is taken. -/
theorem succeeds_gradient (hop : op.SlopesAt d (x + α • d) (φ.slope α)) (hnew : α ∉ S) :
    Succeeds (Met φ x d opening T S) (gradient op.recorded (some x) d (real α)) fun grad p =>
      (∃ g, grad = some g ∧ ⟪g, d⟫ = φ.slope α) ∧ Met φ x d opening T (S ++ [α]) p := by
  unfold gradient
  refine Triple.get_bind fun p hp => ?_
  rw [hp.knows.untaken α hnew, Surface.point_real]
  refine (Triple.lift (Act.Raises.ok _)).bind fun y => Triple.assume fun hy => ?_
  cases hy
  have hgrad : Succeeds (Met φ x d opening T S)
      (inSession (Session.gradient op.recorded (some (x + α • d)))) fun grad p =>
        (∃ g, grad = some g ∧ ⟪g, d⟫ = φ.slope α) ∧ Met φ x d opening T S p :=
    (Session.succeeds_gradient hop).zoom (fun p hp => hp.asked) fun p grad u hp hu =>
      ⟨hu.1, hu.2, hp.knows⟩
  refine hgrad.bind fun grad => Triple.assume ?_
  rintro ⟨g, rfl, hg⟩
  refine (Triple.modify fun p hp => ?_).bind fun _ => .pure fun p hp => ⟨⟨g, rfl, hg⟩, hp⟩
  exact ⟨hp.asked, hp.knows.taken hg⟩

/-- A step length is returned with its cost and its gradient if both were met there. -/
theorem succeeds_stepLength (hT : α ∈ T) (hS : α ∈ S) :
    Succeeds (Met φ x d opening T S)
      (stepLength (real α) :
        Act Exact (Probe Exact (Vec n) (σ × List (Evaluation Exact (Vec n) M))) _) fun step p =>
      (∃ g, step = ⟨real α, some (real (φ.value α)), some g⟩ ∧ ⟪g, d⟫ = φ.slope α) ∧
        Met φ x d opening T S p := by
  unfold stepLength Ray.stepLength
  refine Triple.get_bind fun p hp => ?_
  obtain ⟨g, hg, hslope⟩ := hp.knows.slope α hS
  rw [hp.knows.value α hT, hg]
  exact .pure fun p hp => ⟨⟨g, rfl, hslope⟩, hp⟩

end Probe

/-- A search along a ray begins with nothing met. -/
theorem LineSearch.succeeds_along {α : Type}
    {a : Act Exact (Probe Exact (Vec n) (σ × List (Evaluation Exact (Vec n) M))) α}
    {Q : α → List ℝ → Prop} (h : Succeeds (Probe.Met φ x d opening [] []) a fun y p =>
      ∃ T S, Q y T ∧ p.Met φ x d opening T S) :
    Succeeds (Session.Asked opening) (along a) fun y u =>
      ∃ T, Q y T ∧ u.Asked (opening ++ T.map fun α => x + α • d) := by
  show Succeeds _ (Act.zoom (fun u => ⟨{}, u⟩) (fun p _ => p.session) a) _
  refine h.zoom (fun u hu => ⟨?_, .nothing⟩) fun u y p _ hp => ?_
  · rw [List.map_nil, List.append_nil]
    exact hu
  · obtain ⟨T, S, hQ, hmet⟩ := hp
    exact ⟨T, hQ, hmet.asked⟩

end Descent
