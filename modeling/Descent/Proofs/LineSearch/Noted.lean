import Descent.Proofs.LineSearch.Tried

/-!
# What is noted of a run

A run whose operator notes its calls keeps the whole list of them, and what it has charged is the
charge for each (`Session.Noted`).  An evaluation that the operator answers adds its call
(`Session.succeeds_evaluate`).  The run itself ends as its recording does, and is charged as much
(`Transcript.run_of_recording`).
-/

namespace Descent

open Act (Succeeds Triple)

variable {R V M σ α : Type}

/-! ### Calls -/

/-- What the operator was called for, and at which point. -/
def Evaluation.query : Evaluation R V M → Capability × V
  | cost x _ => (.cost, x)
  | gradient x _ => (.gradient, x)
  | hessian x _ => (.hessian, x)

/-- The counts after charging for the queries. -/
def Counts.chargeAll (c : Counts) (queries : List (Capability × V)) : Counts :=
  queries.foldl (fun c q => c.charge q.1) c

/-- The calls are those that were noted, and all that was charged, from `start` on, is the charge
for each of them. -/
structure Session.Noted (start : Counts) (calls : List (Evaluation R V M))
    (u : Session R (σ × List (Evaluation R V M))) : Prop where
  noted : u.world.2 = calls
  charged : u.counts = start.chargeAll (calls.map Evaluation.query)

namespace Session

variable {start : Counts} {calls : List (Evaluation R V M)} {op : Operator R V M σ}
  {cap : Capability} {y : V}

theorem noted_recording (u : Session R σ) : (u.recording V M).Noted u.counts [] := ⟨rfl, rfl⟩

/-- A call that was charged for and noted is added to those before. -/
theorem Noted.charge {u : Session R (σ × List (Evaluation R V M))} (h : u.Noted start calls)
    {e : Evaluation R V M} (he : e.query = (cap, y)) {w : σ} :
    (u.charged cap (w, u.world.2 ++ [e])).Noted start (calls ++ [e]) where
  noted := congrArg (· ++ [e]) h.noted
  charged := by
    rw [List.map_append, List.map_singleton, he, Counts.chargeAll, List.foldl_append]
    exact congrArg (·.charge cap) h.charged

/-- These were the queries, and all that was charged, from `start` on, is the charge for each. -/
def Queried (start : Counts) (queries : List (Capability × V))
    (u : Session R (σ × List (Evaluation R V M))) : Prop :=
  ∃ calls, calls.map Evaluation.query = queries ∧ u.Noted start calls

theorem Queried.charged {queries : List (Capability × V)}
    {u : Session R (σ × List (Evaluation R V M))} (h : u.Queried start queries) :
    u.counts = start.chargeAll queries := by
  obtain ⟨calls, rfl, hnoted⟩ := h
  exact hnoted.charged

/-- An evaluation is charged for and noted, with the operator's answer. -/
theorem run_evaluate_recorded (note : V → Except (Fault R) α → Evaluation R V M)
    {f : Option (V → Act R σ α)} (hcap : op.provides cap = true)
    (u : Session R (σ × List (Evaluation R V M))) {r : Except (Fault R) α} {w : σ}
    (hrun : (op.evaluate cap f y).run u.world.1 = (r, w)) :
    (evaluate op.recorded cap (some (Operator.noting note (op.evaluate cap f))) (some y)).run u =
      (r, u.charged cap (w, u.world.2 ++ [note y r])) := by
  have hnoted : (op.recorded.evaluate cap
      (some (Operator.noting note (op.evaluate cap f))) y).run u.world =
        (r, (w, u.world.2 ++ [note y r])) := by
    show (Operator.noting note (op.evaluate cap f) y).run u.world = _
    rw [Operator.run_noting, hrun]
  rw [run_evaluate ((op.provides_recorded cap).trans hcap), hnoted]

/-- An evaluation that is answered whatever state the operator is in adds its call. -/
theorem succeeds_evaluate {note : V → Except (Fault R) α → Evaluation R V M}
    {f : Option (V → Act R σ α)} {P : α → Prop} (hcap : op.provides cap = true)
    (hquery : ∀ r, (note y r).query = (cap, y))
    (hanswers : ∀ w, ∃ v w', (op.evaluate cap f y).run w = (.ok v, w') ∧ P v) :
    Succeeds (Noted start calls)
      (evaluate op.recorded cap (some (Operator.noting note (op.evaluate cap f))) (some y))
      fun v u => P v ∧ u.Noted start (calls ++ [note y (.ok v)]) := by
  rw [Act.succeeds_iff]
  intro u hu
  obtain ⟨v, w, hrun, hv⟩ := hanswers u.world.1
  exact ⟨v, _, run_evaluate_recorded note hcap u hrun, hv, hu.charge (hquery _)⟩

end Session

/-! ### Operators that answer -/

namespace Operator

variable {op : Operator R V M σ} {y : V}

/-- At the point the operator answers with a cost in `P`, whatever state it is in. -/
structure CostsWith [Scalar R] (op : Operator R V M σ) (y : V) (P : R → Prop) : Prop where
  provides : op.provides .cost = true
  answers : ∀ w, ∃ v w',
    (op.evaluate .cost op.cost y).run w = (.ok v, w') ∧ ∃ c, v.toReal = .ok c ∧ P c

/-- At the point the operator answers with a gradient in `P`, whatever state it is in. -/
structure GradientWith (op : Operator R V M σ) (y : V) (P : V → Prop) : Prop where
  provides : op.provides .gradient = true
  answers : ∀ w, ∃ o w',
    (op.evaluate .gradient op.gradient y).run w = (.ok o, w') ∧ ∃ g, o = some g ∧ P g

end Operator

namespace Session

variable {start : Counts} {calls : List (Evaluation R V M)} {op : Operator R V M σ} {y : V}

theorem succeeds_costValue_of_costsWith [Scalar R] {P : R → Prop} (h : op.CostsWith y P) :
    Succeeds (Noted start calls) (costValue op.recorded (some y)) fun c u =>
      ∃ v, (v.toReal = .ok c ∧ P c) ∧ u.Noted start (calls ++ [.cost y (.ok v)]) := by
  unfold costValue
  refine (succeeds_evaluate h.provides (fun _ => rfl) h.answers).bind fun v => Triple.assume ?_
  rintro ⟨c, hv, hc⟩
  rw [hv]
  refine (Triple.lift (Act.Raises.ok _)).post ?_
  rintro _ u ⟨⟨⟩, hu⟩
  exact ⟨v, ⟨hv, hc⟩, hu⟩

theorem succeeds_gradient_of_gradientWith {P : V → Prop} (h : op.GradientWith y P) :
    Succeeds (Noted start calls) (gradient op.recorded (some y)) fun o u =>
      ∃ g, (o = some g ∧ P g) ∧ u.Noted start (calls ++ [.gradient y (.ok (some g))]) := by
  refine (succeeds_evaluate h.provides (fun _ => rfl) h.answers).post ?_
  rintro _ u ⟨⟨g, rfl, hg⟩, hu⟩
  exact ⟨g, ⟨rfl, hg⟩, hu⟩

variable {queries : List (Capability × V)}

theorem succeeds_costValue_queried [Scalar R] {P : R → Prop} (h : op.CostsWith y P) :
    Succeeds (Queried start queries) (costValue op.recorded (some y)) fun c u =>
      P c ∧ u.Queried start (queries ++ [(.cost, y)]) := by
  refine Triple.of_exists fun calls => Triple.assume ?_
  rintro rfl
  refine (succeeds_costValue_of_costsWith h).post ?_
  rintro c u ⟨v, ⟨-, hc⟩, hu⟩
  exact ⟨hc, _, List.map_append, hu⟩

theorem succeeds_gradient_queried {P : V → Prop} (h : op.GradientWith y P) :
    Succeeds (Queried start queries) (gradient op.recorded (some y)) fun o u =>
      (∃ g, o = some g ∧ P g) ∧ u.Queried start (queries ++ [(.gradient, y)]) := by
  refine Triple.of_exists fun calls => Triple.assume ?_
  rintro rfl
  refine (succeeds_gradient_of_gradientWith h).post ?_
  rintro o u ⟨g, hg, hu⟩
  exact ⟨⟨g, hg⟩, _, List.map_append, hu⟩

end Session

/-! ### Along a ray -/

namespace Probe

/-- The calls are noted of the session, and this is the ray. -/
structure Stands (start : Counts) (calls : List (Evaluation R V M)) (ray : Ray R V)
    (p : Probe R V (σ × List (Evaluation R V M))) : Prop where
  noted : p.session.Noted start calls
  ray : p.ray = ray

end Probe

section

open Exact

variable {n : ℕ} {op : Operator Exact (Vec n) M σ} {x d : Vec n} {a : ℝ} {start : Counts}
  {calls : List (Evaluation Exact (Vec n) M)} {ray : Ray Exact (Vec n)}

namespace Probe

/-- A step of the session leaves the ray as it is. -/
theorem succeeds_inSession {a : Act Exact (Session Exact (σ × List (Evaluation Exact (Vec n) M))) α}
    {ι : Type} {P : α → ι → Prop} {calls' : ι → List (Evaluation Exact (Vec n) M)}
    (h : Succeeds (Session.Noted start calls) a fun y u =>
      ∃ v, P y v ∧ u.Noted start (calls' v)) :
    Succeeds (Stands start calls ray) (inSession a) fun y p =>
      ∃ v, P y v ∧ p.Stands start (calls' v) ray := by
  refine h.zoom (fun p hp => hp.noted) ?_
  rintro p y u hp ⟨v, hv, hu⟩
  exact ⟨v, hv, hu, hp.ray⟩

/-- At a new step length the cost is asked for, and remembered. -/
theorem succeeds_cost_new {P : Exact → Prop} (hop : op.CostsWith (x + a • d) P)
    (hnew : Ray.known (real a) ray.costs = none) :
    Succeeds (Stands start calls ray) (cost op.recorded (some x) d (real a)) fun c p =>
      ∃ v, (v.toReal = .ok c ∧ P c) ∧
        p.Stands start (calls ++ [.cost (x + a • d) (.ok v)])
          { ray with costs := (real a, c) :: ray.costs } := by
  unfold cost
  refine Triple.get_bind fun p hp => ?_
  rw [hp.ray, hnew, Surface.point_real]
  refine (Triple.lift (Act.Raises.ok _)).bind fun y => Triple.assume fun hy => ?_
  cases hy
  refine (succeeds_inSession (Session.succeeds_costValue_of_costsWith hop)).bind fun c =>
    Triple.of_exists fun v => Triple.assume fun hv => ?_
  refine (Triple.modify fun p hp => ?_).bind fun _ => .pure fun p hp => ⟨v, hv, hp⟩
  exact ⟨hp.noted, congrArg (fun r : Ray Exact (Vec n) =>
    { r with costs := (real a, c) :: r.costs }) hp.ray⟩

/-- At a new step length the gradient is asked for, and remembered. -/
theorem succeeds_gradient_new {P : Vec n → Prop} (hop : op.GradientWith (x + a • d) P)
    (hnew : Ray.known (real a) ray.grads = none) :
    Succeeds (Stands start calls ray) (gradient op.recorded (some x) d (real a)) fun o p =>
      ∃ g, (o = some g ∧ P g) ∧
        p.Stands start (calls ++ [.gradient (x + a • d) (.ok (some g))])
          { ray with grads := (real a, some g) :: ray.grads } := by
  unfold gradient
  refine Triple.get_bind fun p hp => ?_
  rw [hp.ray, hnew, Surface.point_real]
  refine (Triple.lift (Act.Raises.ok _)).bind fun y => Triple.assume fun hy => ?_
  cases hy
  refine (succeeds_inSession (Session.succeeds_gradient_of_gradientWith hop)).bind fun o =>
    Triple.of_exists fun g => Triple.assume ?_
  rintro ⟨rfl, hg⟩
  refine (Triple.modify fun p hp => ?_).bind fun _ => .pure fun p hp => ⟨g, ⟨rfl, hg⟩, hp⟩
  exact ⟨hp.noted, congrArg (fun r : Ray Exact (Vec n) =>
    { r with grads := (real a, some g) :: r.grads }) hp.ray⟩

/-- At a step length that was met before the cost is looked up. -/
theorem succeeds_cost_known {c : Exact} (h : Ray.known (real a) ray.costs = some c) :
    Succeeds (Stands start calls ray) (cost op.recorded (some x) d (real a)) fun c' p =>
      c' = c ∧ p.Stands start calls ray := by
  unfold cost
  refine Triple.get_bind fun p hp => ?_
  rw [hp.ray, h]
  exact .pure fun p hp => ⟨rfl, hp⟩

/-- At a step length that was met before the gradient is looked up. -/
theorem succeeds_gradient_known {o : Option (Vec n)} (h : Ray.known (real a) ray.grads = some o) :
    Succeeds (Stands start calls ray) (gradient op.recorded (some x) d (real a)) fun o' p =>
      o' = o ∧ p.Stands start calls ray := by
  unfold gradient
  refine Triple.get_bind fun p hp => ?_
  rw [hp.ray, h]
  exact .pure fun p hp => ⟨rfl, hp⟩

end Probe

/-- A search along a ray begins with nothing on it. -/
theorem LineSearch.succeeds_along_noted
    {a : Act Exact (Probe Exact (Vec n) (σ × List (Evaluation Exact (Vec n) M))) α}
    {Q : α → Session Exact (σ × List (Evaluation Exact (Vec n) M)) → Prop}
    (h : Succeeds (Probe.Stands start calls {}) a fun y p => Q y p.session) :
    Succeeds (Session.Noted start calls) (along a) Q := by
  show Succeeds _ (Act.zoom (fun u => ⟨{}, u⟩) (fun p _ => p.session) a) _
  exact h.zoom (fun u hu => ⟨hu, rfl⟩) fun u y p _ hp => hp

end

/-! ### The run itself -/

/-- A run goes beside its recording, so it ends with the same answer and is charged as much. -/
theorem Transcript.run_of_recording {a : Act R (Session R (σ × List (Evaluation R V M))) α}
    {b : Act R (Session R σ) α} (h : (recording R σ V M).Beside Eq a b) {session : Session R σ}
    {r : Except (Fault R) α} {u : Session R (σ × List (Evaluation R V M))}
    (hrun : a.run (session.recording V M) = (r, u)) :
    ∃ u', b.run session = (r, u') ∧ u'.counts = u.counts := by
  have htogether : (recording R σ V M).together (session.recording V M) session :=
    ⟨rfl, rfl, rfl, rfl, rfl⟩
  obtain ⟨hagree, hsessions⟩ := h.together (fun _ _ => id) (fun _ => id) htogether
  rw [hrun] at hagree hsessions
  exact ⟨_, Prod.ext hagree.eq.symm rfl, hsessions.1.symm⟩

end Descent
