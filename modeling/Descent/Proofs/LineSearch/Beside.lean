import Descent.LineSearch.Backtracking
import Descent.LineSearch.Wolfe
import Descent.Proofs.Operator.Transcript
import Descent.Proofs.State.Alike

/-!
# Line searches side by side

A line search that is served by two operators along a course of sessions goes side by side along
it: everything it decides it decides on what was answered, and on nothing of the state that a
ceiling bears on (`LineSearch.Beside`).

This is said of two searches at once, so it is shown from step to step here, and not by the rules
for one search.
-/

namespace Descent

open Act

variable {R V M σ υ α β : Type} [Scalar R] {ses : Course R (Session R σ) (Session R υ)}
  {op : Operator R V M σ} {op' : Operator R V M υ}

theorem Session.costValue_beside (h : ses.Serves op op' .cost) (x : V) :
    ses.Beside Eq (costValue op (some x)) (costValue op' (some x)) :=
  (h.evaluates x).bind_eq fun c => .lift c.toReal

/-- The searches go side by side from any point, whatever limits the states are under. -/
def LineSearch.Beside (ses : Course R (Session R σ) (Session R υ)) (line : LineSearch R V M σ)
    (line' : LineSearch R V M υ) : Prop :=
  ∀ direction (s : State R V M) ceiling time, s.param.isSome →
    ses.Beside Eq (line.search direction s) (line'.search direction (s.under ceiling time))

/-! ### Evaluating along a ray -/

namespace Probe

/-- Probes follow a course if their sessions do, and their rays are the same. -/
def course (ses : Course R (Session R σ) (Session R υ)) :
    Course R (Probe R V σ) (Probe R V υ) :=
  ses.on Probe.session Probe.session fun p q => p.ray = q.ray

variable {Q : α → β → Prop}

omit [Scalar R] in
theorem inSession_beside {a : Act R (Session R σ) α} {b : Act R (Session R υ) β}
    (h : ses.Beside Q a b) : (course (V := V) ses).Beside Q (inSession a) (inSession b) :=
  h.zoom (Course.frames_on (fun _ _ => rfl) (fun _ _ => rfl) fun _ _ _ _ hpq => hpq)

variable [Space R V]

theorem cost_beside (h : ses.Serves op op' .cost) (x : Option V) (direction : V) (alpha : R) :
    (course ses).Beside Eq (cost op x direction alpha) (cost op' x direction alpha) := by
  unfold cost
  refine Course.Beside.get.bind fun p q hpq => ?_
  rw [hpq]
  cases Ray.known alpha q.ray.costs with
  | some c => exact .pure rfl
  | none =>
    refine (Course.Beside.lift _).bind_eq fun y => ?_
    refine (inSession_beside (Session.costValue_beside h y)).bind_eq fun c => ?_
    refine Course.Beside.bind_eq (.modify_beside (fun _ => rfl) (fun _ => rfl) ?_) fun _ =>
      .pure rfl
    intro p q hpq
    exact congrArg (fun ray : Ray R V => { ray with costs := (alpha, c) :: ray.costs }) hpq

theorem gradient_beside (h : ses.Serves op op' .gradient) (x : Option V) (direction : V)
    (alpha : R) :
    (course ses).Beside Eq (gradient op x direction alpha) (gradient op' x direction alpha) := by
  unfold gradient
  refine Course.Beside.get.bind fun p q hpq => ?_
  rw [hpq]
  cases Ray.known alpha q.ray.grads with
  | some g => exact .pure rfl
  | none =>
    refine (Course.Beside.lift _).bind_eq fun y => ?_
    refine (inSession_beside (h.evaluates y)).bind_eq fun g => ?_
    refine Course.Beside.bind_eq (.modify_beside (fun _ => rfl) (fun _ => rfl) ?_) fun _ =>
      .pure rfl
    intro p q hpq
    exact congrArg (fun ray : Ray R V => { ray with grads := (alpha, g) :: ray.grads }) hpq

omit [Space R V] in
theorem stepLength_beside (alpha : R) :
    (course (V := V) ses).Beside Eq (stepLength alpha) (stepLength alpha) := by
  unfold stepLength
  refine Course.Beside.get.bind fun p q hpq => .pure ?_
  rw [hpq]

end Probe

namespace LineSearch

omit [Scalar R] in
/-- A search begins with an empty ray. -/
theorem along_beside [Nonempty (Session R υ)] {a : Act R (Probe R V σ) α}
    {b : Act R (Probe R V υ) α} (h : (Probe.course ses).Beside Eq a b) :
    ses.Beside Eq (along a) (along b) := by
  obtain ⟨u⟩ := ‹Nonempty (Session R υ)›
  show ses.Beside Eq (zoom (fun s => ⟨{}, s⟩) (fun p _ => p.session) a)
    (zoom (fun s => ⟨{}, s⟩) (fun p _ => p.session) b)
  exact h.zoom {
    enter := fun hs => ⟨rfl, hs⟩
    leave := fun _ hpq => hpq.2
    broken := fun hp => hp
    astray := fun hs => ⟨⟨⟨{}, u⟩, rfl⟩, hs⟩
    leave_astray := fun _ hp => hp.2 }

theorem current_beside (hcost : ses.Serves op op' .cost) (hgrad : ses.Serves op op' .gradient)
    {s : State R V M} (hs : s.param.isSome) :
    ses.Beside Eq (current op s) (current op' s) := by
  obtain ⟨x, hx⟩ := Option.isSome_iff_exists.mp hs
  unfold current
  rw [hx]
  refine (Course.Beside.lift _).bind_eq fun known => ?_
  dsimp only
  cases s.grad with
  | some g =>
    exact ((Session.costValue_beside hcost x).bind_eq fun cost => .pure rfl).ite (.pure rfl)
  | none =>
    have hend : ∀ cost : R, ses.Beside Eq
        (Session.gradient op (some x) >>= fun grad => pure (cost, grad))
        (Session.gradient op' (some x) >>= fun grad => pure (cost, grad)) := fun cost =>
      (hgrad.evaluates x).bind_eq fun grad => .pure rfl
    exact ((Session.costValue_beside hcost x).bind_eq hend).ite (hend known)

end LineSearch

variable [Space R V] [Nonempty (Session R υ)] (hcost : ses.Serves op op' .cost)
  (hgrad : ses.Serves op op' .gradient)

/-! ### Backtracking -/

namespace Backtracking

variable (b : Backtracking R)

include hcost in
omit [Nonempty (Session R υ)] in
/-- The induction is on the trials that are left. -/
theorem trials_beside (x : Option V) (direction : V) (cost slope : R) (left : Nat) (alpha : R) :
    (Probe.course ses).Beside Eq (b.trials op x direction cost slope left alpha)
      (b.trials op' x direction cost slope left alpha) := by
  induction left generalizing alpha with
  | zero =>
    refine Course.Beside.get.bind fun p q hpq => .pure ?_
    rw [hpq]
  | succ left ih =>
    unfold trials
    refine (Probe.cost_beside hcost x direction alpha).bind_eq fun trial => ?_
    exact Course.Beside.ite (.pure rfl) (ih _)

include hcost hgrad in
theorem lineSearch_beside : LineSearch.Beside ses (b.lineSearch op) (b.lineSearch op') := by
  intro direction s ceiling time hs
  show ses.Beside Eq (b.search op direction s) (b.search op' direction s)
  unfold search
  refine (LineSearch.current_beside hcost hgrad hs).bind_eq fun current => ?_
  refine (Course.Beside.lift _).bind_eq fun slope => ?_
  exact LineSearch.along_beside (b.trials_beside hcost _ _ _ _ _ _)

end Backtracking

/-! ### The strong Wolfe search -/

namespace Wolfe

variable (w : Wolfe R) (line : Line R V)

include hcost hgrad

omit [Nonempty (Session R υ)] in
theorem pass_beside (b : Bracket R) :
    (Probe.course ses).Beside Eq (w.pass op line b) (w.pass op' line b) := by
  unfold pass
  refine (Probe.cost_beside hcost _ _ _).bind_eq fun trial => Course.Beside.ite ?_ ?_
  · refine Course.Beside.get.bind fun p q hpq => .pure ?_
    rw [hpq]
  · refine (Probe.gradient_beside hgrad _ _ _).bind_eq fun grad => ?_
    refine (Course.Beside.lift _).bind_eq fun slope => ?_
    exact Course.Beside.ite (.pure rfl) (.pure rfl)

omit [Space R V] [Nonempty (Session R υ)] hcost hgrad in
theorem settle_beside (b : Bracket R) (tried : StepLength R V) :
    (Probe.course ses).Beside Eq (settle b tried) (settle b tried) :=
  Course.Beside.ite (Probe.stepLength_beside _) (.pure rfl)

omit [Nonempty (Session R υ)] in
/-- The induction is on the passes that are left. -/
theorem zoom_beside (left : Nat) (b : Bracket R) (tried : StepLength R V) :
    (Probe.course ses).Beside Eq (w.zoom op line left b tried) (w.zoom op' line left b tried) := by
  induction left generalizing b tried with
  | zero => exact settle_beside b tried
  | succ left ih =>
    unfold zoom
    refine (w.pass_beside hcost hgrad line b).bind_eq fun pass => ?_
    cases pass with
    | accepted step => exact .pure rfl
    | narrowed b' tried' => exact Course.Beside.ite (settle_beside b' tried') (ih b' tried')

omit [Nonempty (Session R υ)] in
/-- The induction is on the trials that are left. -/
theorem trials_beside (left : Nat) (first : Bool) (previous costBefore alpha : R) :
    (Probe.course ses).Beside Eq (w.trials op line left first previous costBefore alpha)
      (w.trials op' line left first previous costBefore alpha) := by
  induction left generalizing first previous costBefore alpha with
  | zero => exact Probe.stepLength_beside alpha
  | succ left ih =>
    unfold trials
    have hzoom := fun b => w.zoom_beside hcost hgrad line zoomPasses b ⟨b.middle, none, none⟩
    refine (Probe.cost_beside hcost _ _ _).bind_eq fun trial => Course.Beside.ite (hzoom _) ?_
    refine (Probe.gradient_beside hgrad _ _ _).bind_eq fun grad => ?_
    refine (Course.Beside.lift _).bind_eq fun slope => Course.Beside.ite (.pure rfl) ?_
    exact Course.Beside.ite (hzoom _) (ih _ _ _ _)

theorem lineSearch_beside : LineSearch.Beside ses (w.lineSearch op) (w.lineSearch op') := by
  intro direction s ceiling time hs
  show ses.Beside Eq (w.search op direction s) (w.search op' direction s)
  unfold search
  refine (LineSearch.current_beside hcost hgrad hs).bind_eq fun current => ?_
  refine (Course.Beside.lift _).bind_eq fun slope => ?_
  refine Course.Beside.ite ((Course.Beside.throw _).bind_eq fun _ => ?_) ?_
  all_goals exact LineSearch.along_beside (w.trials_beside hcost hgrad _ _ _ _ _ _)

end Wolfe

end Descent
