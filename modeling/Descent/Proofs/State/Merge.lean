import Descent.Proofs.Act.Run
import Descent.Proofs.Scalar.Order
import Descent.State

/-!
# What a merge does

A delta without a cost changes nothing of the costs; one whose cost is no measured value is refused
after its other parts were merged; a measured cost becomes the current one and, when it lies below
the best one, the best one (`State.merge_of_none`, `State.merge_of_error`, `State.merge_of_ok`).

A `Change` is what a run does to its state: merging a delta, advancing the counter, recording a
reason.  `State.after` is the state that changes made one after the other lead to.
-/

namespace Descent

theorem Reason.eq_notTerminated {r : Reason} (h : r.isTerminal = false) : r = .notTerminated := by
  cases r <;> first | rfl | cases h

variable {R V M : Type} [Scalar R]

namespace Value

@[simp]
theorem lt_real (x y : R) : (Value.real x).lt (.real y) = .ok (decide (x < y)) := rfl

variable {v w : Value R} {m n : Number R}

omit [Scalar R] in
/-- Numbers are compared as numbers. -/
theorem compareBy_of_number? (symbol : String) (numbers : Number R → Number R → Bool)
    (texts : String → String → Bool) (hv : v.number? = some m) (hw : w.number? = some n) :
    compareBy symbol numbers texts v w = .ok (numbers m n) := by
  unfold compareBy
  split
  · cases hv
  · rw [hv, hw]

theorem lt_of_number? (hv : v.number? = some m) (hw : w.number? = some n) :
    v.lt w = .ok (m.lt n) :=
  compareBy_of_number? _ _ _ hv hw

theorem gt_of_number? (hv : v.number? = some m) (hw : w.number? = some n) :
    v.gt w = .ok (n.lt m) :=
  compareBy_of_number? _ _ _ hv hw

theorem le_of_number? (hv : v.number? = some m) (hw : w.number? = some n) :
    v.le w = .ok (m.le n) :=
  compareBy_of_number? _ _ _ hv hw

end Value

/-- The cost of a delta as a measured value, if it has one that is. -/
def Delta.measuredCost (d : Delta R V M) : Option R := d.cost.bind fun c => c.toReal.toOption

theorem Delta.measuredCost_eq_some {d : Delta R V M} {x : R} :
    d.measuredCost = some x ↔ ∃ c, d.cost = some c ∧ c.toReal = .ok x := by
  unfold measuredCost
  simp only [Option.bind_eq_some_iff, Act.toOption_eq_some]

namespace State

/-- The state in which the cost of a delta is met: its other parts are merged, and the cost before
it is kept. -/
def facing (s : State R V M) (d : Delta R V M) : State R V M :=
  { s.mergeParts d with prevCost := s.cost }

theorem merge_of_none {s : State R V M} {d : Delta R V M} (h : d.cost = none) :
    s.merge d = (.ok false, s.mergeParts d) := by
  unfold merge
  rw [h]

theorem merge_of_error {s : State R V M} {d : Delta R V M} {c : Value R} {f : Fault R}
    (h : d.cost = some c) (hc : c.toReal = .error f) :
    s.merge d = (.error f, s.facing d) := by
  unfold merge
  rw [h]
  dsimp only
  rw [hc]
  rfl

theorem merge_of_ok {s : State R V M} {d : Delta R V M} {c : Value R} {x : R}
    (h : d.cost = some c) (hc : c.toReal = .ok x) :
    s.merge d = (s.facing d).mergeCost x := by
  unfold merge
  rw [h]
  dsimp only
  rw [hc]
  rfl

/-! ### A measured cost -/

/-- The answer to a measured cost is whether it lies below the best one. -/
theorem mergeCost_fst (s : State R V M) (x : R) :
    (s.mergeCost x).1 = (Value.real x).lt s.bestCost := by
  unfold mergeCost
  dsimp only
  split
  · rename_i h
    exact h.symm
  · rfl

theorem mergeCost_of_lt {s : State R V M} {b x : R} (hb : s.bestCost = .real b) (h : x < b) :
    s.mergeCost x = (.ok true, { s with cost := .real x }.improve) := by
  unfold mergeCost
  rw [hb]
  simp [h]

theorem mergeCost_of_not_lt {s : State R V M} {b x : R} (hb : s.bestCost = .real b)
    (h : ¬ x < b) : s.mergeCost x = (.ok false, { s with cost := .real x }) := by
  unfold mergeCost
  rw [hb]
  simp [h]

/-- Whatever becomes of the cost, the parameter is that of the other parts. -/
theorem mergeCost_param (s : State R V M) (x : R) : (s.mergeCost x).2.param = s.param := by
  unfold mergeCost
  dsimp only
  split <;> rfl

theorem mergeCost_hessian (s : State R V M) (x : R) : (s.mergeCost x).2.hessian = s.hessian := by
  unfold mergeCost
  dsimp only
  split <;> rfl

theorem mergeCost_grad (s : State R V M) (x : R) : (s.mergeCost x).2.grad = s.grad := by
  unfold mergeCost
  dsimp only
  split <;> rfl

theorem mergeCost_kv (s : State R V M) (x : R) : (s.mergeCost x).2.kv = s.kv := by
  unfold mergeCost
  dsimp only
  split <;> rfl

/-- How far a run has come: its counter, its limits, and how it ended. -/
structure Standing (R : Type) where
  curIter : Value R
  maxIters : Value R
  targetCost : Value R
  reason : Reason
  time : Option (Value R)

/-- How far the run of a state has come. -/
def standing (s : State R V M) : Standing R :=
  ⟨s.curIter, s.maxIters, s.targetCost, s.reason, s.time⟩

theorem mergeCost_standing (s : State R V M) (x : R) :
    (s.mergeCost x).2.standing = s.standing := by
  unfold mergeCost
  dsimp only
  split <;> rfl

/-! ### Every delta -/

/-- What a cost does not bear on is after a merge as the other parts of the delta leave it, be
there a cost or none, and be it refused or not. -/
theorem merge_eq_mergeParts {κ : Type} {f : State R V M → κ} (s : State R V M) (d : Delta R V M)
    (hcost : ∀ (s : State R V M) x, f (s.mergeCost x).2 = f s)
    (hfacing : f (s.facing d) = f (s.mergeParts d)) : f (s.merge d).2 = f (s.mergeParts d) := by
  cases hd : d.cost with
  | none => rw [merge_of_none hd]
  | some c =>
    cases hc : c.toReal with
    | error e => rw [merge_of_error hd hc, hfacing]
    | ok x => rw [merge_of_ok hd hc, hcost, hfacing]

/-- The parameter of a delta is merged even if its cost is refused. -/
theorem merge_param (s : State R V M) (d : Delta R V M) :
    (s.merge d).2.param = d.param.or s.param :=
  s.merge_eq_mergeParts d mergeCost_param rfl

/-- So is its Hessian. -/
theorem merge_hessian (s : State R V M) (d : Delta R V M) :
    (s.merge d).2.hessian = d.hessian.or s.hessian :=
  s.merge_eq_mergeParts d mergeCost_hessian rfl

theorem merge_grad (s : State R V M) (d : Delta R V M) :
    (s.merge d).2.grad = d.grad.or s.grad :=
  s.merge_eq_mergeParts d mergeCost_grad rfl

theorem merge_kv (s : State R V M) (d : Delta R V M) :
    (s.merge d).2.kv = if d.kv.isEmpty then s.kv else d.kv :=
  s.merge_eq_mergeParts d mergeCost_kv rfl

/-- A merge does not change how far the run has come. -/
theorem merge_standing (s : State R V M) (d : Delta R V M) :
    (s.merge d).2.standing = s.standing :=
  s.merge_eq_mergeParts d mergeCost_standing rfl

theorem standing_of_merge {s s' : State R V M} {d : Delta R V M} {answer : Except (Fault R) Bool}
    (h : s.merge d = (answer, s')) : s'.standing = s.standing := by
  have hstanding := s.merge_standing d
  rwa [h] at hstanding

/-! ### Advancing and stopping -/

theorem terminateWith_of_reason {s : State R V M} (h : s.reason = .notTerminated)
    (r : Reason) : s.terminateWith r = { s with reason := r } := by
  unfold terminateWith terminated
  rw [h]
  rfl

theorem incrementIter_of_int {s : State R V M} {k : Int} (h : s.curIter = .int k) :
    s.incrementIter = .ok { s with curIter := .int (k + 1) } := by
  unfold incrementIter
  rw [h]
  rfl

/-- Advancing the counter changes the counter only. -/
theorem incrementIter_eq_ok {s s' : State R V M} (h : s.incrementIter = .ok s') :
    ∃ k, s.curIter.succ "+=" = .ok k ∧ s' = { s with curIter := k } := by
  unfold incrementIter at h
  cases hk : s.curIter.succ "+=" with
  | error f => rw [hk] at h; cases h
  | ok k => rw [hk] at h; cases h; exact ⟨k, rfl, rfl⟩

end State

/-! ### Histories of a state -/

/-- A change that a run makes to its state. -/
inductive Change (R V M : Type) where
  | merge (d : Delta R V M)
  | advance
  | conclude (reason : Reason)

namespace State

/-- The state in which a run starts. -/
def fresh (param : V) (ceiling target : Value R) : State R V M :=
  { param := some param, maxIters := ceiling, targetCost := target }

/-- The state after a change; a counter that cannot be advanced stays as it is. -/
def change (s : State R V M) : Change R V M → State R V M
  | .merge d => (s.merge d).2
  | .advance => s.incrementIter.toOption.getD s
  | .conclude reason => s.terminateWith reason

/-- The state after changes made one after the other. -/
def after (s : State R V M) (cs : List (Change R V M)) : State R V M := cs.foldl change s

@[simp]
theorem change_merge (s : State R V M) (d : Delta R V M) :
    s.change (.merge d) = (s.merge d).2 := rfl

@[simp]
theorem after_nil (s : State R V M) : s.after [] = s := rfl

@[simp]
theorem after_concat (s : State R V M) (cs : List (Change R V M)) (c : Change R V M) :
    s.after (cs ++ [c]) = (s.after cs).change c := by
  simp [after]

theorem change_advance (s : State R V M) :
    ∃ k, s.change .advance = { s with curIter := k } := by
  unfold change incrementIter
  cases s.curIter.succ "+=" with
  | error f => exact ⟨s.curIter, rfl⟩
  | ok k => exact ⟨k, rfl⟩

theorem change_conclude (s : State R V M) (reason : Reason) :
    ∃ r, s.change (.conclude reason) = { s with reason := r } := by
  have h : s.change (.conclude reason) = s.terminateWith reason := rfl
  rw [h, terminateWith]
  split
  · exact ⟨s.reason, rfl⟩
  · exact ⟨reason, rfl⟩

end State

end Descent
