import Descent.Proofs.Act.Keeps
import Descent.Proofs.State.Merge
import Descent.Run.Session
import Descent.Space

/-!
# States that agree with an operator

A `Landscape` is what a deterministic operator answers at each point, a refusal being an answer,
too.  `Operator.Follows` says that an operator answers so, whatever became of its own state; then
every evaluation that a session makes answers with what the landscape has at the point.

A state is faithful to a landscape if its cost and its gradient are those at its point, and its
best cost is that at the best point (`State.Faithful`).  A merge establishes this if the delta tells
the cost and the gradient of the point it leads to (`Delta.Tells`, `State.Faithful.of_merge`), and
keeps it if the delta leaves the point as it is and tells nothing (`Delta.Still`,
`State.Faithful.merge_still`).  Nothing that is answered in place of a gradient or a Hessian is not
merged, so of such an answer nothing is said.
-/

namespace Descent

variable {R V M σ α : Type}

/-! ### Deterministic operators -/

/-- The cost, the gradient and the Hessian at each point. -/
structure Landscape (R V M : Type) where
  cost : V → Except (Fault R) (Value R)
  gradient : V → Except (Fault R) (Option V)
  hessian : V → Except (Fault R) (Option M)

/-- The operator answers as the landscape does, at every point and in every state of its own. -/
structure Operator.Follows (op : Operator R V M σ) (l : Landscape R V M) : Prop where
  cost : ∀ f, op.cost = some f → ∀ x w, ((f x).run w).1 = l.cost x
  gradient : ∀ f, op.gradient = some f → ∀ x w, ((f x).run w).1 = l.gradient x
  hessian : ∀ f, op.hessian = some f → ∀ x w, ((f x).run w).1 = l.hessian x

namespace Landscape

variable [Scalar R]

/-- The cost at a point, as a measured value. -/
def costAt (l : Landscape R V M) (point : Except (Fault R) V) : Except (Fault R) R := do
  (← l.cost (← point)).toReal

/-- The gradient at a point. -/
def gradientAt (l : Landscape R V M) (point : Except (Fault R) V) :
    Except (Fault R) (Option V) := do
  l.gradient (← point)

/-- The Hessian at a point. -/
def hessianAt (l : Landscape R V M) (point : Except (Fault R) V) :
    Except (Fault R) (Option M) := do
  l.hessian (← point)

end Landscape

namespace Session

open Act (Yields)

variable [Scalar R] {op : Operator R V M σ} {l : Landscape R V M}

omit [Scalar R] in
/-- An evaluation answers as the method it is made by does at the point. -/
theorem yields_evaluate {c : Capability} {method : Option (V → Act R σ α)}
    {answer : V → Except (Fault R) α}
    (h : ∀ f, method = some f → ∀ x w, ((f x).run w).1 = answer x) (point : Option V) :
    Yields (fun _ => True) (evaluate op c method point)
      (fun y => (Space.require point >>= answer) = .ok y) := by
  unfold evaluate
  refine Yields.ite (fun _ => (Yields.throw _).bind fun _ h => False.elim h) fun _ => ?_
  refine Yields.bind (Yields.trivial _) fun _ _ => ?_
  cases hmethod : method with
  | none => exact Yields.throw _
  | some f =>
    cases point with
    | none => exact Yields.throw _
    | some x =>
      intro s y s' _ hy
      obtain ⟨w, hw, -⟩ := Act.run_zoom_eq.mp hy
      have hanswer := h f hmethod x s.world
      rw [hw] at hanswer
      exact ⟨hanswer.symm, ⟨⟩⟩

theorem yields_costValue (h : op.Follows l) (point : Option V) :
    Yields (fun _ => True) (costValue op point)
      (fun c => l.costAt (Space.require point) = .ok c) := by
  unfold costValue
  refine (yields_evaluate h.cost point).bind fun v hv => (Yields.lift v.toReal).imp fun c hc => ?_
  cases point with
  | none => cases hv
  | some x =>
    have hx : l.cost x = .ok v := hv
    show (l.cost x >>= Value.toReal) = .ok c
    rw [hx]
    exact hc

omit [Scalar R] in
theorem yields_gradient (h : op.Follows l) (point : Option V) :
    Yields (fun _ => True) (gradient op point)
      (fun g => l.gradientAt (Space.require point) = .ok g) :=
  yields_evaluate h.gradient point

omit [Scalar R] in
theorem yields_hessian (h : op.Follows l) (point : Option V) :
    Yields (fun _ => True) (hessian op point)
      (fun g => l.hessianAt (Space.require point) = .ok g) :=
  yields_evaluate h.hessian point

end Session

/-! ### Faithful states -/

variable [Scalar R]

namespace State

/-- The point of a state. -/
def point (s : State R V M) : Except (Fault R) V := Space.require s.param

/-- A part of a state is what was answered, unless that is nothing. -/
def Shows {α : Type} (part : Option α) (answer : Except (Fault R) (Option α)) : Prop :=
  ∃ a, answer = .ok a ∧ ∀ v, a = some v → part = some v

/-- The best cost is the one at the best point, if there is one. -/
def BestFaithful (l : Landscape R V M) (s : State R V M) : Prop :=
  ∀ x, s.bestParam = some x → ∃ c, l.costAt (.ok x) = .ok c ∧ s.bestCost = .real c

/-- The cost and the gradient are those at the state's point, and the best cost is the one at the
best point. -/
structure Faithful (l : Landscape R V M) (s : State R V M) : Prop where
  cost : ∃ c, l.costAt s.point = .ok c ∧ s.cost = .real c
  grad : Shows s.grad (l.gradientAt s.point)
  best : s.BestFaithful l

/-- The Hessian is the one at the state's point. -/
def HessianFaithful (l : Landscape R V M) (s : State R V M) : Prop :=
  Shows s.hessian (l.hessianAt s.point)

/-! ### How far the run has come -/

/-- The state at the outset of its run: what tells how far this has come is blank. -/
def outset (s : State R V M) : State R V M :=
  { s with curIter := .int 0, reason := .notTerminated, time := none }

theorem Faithful.of_outset {l : Landscape R V M} {s s' : State R V M} (h : s.Faithful l)
    (hs : s'.outset = s.outset) : s'.Faithful l := by
  have h₁ : s.outset.Faithful l := ⟨h.cost, h.grad, h.best⟩
  rw [← hs] at h₁
  exact ⟨h₁.cost, h₁.grad, h₁.best⟩

theorem HessianFaithful.of_outset {l : Landscape R V M} {s s' : State R V M}
    (h : s.HessianFaithful l) (hs : s'.outset = s.outset) : s'.HessianFaithful l := by
  have h₁ : s.outset.HessianFaithful l := h
  rw [← hs] at h₁
  exact h₁

theorem outset_terminateWith (s : State R V M) (reason : Reason) :
    (s.terminateWith reason).outset = s.outset := by
  unfold terminateWith
  split <;> rfl

end State

namespace Delta

/-- The point that a delta leads to from a state. -/
def target (s : State R V M) (d : Delta R V M) : Except (Fault R) V :=
  Space.require (d.param.or s.param)

/-- The delta tells the cost and the gradient of the point it leads to. -/
structure Tells (l : Landscape R V M) (s : State R V M) (d : Delta R V M) : Prop where
  cost : ∃ c, l.costAt (d.target s) = .ok c ∧ d.cost = some (.real c)
  grad : l.gradientAt (d.target s) = .ok d.grad

/-- The delta tells the Hessian of the point it leads to. -/
def TellsHessian (l : Landscape R V M) (s : State R V M) (d : Delta R V M) : Prop :=
  l.hessianAt (d.target s) = .ok d.hessian

/-- The delta leaves the point as it is and tells nothing of it. -/
structure Still (d : Delta R V M) : Prop where
  param : d.param = none
  cost : d.cost = none
  grad : d.grad = none
  hessian : d.hessian = none

end Delta

namespace State

variable {l : Landscape R V M} {s s' : State R V M} {d : Delta R V M} {b : Bool}

omit [Scalar R] in
theorem shows_or {α : Type} {answered : Option α} (before : Option α)
    {answer : Except (Fault R) (Option α)} (h : answer = .ok answered) :
    Shows (answered.or before) answer := by
  refine ⟨answered, h, fun v hv => ?_⟩
  rw [hv]
  rfl

/-- A merged cost is a new best one or not. -/
theorem mergeCost_snd (s : State R V M) (c : R) :
    (s.mergeCost c).2 = { s with cost := .real c }.improve ∨
      (s.mergeCost c).2 = { s with cost := .real c } := by
  unfold mergeCost
  dsimp only
  split
  · exact .inl rfl
  · exact .inr rfl

/-- What a merge of a delta that tells a cost comes to. -/
theorem merge_of_tells (hd : d.Tells l s) (h : s.merge d = (.ok b, s')) :
    ∃ c, l.costAt (d.target s) = .ok c ∧
      (s' = { s.facing d with cost := .real c }.improve ∨
        s' = { s.facing d with cost := .real c }) := by
  obtain ⟨c, hc, hcost⟩ := hd.cost
  refine ⟨c, hc, ?_⟩
  rw [merge_of_ok hcost rfl] at h
  have hs' : ((s.facing d).mergeCost c).2 = s' := congrArg Prod.snd h
  rw [← hs']
  exact mergeCost_snd _ _

/-- A delta that tells the cost and the gradient of the point it leads to makes the state faithful,
whatever it was before, if only its best cost was. -/
theorem Faithful.of_merge (hs : s.BestFaithful l) (hd : d.Tells l s)
    (h : s.merge d = (.ok b, s')) : s'.Faithful l := by
  obtain ⟨c, hc, rfl | rfl⟩ := merge_of_tells hd h
  · refine ⟨⟨c, hc, rfl⟩, shows_or s.grad hd.grad, fun x hx => ⟨c, ?_, rfl⟩⟩
    -- the best point is the one the delta led to
    have hpoint : d.target s = .ok x := congrArg Space.require hx
    rw [← hpoint]
    exact hc
  · exact ⟨⟨c, hc, rfl⟩, shows_or s.grad hd.grad, hs⟩

theorem HessianFaithful.of_merge (hd : d.Tells l s) (hh : d.TellsHessian l s)
    (h : s.merge d = (.ok b, s')) : s'.HessianFaithful l := by
  obtain ⟨c, -, rfl | rfl⟩ := merge_of_tells hd h
  · exact shows_or s.hessian hh
  · exact shows_or s.hessian hh

/-- A delta that tells nothing changes the diagnostics at most. -/
theorem merge_still (hd : d.Still) (h : s.merge d = (.ok b, s')) :
    s' = { s with kv := if d.kv.isEmpty then s.kv else d.kv } := by
  rw [merge_of_none hd.cost] at h
  cases h
  unfold mergeParts
  rw [hd.param, hd.grad, hd.hessian]
  rfl

theorem Faithful.merge_still (hs : s.Faithful l) (hd : d.Still)
    (h : s.merge d = (.ok b, s')) : s'.Faithful l := by
  obtain rfl := State.merge_still hd h
  exact ⟨hs.cost, hs.grad, hs.best⟩

theorem HessianFaithful.merge_still (hs : s.HessianFaithful l) (hd : d.Still)
    (h : s.merge d = (.ok b, s')) : s'.HessianFaithful l := by
  obtain rfl := State.merge_still hd h
  exact hs

end State

end Descent
