import Descent.Proofs.State.Alike
import Descent.Space

/-!
# States with Hessians that stand for one map

An algorithm asks of a Hessian no more than its products with vectors, so two Hessians of which
these are the same, refusals included, are one to it (`LinearAction.SameMap`): a matrix, say, and
the function that multiplies by it.  Two deltas are twins if they differ in such Hessians only, and
so are two states.  What a run does to its state keeps twins twins, and what it reads of one it
reads of the other.
-/

namespace Descent

open Act

variable {R V M : Type} [Scalar R] [LinearAction R V M]

/-! ### Hessians -/

/-- The products with every vector are the same. -/
def LinearAction.SameMap (V : Type) {R M : Type} [Scalar R] [LinearAction R V M] (m m' : M) :
    Prop :=
  ∀ v : V, apply m v = apply m' v

namespace LinearAction

/-- Both Hessians are absent, or they stand for one map. -/
abbrev SameMaps (V : Type) {R M : Type} [Scalar R] [LinearAction R V M] :
    Option M → Option M → Prop :=
  Option.Rel (SameMap V)

theorem SameMaps.refl : ∀ h : Option M, SameMaps V h h
  | none => .none
  | some _ => .some fun _ => rfl

theorem SameMaps.or {h h' k k' : Option M} (hh : SameMaps V h h') (hk : SameMaps V k k') :
    SameMaps V (h.or k) (h'.or k') := by
  cases hh with
  | none => exact hk
  | some hm => exact .some hm

end LinearAction

open LinearAction

/-! ### Deltas -/

/-- The delta with another Hessian. -/
def Delta.withHessian (d : Delta R V M) (h : Option M) : Delta R V M := { d with hessian := h }

/-- Two deltas that differ in their Hessians only, which stand for one map. -/
structure Delta.Twin (d d' : Delta R V M) : Prop where
  hessian : SameMaps V d.hessian d'.hessian
  rest : d' = d.withHessian d'.hessian

theorem Delta.Twin.refl (d : Delta R V M) : d.Twin d := ⟨.refl _, rfl⟩

theorem Delta.Twin.termination {d d' : Delta R V M} (h : d.Twin d') :
    d'.termination = d.termination := by
  rw [h.rest]
  rfl

/-! ### States -/

namespace State

section

omit [LinearAction R V M]

/-- The state with another Hessian. -/
def withHessian (s : State R V M) (h : Option M) : State R V M := { s with hessian := h }

theorem mergeCost_withHessian (s : State R V M) (h : Option M) (x : R) :
    (s.withHessian h).mergeCost x = ((s.mergeCost x).1, (s.mergeCost x).2.withHessian h) := by
  have hbest : (s.withHessian h).bestCost = s.bestCost := rfl
  unfold mergeCost
  dsimp only
  rw [hbest]
  cases (Value.real x).lt s.bestCost with
  | error f => rfl
  | ok b => cases b <;> rfl

/-- Hessians bear on nothing that a merge decides. -/
theorem merge_withHessian (s : State R V M) (d : Delta R V M) (h k : Option M) :
    (s.withHessian h).merge (d.withHessian k) =
      ((s.merge d).1, (s.merge d).2.withHessian (k.or h)) := by
  have hcost : (d.withHessian k).cost = d.cost := rfl
  cases hd : d.cost with
  | none =>
    rw [merge_of_none hd, merge_of_none (hcost.trans hd)]
    rfl
  | some c =>
    cases hc : c.toReal with
    | error f =>
      rw [merge_of_error hd hc, merge_of_error (hcost.trans hd) hc]
      rfl
    | ok x =>
      rw [merge_of_ok hd hc, merge_of_ok (hcost.trans hd) hc]
      exact (s.facing d).mergeCost_withHessian (k.or h) x

end

/-- Two states that differ in their Hessians only, which stand for one map. -/
structure Twin (s s' : State R V M) : Prop where
  hessian : SameMaps V s.hessian s'.hessian
  rest : s' = s.withHessian s'.hessian

namespace Twin

variable {s s' : State R V M}

protected theorem refl (s : State R V M) : s.Twin s := ⟨.refl _, rfl⟩

/-- What does not look at the Hessian is the same of twins. -/
theorem same {κ : Type} {f : State R V M → κ} (hf : ∀ s h, f (s.withHessian h) = f s)
    (h : s.Twin s') : f s' = f s := by
  rw [h.rest, hf]

/-- A change that leaves the Hessian alone keeps twins twins. -/
theorem change {f : State R V M → State R V M}
    (hf : ∀ s h, f (s.withHessian h) = (f s).withHessian h)
    (hkeep : ∀ s, (f s).hessian = s.hessian) (h : s.Twin s') : (f s).Twin (f s') := by
  refine ⟨?_, ?_⟩
  · rw [hkeep, hkeep]
    exact h.hessian
  · rw [hkeep]
    conv_lhs => rw [h.rest, hf]

theorem merge {d d' : Delta R V M} (h : s.Twin s') (hd : d.Twin d') :
    (s'.merge d').1 = (s.merge d).1 ∧ (s.merge d).2.Twin (s'.merge d').2 := by
  have hmerge : s'.merge d' =
      ((s.merge d).1, (s.merge d).2.withHessian (d'.hessian.or s'.hessian)) := by
    rw [← merge_withHessian, ← h.rest, ← hd.rest]
  rw [hmerge]
  refine ⟨rfl, ?_, rfl⟩
  rw [merge_hessian]
  exact hd.hessian.or h.hessian

theorem terminateWith (h : s.Twin s') (r : Reason) :
    (s.terminateWith r).Twin (s'.terminateWith r) := by
  refine h.change (f := (·.terminateWith r)) (fun s h => ?_) fun s => ?_
  · unfold State.terminateWith
    rw [apply_ite (fun t : State R V M => t.withHessian h)]
    rfl
  · unfold State.terminateWith
    split <;> rfl

theorem check {before before' : State R V M} (h : s.Twin s') (hbefore : before.Twin before') :
    s'.check before'.curIter before'.bestCost = s.check before.curIter before.bestCost := by
  rw [h.rest, hbefore.rest]
  rfl

end Twin

/-! ### Twins at a point -/

namespace Placed

variable {s s' : State R V M}

theorem merge_twin {d d' : Delta R V M} (h : Placed Twin s s') (hd : d.Twin d') :
    (s'.merge d').1 = (s.merge d).1 ∧ Placed Twin (s.merge d).2 (s'.merge d').2 := by
  obtain ⟨hfst, hsnd⟩ := h.2.merge hd
  refine ⟨hfst, ?_, hsnd⟩
  rw [merge_param, Option.isSome_or, h.1, Bool.or_true]

theorem terminateWith_twin (h : Placed Twin s s') (r : Reason) :
    Placed Twin (s.terminateWith r) (s'.terminateWith r) := by
  refine ⟨?_, h.2.terminateWith r⟩
  unfold State.terminateWith
  split
  · exact h.1
  · exact h.1

theorem incrementIter_twin (h : Placed Twin s s') :
    Agree (Placed Twin) s.incrementIter s'.incrementIter := by
  have hcur : s'.curIter = s.curIter := h.2.same fun _ _ => rfl
  unfold State.incrementIter
  rw [hcur]
  cases s.curIter.succ "+=" with
  | error f => exact .error f
  | ok k =>
    refine .ok ⟨h.1, ?_⟩
    exact h.2.change (f := fun t : State R V M => { t with curIter := k }) (fun _ _ => rfl)
      fun _ => rfl

end Placed

end State

end Descent
