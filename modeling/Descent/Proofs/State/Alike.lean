import Descent.Proofs.Act.Related
import Descent.Proofs.State.Merge

/-!
# States under other limits

What a run does to its state has nothing to do with the ceiling and the time that the state records
(`State.under`).  So two states that differ in these are changed alike, and a relation between them
that the changes of an iteration keep (`State.Steady`) holds as long as two runs change their states
side by side.
-/

namespace Descent

open Act

variable {R V M : Type} [Scalar R]

namespace State

/-- The state under another ceiling and with another time recorded. -/
def under (s : State R V M) (ceiling : Value R) (time : Option (Value R)) : State R V M :=
  { s with maxIters := ceiling, time := time }

variable (s : State R V M) (ceiling : Value R) (time : Option (Value R))

theorem mergeCost_under (x : R) :
    (s.under ceiling time).mergeCost x =
      ((s.mergeCost x).1, (s.mergeCost x).2.under ceiling time) := by
  have hbest : (s.under ceiling time).bestCost = s.bestCost := rfl
  unfold mergeCost
  dsimp only
  rw [hbest]
  cases (Value.real x).lt s.bestCost with
  | error f => rfl
  | ok b => cases b <;> rfl

theorem merge_under (d : Delta R V M) :
    (s.under ceiling time).merge d = ((s.merge d).1, (s.merge d).2.under ceiling time) := by
  cases hd : d.cost with
  | none =>
    rw [merge_of_none hd, merge_of_none hd]
    rfl
  | some c =>
    cases hc : c.toReal with
    | error f =>
      rw [merge_of_error hd hc, merge_of_error hd hc]
      rfl
    | ok x =>
      rw [merge_of_ok hd hc, merge_of_ok hd hc]
      exact (s.facing d).mergeCost_under ceiling time x

/-- States that differ in their limits, and that nothing has ended, differ in what ends them besides
once they are ended. -/
theorem ended_of_eq_under {s s' : State R V M} (hreason : s.reason = .notTerminated)
    (heq : s' = s.under s'.maxIters s'.time) (r r' : Reason) (time time' : Option (Value R)) :
    { s.terminateWith r with time := time } =
      { { s'.terminateWith r' with time := time' } with
        reason := r, time := time, maxIters := s.maxIters } := by
  have hreason' : s'.reason = .notTerminated := by
    rw [heq]
    exact hreason
  rw [terminateWith_of_reason hreason, terminateWith_of_reason hreason', heq]
  rfl

/-- A state that is as it should be is so under another ceiling that its counter does not exceed. -/
theorem check_under {s : State R V M} {before best ceiling : Value R}
    {time : Option (Value R)} (h : s.check before best = .ok ())
    (hceiling : s.curIter.gt ceiling = .ok false) :
    (s.under ceiling time).check before best = .ok () := by
  unfold check at h ⊢
  dsimp only [under] at h ⊢
  rcases hlt : s.curIter.lt (.int 0) with f | _ | _
  · rw [hlt] at h
    cases h
  · rcases hgt : s.curIter.gt s.maxIters with f | _ | _
    · rw [hlt, hgt] at h
      cases h
    · rw [hlt, hgt] at h
      rw [hceiling]
      exact h
    · rw [hlt, hgt] at h
      cases h
  · rw [hlt] at h
    cases h

/-! ### Relations that the changes of an iteration keep -/

/-- The relation holds of states that differ in their limits only, and it is kept by what an
iteration does to them. -/
structure Steady (like : State R V M → State R V M → Prop) : Prop where
  eq_under : ∀ {s s'}, like s s' → s' = s.under s'.maxIters s'.time
  merge : ∀ {s s'}, like s s' → ∀ d, like (s.merge d).2 (s'.merge d).2
  advance : ∀ {s s'}, like s s' → ∀ k, like { s with curIter := k } { s' with curIter := k }
  decide : ∀ {s s'}, like s s' → ∀ r, like { s with reason := r } { s' with reason := r }

namespace Steady

variable {like : State R V M → State R V M → Prop} {s s' : State R V M}

theorem merge_fst (h : Steady like) (hs : like s s') (d : Delta R V M) :
    (s'.merge d).1 = (s.merge d).1 := by
  rw [h.eq_under hs, merge_under]

theorem incrementIter (h : Steady like) (hs : like s s') :
    Agree like s.incrementIter s'.incrementIter := by
  have hcur : s'.curIter = s.curIter := by rw [h.eq_under hs]; rfl
  unfold State.incrementIter
  rw [hcur]
  cases s.curIter.succ "+=" with
  | error f => exact .error f
  | ok k => exact .ok (h.advance hs k)

theorem terminateWith (h : Steady like) (hs : like s s') (r : Reason) :
    like (s.terminateWith r) (s'.terminateWith r) := by
  have hreason : s'.reason = s.reason := by rw [h.eq_under hs]; rfl
  unfold State.terminateWith terminated
  rw [hreason]
  split
  · exact hs
  · exact h.decide hs r

theorem targetReached (h : Steady like) (hs : like s s') :
    s'.targetReached = s.targetReached := by
  rw [h.eq_under hs]
  rfl

end Steady

/-- The states differ in their limits only, with ceilings that are related. -/
structure Abreast (ceil : Value R → Value R → Prop) (s s' : State R V M) : Prop where
  ceiling : ceil s.maxIters s'.maxIters
  eq_under : s' = s.under s'.maxIters s'.time

theorem steady_abreast (ceil : Value R → Value R → Prop) :
    Steady (Abreast (V := V) (M := M) ceil) where
  eq_under h := h.eq_under
  merge := by
    intro s s' h d
    have hstanding := s.merge_standing d
    have hstanding' := s'.merge_standing d
    have hmax : (s.merge d).2.maxIters = s.maxIters := congrArg Standing.maxIters hstanding
    have hmax' : (s'.merge d).2.maxIters = s'.maxIters := congrArg Standing.maxIters hstanding'
    have htime' : (s'.merge d).2.time = s'.time := congrArg Standing.time hstanding'
    refine ⟨?_, ?_⟩
    · rw [hmax, hmax']
      exact h.ceiling
    · rw [hmax', htime']
      -- the merge looks neither at the ceiling nor at the time
      have hmerge := congrArg (fun t : State R V M => (t.merge d).2) h.eq_under
      rw [hmerge, merge_under]
  advance := by
    intro s s' h k
    exact ⟨h.ceiling, congrArg (fun t : State R V M => { t with curIter := k }) h.eq_under⟩
  decide := by
    intro s s' h r
    exact ⟨h.ceiling, congrArg (fun t : State R V M => { t with reason := r }) h.eq_under⟩

theorem steady_eq : Steady (Eq : State R V M → State R V M → Prop) where
  eq_under h := by
    cases h
    rfl
  merge h d := by rw [h]
  advance h k := by rw [h]
  decide h r := by rw [h]

/-- The states are alike, and at a point. -/
def Placed (like : State R V M → State R V M → Prop) (s s' : State R V M) : Prop :=
  s.param.isSome ∧ like s s'

theorem Steady.placed {like : State R V M → State R V M → Prop} (h : Steady like) :
    Steady (Placed like) where
  eq_under hs := h.eq_under hs.2
  merge hs d := by
    refine ⟨?_, h.merge hs.2 d⟩
    rw [merge_param, Option.isSome_or, hs.1, Bool.or_true]
  advance hs k := ⟨hs.1, h.advance hs.2 k⟩
  decide hs r := ⟨hs.1, h.decide hs.2 r⟩

end State

end Descent
