import Descent.Proofs.Act.Keeps
import Descent.Proofs.Act.Result
import Descent.Proofs.State.Merge
import Descent.Run.Executor

/-!
# Refusals are ordinary faults

What comparing, converting and counting refuses is refused with an ordinary fault
(`Fault.Ordinary`): never with an interrupt, nor for a capability that is missing or a direction
that does not descend.  So the parts of a run that compute with quantities raise nothing else; what
is no ordinary fault comes from elsewhere.
-/

namespace Descent

/-- The fault is one of the values that a computation met, and not one of those that are raised for
what an operator lacks, for a direction that does not descend, or from outside. -/
def Fault.Ordinary {R : Type} : Fault R → Prop
  | .missingCapabilities _ _ | .notDescent | .raised _ _ | .exhausted => False
  | _ => True

/-- No ordinary fault interrupts a run. -/
theorem Fault.Ordinary.isInterrupt_eq_false {R : Type} {f : Fault R} (h : f.Ordinary) :
    f.isInterrupt = false := by
  cases f with
  | raised | exhausted => cases h
  | _ => rfl

/-- Every fault of the result is an ordinary one. -/
abbrev Calm {R α : Type} (r : Except (Fault R) α) : Prop := Act.Raises Fault.Ordinary r

/-- A result that is refused with ordinary faults only. -/
theorem Act.FaultsIn.lift_calm {R τ α : Type} {p : Fault R → Prop}
    (hp : ∀ f, f.Ordinary → p f) {r : Except (Fault R) α} (h : Calm r) :
    Act.FaultsIn p (Act.lift r : Act R τ α) :=
  .lift (h.mono hp)

open Act (Raises)

variable {R V M : Type} [Scalar R]

/-! ### Quantities -/

theorem Number.calm_toReal (n : Number R) : Calm n.toReal := by
  unfold toReal
  split
  · exact .ok _
  · split
    · exact .ok _
    · exact .error trivial

theorem Number.calm_combine (whole : Int → Int → Int) (measured : R → R → R) (a b : Number R) :
    Calm (combine whole measured a b) := by
  unfold combine
  split
  · exact .ok _
  · refine (calm_toReal _).bind fun x _ => (calm_toReal _).bind fun y _ => ?_
    exact .ok _

namespace Scalar

theorem calm_quotient (x y : R) : Calm (quotient x y) := (Raises.error trivial).ite (.ok _)

theorem calm_power (x y : R) : Calm (power x y) := (Raises.error trivial).ite (.ok _)

end Scalar

namespace Value

omit [Scalar R] in
theorem calm_compareBy (symbol : String) (numbers : Number R → Number R → Bool)
    (texts : String → String → Bool) (a b : Value R) :
    Calm (compareBy symbol numbers texts a b) := by
  unfold compareBy
  split
  · exact .ok _
  · split
    · exact .ok _
    · exact .error trivial

theorem calm_lt (a b : Value R) : Calm (a.lt b) := calm_compareBy _ _ _ a b

theorem calm_gt (a b : Value R) : Calm (a.gt b) := calm_compareBy _ _ _ a b

theorem calm_le (a b : Value R) : Calm (a.le b) := calm_compareBy _ _ _ a b

theorem calm_ge (a b : Value R) : Calm (a.ge b) := calm_compareBy _ _ _ a b

omit [Scalar R] in
theorem calm_toNumber (v : Value R) : Calm v.toNumber := by
  unfold toNumber
  split
  · exact .ok _
  · exact .error trivial

omit [Scalar R] in
theorem calm_combineBy (symbol : String) {f : Number R → Number R → Except (Fault R) (Number R)}
    (h : ∀ m n, Calm (f m n)) (a b : Value R) : Calm (combineBy symbol f a b) := by
  unfold combineBy
  split
  · exact (h _ _).bind fun _ _ => .ok _
  · exact .error trivial

theorem calm_add (a b : Value R) : Calm (a.add b) := calm_combineBy _ (Number.calm_combine _ _) a b

theorem calm_sub (a b : Value R) : Calm (a.sub b) := calm_combineBy _ (Number.calm_combine _ _) a b

theorem calm_mul (a b : Value R) : Calm (a.mul b) := calm_combineBy _ (Number.calm_combine _ _) a b

theorem calm_succ (symbol : String) (v : Value R) : Calm (v.succ symbol) := by
  unfold succ
  split
  · exact .ok _
  all_goals exact .error trivial

theorem calm_toReal (v : Value R) : Calm v.toReal := by
  unfold toReal
  split
  · exact Number.calm_toReal _
  · split
    · exact .ok _
    · exact .error trivial
  · exact .error trivial

theorem calm_measured (v : Value R) : Calm v.measured := by
  unfold measured
  split
  · exact Number.calm_toReal _
  · exact .error trivial

theorem calm_isNaN (v : Value R) : Calm v.isNaN := (calm_measured v).bind fun _ _ => .ok _

theorem calm_isFinite (v : Value R) : Calm v.isFinite := (calm_measured v).bind fun _ _ => .ok _

theorem calm_isMultipleOf (v period : Value R) : Calm (v.isMultipleOf period) := by
  unfold isMultipleOf
  split
  · exact (Raises.error trivial).ite (.ok _)
  · refine (Number.calm_toReal _).bind fun x _ => (Number.calm_toReal _).bind fun y _ => ?_
    unfold isMultipleOfReal
    split
    · exact .error trivial
    · split
      · exact .ok _
      · exact (Raises.ok _).ite (.ok _)
  · exact .error trivial

end Value

/-! ### States -/

namespace State

theorem calm_merge (s : State R V M) (d : Delta R V M) : Calm (s.merge d).1 := by
  cases hd : d.cost with
  | none =>
    rw [merge_of_none hd]
    exact .ok _
  | some c =>
    cases hc : c.toReal with
    | error f =>
      rw [merge_of_error hd hc]
      exact .error (Value.calm_toReal c f hc)
    | ok x =>
      rw [merge_of_ok hd hc, mergeCost_fst]
      exact Value.calm_lt _ _

theorem calm_incrementIter (s : State R V M) : Calm s.incrementIter :=
  (Value.calm_succ _ _).bind fun _ _ => .ok _

theorem calm_targetReached (s : State R V M) : Calm s.targetReached := Value.calm_le _ _

theorem calm_follows (after before : Value R) :
    Calm (follows after before) := by
  unfold follows
  split
  · exact .ok _
  · refine Raises.bind (Value.calm_succ _ _) fun v _ => ?_
    split <;> exact .ok _

theorem calm_undercutsBest (s : State R V M) : Calm s.undercutsBest := by
  unfold undercutsBest
  refine (Value.calm_isNaN s.cost).bind fun unknown _ => ?_
  exact (Raises.ok _).ite (Value.calm_lt _ _)

theorem calm_check (s : State R V M) (prevIter prevBestCost : Value R) :
    Calm (s.check prevIter prevBestCost) := by
  unfold check
  refine (Value.calm_lt _ _).bind fun _ _ => .guard trivial ?_
  refine (Value.calm_gt _ _).bind fun _ _ => .guard trivial ?_
  refine (calm_follows _ _).bind fun _ _ => .guard trivial ?_
  refine (calm_undercutsBest s).bind fun _ _ => .guard trivial ?_
  have hend : Calm (do
      let finite ← s.bestCost.isFinite
      if finite && s.bestParam.isNone then throw .bestWithoutParam) :=
    (Value.calm_isFinite s.bestCost).bind fun _ _ => (Raises.error trivial).ite (.ok _)
  dsimp only
  split
  · exact hend
  · exact (Value.calm_gt _ _).bind fun _ _ => .guard trivial hend

end State

end Descent
