import Descent.Proofs.LineSearch.Rules
import Descent.Proofs.Operator.Refusals

/-!
# What a line search refuses

A line search evaluates the cost and the gradient only.  So it fails with faults in `p` if these two
and the vectors do, the one refusal of its own being that of a direction that does not descend
(`Wolfe.faultsIn_search`), which backtracking does not have (`Backtracking.faultsIn_search`).
-/

namespace Descent

open Act (Raises FaultsIn Triple)

variable {R V M σ α : Type} [Scalar R] [Space R V] {p : Fault R → Prop} {op : Operator R V M σ}

/-- The cost and the gradient of the operator fail with faults in `p`. -/
structure Session.Answers (p : Fault R → Prop) (op : Operator R V M σ) : Prop where
  cost : ∀ x, FaultsIn p (costValue op x)
  gradient : ∀ x, FaultsIn p (gradient op x)

omit [Space R V] in
/-- They do if the operator has the capability for both and refuses nothing else. -/
theorem Operator.Refuses.answers [LinearAction R V M] (hp : ∀ f : Fault R, f.Ordinary → p f)
    (hop : op.Refuses p) (hcost : op.provides .cost = true)
    (hgrad : op.provides .gradient = true) : Session.Answers p op where
  cost := Session.faultsIn_costValue hp (fun hnot => nomatch hcost.symm.trans hnot) hop.cost
  gradient := Session.faultsIn_gradient hp (fun hnot => nomatch hgrad.symm.trans hnot) hop.gradient

/-- Every search fails with faults in `p`. -/
def LineSearch.FaultsIn (p : Fault R → Prop) (line : LineSearch R V M σ) : Prop :=
  ∀ direction s, Act.FaultsIn p (line.search direction s)

section

variable (hp : ∀ f : Fault R, f.Ordinary → p f) (hV : Space.Refuses p V)
  (hop : Session.Answers p op)

/-! ### Rays -/

namespace Probe

include hp hV

theorem raises_point (x : Option V) (direction : V) (alpha : R) :
    Raises p (point x direction alpha) :=
  ((Space.calm_require x).mono hp).bind fun x _ => hV.add x _

include hop

theorem faultsIn_cost (x : Option V) (direction : V) (alpha : R) :
    FaultsIn p (cost op x direction alpha) := by
  unfold cost
  refine FaultsIn.get.bind fun probe => ?_
  split
  · exact .pure _
  · refine FaultsIn.bind (.lift (raises_point hp hV x direction alpha)) fun y => ?_
    exact (hop.cost (some y)).zoom.bind fun c => (FaultsIn.modify _).bind fun _ => .pure _

theorem faultsIn_gradient (x : Option V) (direction : V) (alpha : R) :
    FaultsIn p (gradient op x direction alpha) := by
  unfold gradient
  refine FaultsIn.get.bind fun probe => ?_
  split
  · exact .pure _
  · refine FaultsIn.bind (.lift (raises_point hp hV x direction alpha)) fun y => ?_
    exact (hop.gradient (some y)).zoom.bind fun g => (FaultsIn.modify _).bind fun _ => .pure _

end Probe

namespace LineSearch

omit [Scalar R] [Space R V] in
theorem faultsIn_along {a : Act R (Probe R V σ) α} (h : Act.FaultsIn p a) :
    Act.FaultsIn p (along a) := by
  intro s f s' ha
  have hfails : (a.run ⟨{}, s⟩).1 = .error f := congrArg Prod.fst ha
  exact h ⟨{}, s⟩ f _ (Prod.ext hfails rfl)

omit [Space R V] in
include hp hop in
/-- A gradient that the state has is not asked for. -/
theorem triple_current_grad (s : State R V M) :
    Triple (fun _ => True) p (current op s) fun x _ => ∀ g, s.grad = some g → x.2 = some g := by
  refine triple_current (C := fun _ _ => True) ?_ fun cost => ?_
  · have hknown :=
      (FaultsIn.lift_calm (τ := Session R σ) hp (Value.calm_measured s.cost)).triple_true
    exact hknown.bind fun known => .ite (fun _ => (hop.cost s.param).triple_true) fun _ =>
      .pure fun _ _ => trivial
  · cases hgrad : s.grad with
    | some g =>
      rw [gradientAt_of_some hgrad]
      exact .pure fun _ _ g' hg => hg
    | none =>
      rw [gradientAt_of_none hgrad]
      exact (hop.gradient s.param).triple_true.post fun grad _ _ g hg => nomatch hg

end LineSearch

include hp hV hop

/-! ### Backtracking -/

namespace Backtracking

theorem faultsIn_trials (b : Backtracking R) (x : Option V) (direction : V) (cost slope : R)
    (N : ℕ) (alpha : R) : FaultsIn p (b.trials op x direction cost slope N alpha) := by
  refine (triple_trials (J := fun _ _ _ => True) (Q := fun _ _ => True) (fun _ _ => trivial)
    (fun k _ alpha => ?_) fun _ _ _ => trivial).faultsIn
  refine (Probe.faultsIn_cost hp hV hop x direction alpha).triple_true.post fun trial t _ => ?_
  rw [ite_self]
  trivial

theorem faultsIn_search (b : Backtracking R) : (b.lineSearch op).FaultsIn p := by
  intro direction s
  refine (LineSearch.triple_current_grad hp hop s).faultsIn.bind fun ⟨cost, grad⟩ => ?_
  refine FaultsIn.bind (.lift (hV.innerWith grad grad direction)) fun slope => ?_
  exact LineSearch.faultsIn_along (faultsIn_trials hp hV hop b _ _ _ _ _ _)

end Backtracking

/-! ### The strong Wolfe search -/

namespace Wolfe

variable (w : Wolfe R) (line : Line R V)

omit hp hop in
theorem faultsIn_slopeOf (grad : Option V) :
    FaultsIn p (slopeOf line grad : Act R (Probe R V σ) R) :=
  .lift (hV.innerWith line.grad grad line.direction)

theorem faultsIn_pass (b : Bracket R) : FaultsIn p (w.pass op line b) := by
  refine (Probe.faultsIn_cost hp hV hop _ _ _).bind fun trial => ?_
  refine FaultsIn.ite (FaultsIn.get.bind fun _ => .pure _) ?_
  refine (Probe.faultsIn_gradient hp hV hop _ _ _).bind fun grad => ?_
  refine (faultsIn_slopeOf hV line grad).bind fun slope => ?_
  exact (FaultsIn.pure _).ite (.pure _)

omit [Space R V] hp hV hop in
theorem faultsIn_settle (b : Bracket R) (tried : StepLength R V) :
    FaultsIn p (settle b tried : Act R (Probe R V σ) (StepLength R V)) :=
  FaultsIn.ite (FaultsIn.get.bind fun _ => .pure _) (.pure _)

theorem faultsIn_zoomInto (b : Bracket R) : FaultsIn p (w.zoomInto op line b) := by
  refine (triple_zoomInto (J := fun _ _ _ => True) (T := fun _ _ _ => True) (Q := fun _ _ => True)
    (fun _ _ => trivial) (fun j _ b => ?_) fun j b tried _ _ _ => ?_).faultsIn
  · refine (faultsIn_pass hp hV hop w line b).triple_true.post fun pass t _ => ?_
    cases pass with
    | accepted step => trivial
    | narrowed b tried => exact ⟨trivial, trivial⟩
  · exact (faultsIn_settle b tried).triple_true.pre fun _ _ => trivial

theorem faultsIn_trial (first : Bool) (previous costBefore alpha : R) :
    FaultsIn p (w.trial op line first previous costBefore alpha) := by
  refine (Probe.faultsIn_cost hp hV hop _ _ _).bind fun trial => ?_
  refine FaultsIn.ite (.pure _) ?_
  refine (Probe.faultsIn_gradient hp hV hop _ _ _).bind fun grad => ?_
  refine (faultsIn_slopeOf hV line grad).bind fun slope => ?_
  exact (FaultsIn.pure _).ite ((FaultsIn.pure _).ite (.pure _))

theorem faultsIn_trials (N : ℕ) (first : Bool) (previous costBefore alpha : R) :
    FaultsIn p (w.trials op line N first previous costBefore alpha) := by
  refine (triple_trials (J := fun _ _ _ _ _ _ => True) (B := fun _ _ => True)
    (Q := fun _ _ => True) (fun _ _ => trivial) (fun k _ first previous costBefore alpha => ?_)
    (fun _ _ _ _ _ _ => trivial) fun b => ?_).faultsIn
  · refine (faultsIn_trial hp hV hop w line first previous costBefore alpha).triple_true.post
      fun trial t _ => ?_
    cases trial with
    | accepted step => trivial
    | closed b => trivial
    | falling cost => trivial
  · exact (faultsIn_zoomInto hp hV hop w line b).triple_true

/-- The search refuses a direction along which the slope is not negative, or fails with a fault in
`p`; the slope is that of the gradient of the state where this has one. -/
theorem faultsIn_search {direction : V} {s : State R V M}
    (hdescent : ∀ grad slope, (∀ g, s.grad = some g → grad = some g) →
      Space.innerWith grad grad direction = .ok slope → 0.0 ≤ slope → p .notDescent) :
    Act.FaultsIn p (w.search op direction s) := by
  refine (LineSearch.triple_current_grad hp hop s).bind_faultsIn fun ⟨cost, grad⟩ hgrad => ?_
  refine .lift_bind (hV.innerWith grad grad direction) fun slope hslope => ?_
  have htrials : Act.FaultsIn p (LineSearch.along
      (w.trials op ⟨s.param, direction, cost, grad, slope⟩ w.maxIter.toNat true 0.0 cost
        w.alpha0)) :=
    LineSearch.faultsIn_along (faultsIn_trials hp hV hop w _ _ _ _ _ _)
  by_cases hup : 0.0 ≤ slope
  · rw [if_pos hup]
    exact (FaultsIn.throw (hdescent grad slope hgrad hslope hup)).bind fun _ => htrials
  · rw [if_neg hup]
    exact htrials

end Wolfe

end

end Descent
