import Descent.Method.Basic
import Descent.Proofs.LineSearch.Faithful
import Descent.Proofs.State.Faithful

/-!
# Solvers that agree with their operator

A solver is faithful to a landscape if it leaves the state alone, its opening delta tells the cost
and the gradient at the start, and the delta of every iteration either tells those of the point it
leads to or tells nothing and leads nowhere (`Solver.Faithful`).  Steepest descent and Newton's
method are, with a line search that is, and so is the trust-region method with any subproblem
solver: whatever step this one comes to, the operator is asked at the point it leads to.
-/

namespace Descent

open Act (Yields)

variable {R V M σ μ ν α : Type} [Scalar R]

/-- The solver leaves the state alone, and its deltas tell the cost and the gradient of the point
they lead to; a delta that leads nowhere may tell nothing. -/
structure Solver.Faithful (l : Landscape R V M) (solver : Solver R V M σ μ) : Prop where
  init : ∀ s, Yields (fun t => t.state = s) solver.init fun o => ∃ d, o = some d ∧ d.Tells l s
  next : ∀ s, Yields (fun t => t.state = s) solver.next fun o =>
    ∃ d, o = some d ∧ (d.Tells l s ∨ d.Still)
  terminate : ∀ s, Yields (fun t => t.state = s) solver.terminate fun _ => True

/-- The solver's deltas tell the Hessian of the point they lead to, too; the opening delta need not
if it ends the run as converged. -/
structure Solver.HessianFaithful (l : Landscape R V M) (solver : Solver R V M σ μ) : Prop where
  init : ∀ s, Yields (fun t => t.state = s) solver.init fun o =>
    ∃ d, o = some d ∧ (d.termination = some .converged ∨ d.TellsHessian l s)
  next : ∀ s, Yields (fun t => t.state = s) solver.next fun o =>
    ∃ d, o = some d ∧ (d.TellsHessian l s ∨ d.Still)

/-! ### Algorithms -/

/-- A step that is given the state answers on a stage in that state as it does on a bench. -/
theorem Algorithm.yields_onStage {step : State R V M → Act R (Bench R σ μ) α} {Q : α → Prop}
    {s : State R V M} (h : Yields (fun _ => True) (step s) Q) :
    Yields (fun t => t.state = s) (onStage step) Q := by
  intro t y t' ht hy
  have hrun : ((step t.state).run ⟨t.memory, t.session⟩).1 = .ok y := congrArg Prod.fst hy
  have ht' : t'.state = t.state := (congrArg (fun p => p.2.state) hy).symm
  rw [ht] at hrun ht'
  exact ⟨(h _ y _ ⟨⟩ (Prod.ext hrun rfl)).1, ht'⟩

theorem Algorithm.yields_next {a : Algorithm R V M σ μ} {Q : Delta R V M → Prop} {s : State R V M}
    (h : Yields (fun _ => True) (a.next s) Q) :
    Yields (fun t => t.state = s) a.toSolver.next fun o => ∃ d, o = some d ∧ Q d := by
  show Yields _ (onStage fun s => some <$> a.next s) _
  exact yields_onStage (h.map fun d hd => ⟨d, rfl, hd⟩)

omit [Scalar R] in
theorem Bench.yields_inSession {a : Act R (Session R σ) α} {Q : α → Prop}
    (h : Yields (fun _ => True) a Q) :
    Yields (fun _ => True) (inSession a : Act R (Bench R σ μ) α) Q :=
  h.zoom (fun _ _ => ⟨⟩) fun _ _ _ _ => ⟨⟩

/-- A solver that keeps its memory in a part of another's answers as it did. -/
theorem Stage.yields_within {get : ν → μ} {set : μ → ν → ν} {a : Act R (Stage R V M σ μ) α}
    {Q : α → Prop} {s : State R V M} (h : Yields (fun t => t.state = s) a Q) :
    Yields (fun t => t.state = s) (within get set a) Q :=
  h.zoom (fun _ hu => hu) fun _ _ _ ht => ht

section Widen

variable {l : Landscape R V M} {solver : Solver R V M σ μ} {get : ν → μ} {put : μ → ν}

theorem Solver.Faithful.widen (h : solver.Faithful l) :
    (Method.widen get put solver).Faithful l where
  init s := by
    show Yields _ (Stage.within get (fun m _ => put m) solver.init) _
    exact Stage.yields_within (h.init s)
  next s := by
    show Yields _ (Stage.within get (fun m _ => put m) solver.next) _
    exact Stage.yields_within (h.next s)
  terminate s := by
    show Yields _ (Stage.within get (fun m _ => put m) solver.terminate) _
    exact Stage.yields_within (h.terminate s)

theorem Solver.HessianFaithful.widen (h : solver.HessianFaithful l) :
    (Method.widen get put solver).HessianFaithful l where
  init s := by
    show Yields _ (Stage.within get (fun m _ => put m) solver.init) _
    exact Stage.yields_within (h.init s)
  next s := by
    show Yields _ (Stage.within get (fun m _ => put m) solver.next) _
    exact Stage.yields_within (h.next s)

end Widen

variable [Space R V] {op : Operator R V M σ} {l : Landscape R V M} {line : LineSearch R V M σ}

/-! ### Descending along a line -/

namespace Descending

/-- What a search did not meet is evaluated where its step length leads. -/
theorem yields_complete (hop : op.Follows l) {x : Option V} {direction y : V}
    {step : StepLength R V} (hstep : step.Faithful l x direction)
    (hy : Probe.point x direction step.alpha = .ok y) :
    Yields (fun _ => True) (complete op y step)
      (fun p => l.costAt (.ok y) = .ok p.1 ∧ l.gradientAt (.ok y) = .ok p.2) := by
  have hcost := hstep.cost
  have hgrad := hstep.grad
  rw [hy] at hcost hgrad
  unfold complete
  -- what the step does not bring is asked for at the point itself
  cases hc : step.cost with
  | some c =>
    cases hg : step.grad with
    | some g => exact Yields.pure ⟨hcost c hc, hgrad g hg⟩
    | none =>
      refine (Session.yields_gradient hop (some y)).bind fun g hg' => ?_
      exact Yields.pure ⟨hcost c hc, hg'⟩
  | none =>
    refine (Session.yields_costValue hop (some y)).bind fun c hc' => ?_
    cases hg : step.grad with
    | some g => exact Yields.pure ⟨hc', hgrad g hg⟩
    | none =>
      refine (Session.yields_gradient hop (some y)).bind fun g hg' => ?_
      exact Yields.pure ⟨hc', hg'⟩

/-- A descent along any direction tells the cost and the gradient where it leads. -/
theorem yields_advance (hop : op.Follows l) (hline : line.Faithful l) (direction : V)
    (s : State R V M) :
    Yields (fun _ => True) (advance op line direction s) (Delta.Tells l s) := by
  unfold advance
  refine (hline direction s).bind fun step hstep => ?_
  refine (Yields.lift _).bind fun y hy => ?_
  refine (yields_complete hop hstep hy).bind fun p hp => ?_
  obtain ⟨cost, grad⟩ := p
  refine (Yields.lift _).bind fun _ _ => (Yields.lift _).bind fun _ _ => Yields.pure ?_
  exact ⟨⟨cost, hp.1, rfl⟩, hp.2⟩

theorem tells_opening {tol cost : R} {grad : Option V} {s : State R V M} {d : Delta R V M}
    (hcost : l.costAt s.point = .ok cost) (hgrad : l.gradientAt s.point = .ok grad)
    (h : opening tol cost grad = .ok d) : d.Tells l s := by
  unfold opening at h
  cases hstationary : isStationary tol grad with
  | error f => rw [hstationary] at h; cases h
  | ok b =>
    rw [hstationary] at h
    cases h
    exact ⟨⟨cost, hcost, rfl⟩, hgrad⟩

end Descending

theorem SteepestDescent.faithful (hop : op.Follows l) (hline : line.Faithful l) (tol : R) :
    ((algorithm op line tol : Algorithm R V M σ μ).toSolver).Faithful l where
  init s := by
    refine Algorithm.yields_onStage (Bench.yields_inSession ?_)
    unfold init
    refine (Session.yields_costValue hop _).bind fun cost hcost => ?_
    refine (Session.yields_gradient hop _).bind fun grad hgrad => ?_
    refine (Yields.lift _).bind fun _ _ => (Yields.lift _).bind fun d hd => Yields.pure ?_
    exact ⟨d, rfl, Descending.tells_opening hcost hgrad hd⟩
  next s := by
    refine Algorithm.yields_next ?_
    show Yields _ (Bench.inSession (SteepestDescent.next op line s)) _
    refine Bench.yields_inSession ?_
    exact (Descending.yields_advance hop hline _ s).imp fun _ => .inl
  terminate s := Algorithm.yields_onStage (Yields.trivial _)

variable [LinearAction R V M]

theorem NewtonCG.faithful (hop : op.Follows l) (hline : line.Faithful l)
    (settings : NewtonCG.Settings R) :
    ((algorithm op line settings : Algorithm R V M σ μ).toSolver).Faithful l where
  init s := by
    refine Algorithm.yields_onStage (Bench.yields_inSession ?_)
    unfold init
    refine (Session.yields_costValue hop _).bind fun cost hcost => ?_
    refine (Session.yields_gradient hop _).bind fun grad hgrad => ?_
    refine (Yields.lift _).bind fun _ _ => (Yields.lift _).bind fun _ _ => ?_
    refine (Yields.lift _).bind fun d hd => Yields.pure ?_
    exact ⟨d, rfl, Descending.tells_opening hcost hgrad hd⟩
  next s := by
    refine Algorithm.yields_next ?_
    show Yields _ (Bench.inSession (NewtonCG.next op line settings s)) _
    refine Bench.yields_inSession ?_
    unfold NewtonCG.next
    refine (Yields.trivial _).bind fun hess _ => (Yields.lift _).bind fun direction _ => ?_
    exact (Descending.yields_advance hop hline direction s).imp fun _ => .inl
  terminate s := Algorithm.yields_onStage (Yields.trivial _)

/-! ### The trust-region method -/

namespace TrustRegion

variable {sub : Subproblem R V M σ μ} {settings : TrustRegion.Settings R}

omit [LinearAction R V M] in
/-- The opening delta tells the cost and the gradient, and the Hessian unless the start is
stationary. -/
theorem yields_init (hop : op.Follows l) (s : State R V M) :
    Yields (fun _ => True)
      (init op settings s : Act R (Bench R σ (Memory R μ)) (Option (Delta R V M)))
      fun o => ∃ d, o = some d ∧ d.Tells l s ∧
        (d.termination = some .converged ∨ d.TellsHessian l s) := by
  unfold init
  refine (Yields.trivial _).bind fun _ _ => ?_
  refine (Bench.yields_inSession (Session.yields_costValue hop _)).bind fun cost hcost => ?_
  refine (Yields.lift _).bind fun _ _ => ?_
  refine (Bench.yields_inSession (Session.yields_gradient hop _)).bind fun grad hgrad => ?_
  refine (Yields.lift _).bind fun converged _ => ?_
  refine Yields.ite (fun _ => Yields.pure ?_) fun _ => ?_
  · exact ⟨_, rfl, ⟨⟨cost, hcost, rfl⟩, hgrad⟩, .inl rfl⟩
  · refine (Bench.yields_inSession (Session.yields_hessian hop _)).bind fun hessian hh => ?_
    exact Yields.pure ⟨_, rfl, ⟨⟨cost, hcost, rfl⟩, hgrad⟩, .inr hh⟩

/-- An iteration evaluates the operator where the step leads, and either goes there and tells all of
it or stays and tells nothing. -/
theorem yields_iterate (hop : op.Follows l) (s : State R V M) (grad : V) :
    Yields (fun _ => True) (iterate op sub settings s grad)
      fun d => d.Tells l s ∧ d.TellsHessian l s ∨ d.Still := by
  unfold iterate
  refine (Yields.trivial _).bind fun b _ => (Yields.trivial _).bind fun _ _ => ?_
  refine (Yields.trivial _).bind fun step _ => (Yields.lift _).bind fun y _ => ?_
  refine (Bench.yields_inSession (Session.yields_costValue hop _)).bind fun cost hcost => ?_
  refine (Yields.lift _).bind fun promised _ => (Yields.lift _).bind fun ratio _ => ?_
  refine (Yields.trivial _).bind fun _ _ => Yields.ite (fun _ => ?_) fun _ => ?_
  · -- the step is taken, and gradient and Hessian are evaluated where it leads
    refine (Bench.yields_inSession (Session.yields_gradient hop _)).bind fun g hg => ?_
    refine (Bench.yields_inSession (Session.yields_hessian hop _)).bind fun h hh => ?_
    exact Yields.pure (.inl ⟨⟨⟨cost, hcost, rfl⟩, hg⟩, hh⟩)
  · -- the step is rejected, and the cost that was evaluated for it is not told
    exact Yields.pure (.inr ⟨rfl, rfl, rfl, rfl⟩)

theorem yields_next (hop : op.Follows l) (s : State R V M) :
    Yields (fun _ => True) (next op sub settings s)
      fun d => d.Tells l s ∧ d.TellsHessian l s ∨ d.Still := by
  unfold next
  refine (Yields.lift _).bind fun converged _ => Yields.ite (fun _ => ?_) fun _ => ?_
  · exact Yields.pure (.inr ⟨rfl, rfl, rfl, rfl⟩)
  · exact (Yields.lift _).bind fun grad _ => yields_iterate hop s grad

theorem faithful (hop : op.Follows l) :
    (algorithm op sub settings).toSolver.Faithful l where
  init s := Algorithm.yields_onStage ((yields_init hop s).imp fun o ho => by
    obtain ⟨d, hd, htells, -⟩ := ho
    exact ⟨d, hd, htells⟩)
  next s := Algorithm.yields_next ((yields_next hop s).imp fun d hd => hd.imp And.left id)
  terminate s := Algorithm.yields_onStage (Yields.trivial _)

theorem hessianFaithful (hop : op.Follows l) :
    (algorithm op sub settings).toSolver.HessianFaithful l where
  init s := Algorithm.yields_onStage ((yields_init hop s).imp fun o ho => by
    obtain ⟨d, hd, -, hhessian⟩ := ho
    exact ⟨d, hd, hhessian⟩)
  next s := Algorithm.yields_next ((yields_next hop s).imp fun d hd => hd.imp And.right id)

end TrustRegion

end Descent
