import Descent.Proofs.Solver.Faithful

/-!
# When a solver stops

A gradient counts as zero where its length is at most the tolerance asked for, and no tolerance is
taken to be below `absoluteTolerance`.  `Solver.Stops` says of a solver what this has to do with its
answers: the opening delta ends the run exactly if the gradient it tells counts as zero, no later
delta ends it, and the solver says that it is done only where the gradient counts as zero or, if it
looks at that, the last cost differs from the one before by no more than a bound.  Steepest descent,
Newton's method and the trust-region method stop so, each with its own bounds (`Method.bounds`).
-/

namespace Descent

open Act (Yields)

variable {R V M σ μ ν : Type} [Scalar R]

/-- The bounds under which a method stops. -/
structure Bounds (R : Type) where
  /-- The tolerance for the length of the gradient. -/
  grad : R
  /-- The change of cost that counts as none, if the method looks at that. -/
  change : Option R := none

/-- The bounds under which a minimiser stops. -/
def Method.bounds : Method R V M → Option (Bounds R)
  | steepestDescent _ tolGrad => some ⟨tolGrad, none⟩
  | newtonCG _ settings => some ⟨settings.tolGrad, some settings.tolCost⟩
  | trustRegion _ settings => some ⟨settings.gradTol, none⟩
  | _ => none

/-- The last cost differs from the one before by no more than a bound. -/
def State.Settled (bound : R) (s : State R V M) : Prop :=
  ∃ v n, s.cost.sub s.prevCost = .ok v ∧ v.toNumber = .ok n ∧
    n.magnitude.le (.real bound) = true

section Gradients

variable [Space R V]

/-- The vector is short enough to count as zero under a tolerance. -/
def Negligible (tol : R) (g : V) : Prop := Space.norm g ≤ Scalar.greatest tol absoluteTolerance

/-- The state has a gradient, and it counts as zero. -/
def State.Stationary (tol : R) (s : State R V M) : Prop :=
  ∃ g, s.grad = some g ∧ Negligible tol g

/-- There is a gradient at the point, and it counts as zero. -/
def Landscape.Stationary (l : Landscape R V M) (tol : R) (point : Except (Fault R) V) : Prop :=
  ∃ g, l.gradientAt point = .ok (some g) ∧ Negligible tol g

/-- What counts as zero is decided of a gradient that is there. -/
theorem isStationary_eq_ok {tol : R} {grad : Option V} {b : Bool} :
    isStationary tol grad = .ok b ↔ ∃ g, grad = some g ∧ (b = true ↔ Negligible tol g) := by
  unfold isStationary
  cases grad with
  | none =>
    constructor
    · intro h
      cases h
    · rintro ⟨g, h, -⟩
      cases h
  | some g =>
    have hdecide : (isConverged (Space.norm g) tol = true) ↔ Negligible tol g := decide_eq_true_iff
    constructor
    · intro h
      cases h
      exact ⟨g, rfl, hdecide⟩
    · rintro ⟨g', hg, hb⟩
      cases hg
      exact congrArg Except.ok (Bool.eq_iff_iff.mpr (hdecide.trans hb.symm))

theorem State.stationary_iff {tol : R} {s : State R V M} :
    s.Stationary tol ↔ isStationary tol s.grad = .ok true := by
  rw [isStationary_eq_ok]
  simp only [true_iff]
  rfl

theorem State.not_stationary_of_eq_ok {tol : R} {s : State R V M}
    (h : isStationary tol s.grad = .ok false) : ¬ s.Stationary tol := by
  rw [State.stationary_iff, h]
  nofun

namespace Delta

/-- The delta tells what there is at the start, and ends the run as converged exactly if the
gradient there counts as zero. -/
structure Begins (l : Landscape R V M) (tol : R) (s : State R V M) (d : Delta R V M) : Prop where
  tells : d.Tells l s
  ends : ∃ g, d.grad = some g ∧
    (Negligible tol g ∧ d.termination = some .converged ∨
      ¬ Negligible tol g ∧ d.termination = none)

/-- The delta does not end the run, and tells what there is where it leads, or leads nowhere and
tells nothing; with a bound on changes of the cost it leads somewhere. -/
structure Proceeds (l : Landscape R V M) (bounds : Bounds R) (s : State R V M)
    (d : Delta R V M) : Prop where
  goes : d.termination = none
  tells : d.Tells l s ∨ bounds.change = none ∧ d.Still

theorem Begins.intro {l : Landscape R V M} {tol : R} {s : State R V M} {d : Delta R V M} {b : Bool}
    (htells : d.Tells l s) (hb : isStationary tol d.grad = .ok b)
    (hends : d.termination = if b then some .converged else none) : d.Begins l tol s := by
  obtain ⟨g, hg, hiff⟩ := isStationary_eq_ok.mp hb
  refine ⟨htells, g, hg, ?_⟩
  cases b with
  | true => exact .inl ⟨hiff.mp rfl, hends⟩
  | false => exact .inr ⟨fun h => Bool.false_ne_true (hiff.mpr h), hends⟩

end Delta

/-- The bounds bear out an answer on whether to stop: the run has converged only where the gradient
counts as zero or the cost has settled, and goes on only where the gradient does not. -/
def Bounds.BearsOut (bounds : Bounds R) (s : State R V M) (r : Reason) : Prop :=
  r = .converged ∧ (s.Stationary bounds.grad ∨ ∃ bound, bounds.change = some bound ∧
      s.Settled bound) ∨
    r = .notTerminated ∧ ¬ s.Stationary bounds.grad

/-- The solver opens a run, makes an iteration where the gradient does not count as zero, and
answers whether to stop, as its bounds say. -/
structure Solver.Stops (l : Landscape R V M) (bounds : Bounds R) (solver : Solver R V M σ μ) :
    Prop where
  init : ∀ s, Yields (fun t => t.state = s) solver.init fun o =>
    ∃ d, o = some d ∧ d.Begins l bounds.grad s
  next : ∀ s, ¬ s.Stationary bounds.grad → Yields (fun t => t.state = s) solver.next fun o =>
    ∃ d, o = some d ∧ d.Proceeds l bounds s
  terminate : ∀ s, Yields (fun t => t.state = s) solver.terminate (bounds.BearsOut s)

theorem Solver.Stops.widen [LinearAction R V M] {l : Landscape R V M} {bounds : Bounds R}
    {solver : Solver R V M σ μ} {get : ν → μ} {put : μ → ν} (h : solver.Stops l bounds) :
    (Method.widen get put solver).Stops l bounds where
  init s := by
    show Yields _ (Stage.within get (fun m _ => put m) solver.init) _
    exact Stage.yields_within (h.init s)
  next s hs := by
    show Yields _ (Stage.within get (fun m _ => put m) solver.next) _
    exact Stage.yields_within (h.next s hs)
  terminate s := by
    show Yields _ (Stage.within get (fun m _ => put m) solver.terminate) _
    exact Stage.yields_within (h.terminate s)

end Gradients

/-! ### Descending along a line -/

variable [Space R V] {op : Operator R V M σ} {l : Landscape R V M} {line : LineSearch R V M σ}

namespace Descending

theorem begins_opening {tol cost : R} {grad : Option V} {s : State R V M} {d : Delta R V M}
    (hcost : l.costAt s.point = .ok cost) (hgrad : l.gradientAt s.point = .ok grad)
    (h : opening tol cost grad = .ok d) : d.Begins l tol s := by
  have htells := tells_opening hcost hgrad h
  obtain ⟨b, hb, hd⟩ := Act.bind_eq_ok.mp h
  cases hd
  exact .intro htells hb rfl

/-- A step along a line does not end the run. -/
theorem yields_advance_goes (direction : V) (s : State R V M) :
    Yields (fun _ => True) (advance op line direction s) (fun d => d.termination = none) := by
  unfold advance
  refine (Yields.trivial _).bind fun step _ => (Yields.lift _).bind fun y _ => ?_
  refine (Yields.trivial _).bind fun p _ => ?_
  refine (Yields.lift _).bind fun _ _ => (Yields.lift _).bind fun _ _ => Yields.pure rfl

theorem yields_advance_proceeds (hop : op.Follows l) (hline : line.Faithful l) (bounds : Bounds R)
    (direction : V) (s : State R V M) :
    Yields (fun _ => True) (advance op line direction s) (Delta.Proceeds l bounds s) :=
  ((yields_advance_goes direction s).and (yields_advance hop hline direction s)).imp
    fun _ h => ⟨h.1, .inl h.2⟩

end Descending

theorem SteepestDescent.stops (hop : op.Follows l) (hline : line.Faithful l) (tol : R) :
    ((algorithm op line tol : Algorithm R V M σ μ).toSolver).Stops l ⟨tol, none⟩ where
  init s := by
    refine Algorithm.yields_onStage (Bench.yields_inSession ?_)
    unfold init
    refine (Session.yields_costValue hop _).bind fun cost hcost => ?_
    refine (Session.yields_gradient hop _).bind fun grad hgrad => ?_
    refine (Yields.lift _).bind fun _ _ => (Yields.lift _).bind fun d hd => Yields.pure ?_
    exact ⟨d, rfl, Descending.begins_opening hcost hgrad hd⟩
  next s _ := by
    refine Algorithm.yields_next ?_
    show Yields _ (Bench.inSession (SteepestDescent.next op line s)) _
    exact Bench.yields_inSession (Descending.yields_advance_proceeds hop hline _ _ s)
  terminate s := by
    refine Algorithm.yields_onStage ((Yields.lift _).imp fun r hr => ?_)
    obtain ⟨b, hb, hr⟩ := Act.bind_eq_ok.mp hr
    cases b with
    | true =>
      cases hr
      exact .inl ⟨rfl, .inl (State.stationary_iff.mpr hb)⟩
    | false =>
      cases hr
      exact .inr ⟨rfl, State.not_stationary_of_eq_ok hb⟩

variable [LinearAction R V M]

theorem NewtonCG.stops (hop : op.Follows l) (hline : line.Faithful l)
    (settings : NewtonCG.Settings R) :
    ((algorithm op line settings : Algorithm R V M σ μ).toSolver).Stops l
      ⟨settings.tolGrad, some settings.tolCost⟩ where
  init s := by
    refine Algorithm.yields_onStage (Bench.yields_inSession ?_)
    unfold init
    refine (Session.yields_costValue hop _).bind fun cost hcost => ?_
    refine (Session.yields_gradient hop _).bind fun grad hgrad => ?_
    refine (Yields.lift _).bind fun _ _ => (Yields.lift _).bind fun _ _ => ?_
    refine (Yields.lift _).bind fun d hd => Yields.pure ?_
    exact ⟨d, rfl, Descending.begins_opening hcost hgrad hd⟩
  next s _ := by
    refine Algorithm.yields_next ?_
    show Yields _ (Bench.inSession (NewtonCG.next op line settings s)) _
    refine Bench.yields_inSession ?_
    unfold NewtonCG.next
    refine (Yields.trivial _).bind fun hess _ => (Yields.lift _).bind fun direction _ => ?_
    exact Descending.yields_advance_proceeds hop hline _ direction s
  terminate s := by
    refine Algorithm.yields_onStage ((Yields.lift _).imp fun r hr => ?_)
    obtain ⟨b, hb, hr⟩ := Act.bind_eq_ok.mp hr
    cases b with
    | true =>
      cases hr
      exact .inl ⟨rfl, .inl (State.stationary_iff.mpr hb)⟩
    | false =>
      -- the gradient does not count as zero, so the change of cost decides
      obtain ⟨v, hv, hr⟩ := Act.bind_eq_ok.mp hr
      obtain ⟨n, hn, hr⟩ := Act.bind_eq_ok.mp hr
      cases hsettled : n.magnitude.le (.real settings.tolCost) with
      | true =>
        rw [hsettled] at hr
        cases hr
        exact .inl ⟨rfl, .inr ⟨_, rfl, v, n, hv, hn, hsettled⟩⟩
      | false =>
        rw [hsettled] at hr
        cases hr
        exact .inr ⟨rfl, State.not_stationary_of_eq_ok hb⟩

/-! ### The trust-region method -/

namespace TrustRegion

variable {sub : Subproblem R V M σ μ} {settings : TrustRegion.Settings R}

omit [LinearAction R V M] in
theorem yields_init_begins (hop : op.Follows l) (s : State R V M) :
    Yields (fun _ => True)
      (init op settings s : Act R (Bench R σ (Memory R μ)) (Option (Delta R V M)))
      fun o => ∃ d, o = some d ∧ d.Begins l settings.gradTol s := by
  unfold init
  refine (Yields.trivial _).bind fun _ _ => ?_
  refine (Bench.yields_inSession (Session.yields_costValue hop _)).bind fun cost hcost => ?_
  refine (Yields.lift _).bind fun _ _ => ?_
  refine (Bench.yields_inSession (Session.yields_gradient hop _)).bind fun grad hgrad => ?_
  refine (Yields.lift _).bind fun b hb => Yields.ite (fun htrue => ?_) fun hfalse => ?_
  · refine Yields.pure ⟨_, rfl, .intro ⟨⟨cost, hcost, rfl⟩, hgrad⟩ hb ?_⟩
    exact (if_pos htrue).symm
  · refine (Yields.trivial _).bind fun hessian _ => Yields.pure ⟨_, rfl, ?_⟩
    exact .intro ⟨⟨cost, hcost, rfl⟩, hgrad⟩ hb (if_neg hfalse).symm

/-- Where the gradient does not count as zero, an iteration does not end the run. -/
theorem yields_next_proceeds (hop : op.Follows l) {s : State R V M}
    (hs : ¬ s.Stationary settings.gradTol) :
    Yields (fun _ => True) (next op sub settings s)
      (Delta.Proceeds l ⟨settings.gradTol, none⟩ s) := by
  have hgoes : Yields (fun _ => True) (next op sub settings s) fun d => d.termination = none := by
    unfold next
    refine (Yields.lift _).bind fun b hb => Yields.ite (fun htrue => ?_) fun _ => ?_
    · -- the branch for a gradient that counts as zero is not taken
      subst htrue
      exact absurd (State.stationary_iff.mpr hb) hs
    · refine (Yields.lift _).bind fun grad _ => ?_
      -- no part of an iteration sets a verdict
      unfold iterate
      refine (Yields.trivial _).bind fun b _ => (Yields.trivial _).bind fun _ _ => ?_
      refine (Yields.trivial _).bind fun step _ => (Yields.trivial _).bind fun y _ => ?_
      refine (Yields.trivial _).bind fun cost _ => (Yields.trivial _).bind fun promised _ => ?_
      refine (Yields.trivial _).bind fun ratio _ => (Yields.trivial _).bind fun _ _ => ?_
      refine Yields.ite (fun _ => ?_) fun _ => Yields.pure rfl
      exact (Yields.trivial _).bind fun g _ => (Yields.trivial _).bind fun h _ => Yields.pure rfl
  refine (hgoes.and (yields_next hop s)).imp fun d hd => ⟨hd.1, hd.2.imp And.left fun h => ?_⟩
  exact ⟨rfl, h⟩

omit [LinearAction R V M] in
theorem bearsOut_of_terminate {s : State R V M} {r : Reason} (h : terminate settings s = .ok r) :
    Bounds.BearsOut ⟨settings.gradTol, none⟩ s r := by
  unfold terminate at h
  -- without a gradient nothing counts as stationary
  cases hg : s.grad with
  | none =>
    rw [hg] at h
    cases h
    refine .inr ⟨rfl, ?_⟩
    rintro ⟨g, hsome, -⟩
    rw [hg] at hsome
    cases hsome
  | some g =>
    rw [hg] at h
    obtain ⟨b, hb, hr⟩ := Act.bind_eq_ok.mp h
    have hb' : isStationary settings.gradTol s.grad = .ok b := hg ▸ hb
    cases b with
    | true =>
      cases hr
      exact .inl ⟨rfl, .inl (State.stationary_iff.mpr hb')⟩
    | false =>
      cases hr
      exact .inr ⟨rfl, State.not_stationary_of_eq_ok hb'⟩

theorem stops (hop : op.Follows l) :
    (algorithm op sub settings).toSolver.Stops l ⟨settings.gradTol, none⟩ where
  init s := Algorithm.yields_onStage (yields_init_begins hop s)
  next _ hs := Algorithm.yields_next (yields_next_proceeds hop hs)
  terminate _ := Algorithm.yields_onStage ((Yields.lift _).imp fun _ hr => bearsOut_of_terminate hr)

end TrustRegion

end Descent
