import Descent.Proofs.LineSearch.Refusals
import Descent.Proofs.Operator.Refusals
import Descent.Proofs.Run.Faults
import Descent.Proofs.Solver.Beside
import Descent.Proofs.Solver.Forgets

/-!
# What a solver refuses

A method that minimises evaluates what it requires and nothing else.  So where the operator has
these capabilities the faults of the method are those of the operator, of the vectors and of what
the quantities that it meets are refused with (`Method.Descends.fault_of_run`).

Of a Hessian this is known as long as it was the operator that answered with it.  Newton's method
asks for one in each iteration.  The trust-region method keeps the one of the state, and passes it
on to the component that solves its models.
-/

namespace Descent

open Act (Raises FaultsIn Triple)

variable {R V M σ μ ν α : Type} [Scalar R] {p : Fault R → Prop} {op : Operator R V M σ}

/-! ### Algorithms as solvers -/

namespace Algorithm

theorem faultsIn_onStage {step : State R V M → Act R (Bench R σ μ) α}
    (h : ∀ s, Act.FaultsIn p (step s)) : Act.FaultsIn p (onStage step) := by
  rw [onStage_eq]
  exact Act.FaultsIn.get.bind fun t => (h t.state).zoom

theorem faultsIn_toSolver {a : Algorithm R V M σ μ} (hinit : ∀ s, Act.FaultsIn p (a.init s))
    (hnext : ∀ s, Act.FaultsIn p (a.next s)) (hterminate : ∀ s, Act.FaultsIn p (a.terminate s)) :
    a.toSolver.FaultsIn p where
  init := faultsIn_onStage hinit
  next := faultsIn_onStage fun s => (hnext s).map
  terminate := faultsIn_onStage hterminate

variable {mem : μ → Prop} {P : M → Prop}

theorem triple_onStage {step : State R V M → Act R (Bench R σ μ) α} {Q : α → Prop}
    (h : ∀ s, s.CurvedIn P →
      Triple (fun b => mem b.memory) p (step s) fun x b => Q x ∧ mem b.memory) :
    Triple (Stage.Holds mem P) p (onStage step) fun x t => Q x ∧ t.Holds mem P := by
  rw [onStage_eq]
  refine Triple.get.bind fun t => ?_
  rintro u ⟨rfl, ht⟩
  -- the state stays as it was read
  have hzoom : Triple (· = t) p (Act.zoom (fun t => ⟨t.memory, t.session⟩)
      (fun b t => ⟨b.memory, t.state, b.session⟩) (step t.state))
      fun x t => Q x ∧ t.Holds mem P := by
    refine (h t.state ht.2).zoom ?_ ?_
    · rintro _ rfl
      exact ht.1
    · rintro _ x b rfl ⟨hx, hb⟩
      exact ⟨hx, hb, ht.2⟩
  exact hzoom t rfl

theorem guarded_toSolver {a : Algorithm R V M σ μ}
    (hinit : ∀ s, s.CurvedIn P → Triple (fun b => mem b.memory) p (a.init s) fun o b =>
      (∀ d, o = some d → d.CurvedIn P) ∧ mem b.memory)
    (hnext : ∀ s, s.CurvedIn P → Triple (fun b => mem b.memory) p (a.next s) fun d b =>
      d.CurvedIn P ∧ mem b.memory)
    (hterminate : ∀ s, Triple (fun b => mem b.memory) p (a.terminate s) fun _ b =>
      mem b.memory) :
    a.toSolver.Guarded mem P p := by
  have hanswer (s : State R V M) (hs : s.CurvedIn P) :
      Triple (fun b => mem b.memory) p (some <$> a.next s) fun o b =>
        (∀ d, o = some d → d.CurvedIn P) ∧ mem b.memory := by
    refine (hnext s hs).bind fun d => .pure fun b hb => ⟨?_, hb.2⟩
    rintro d' ⟨⟩
    exact hb.1
  have hask (s : State R V M) (_ : s.CurvedIn P) :
      Triple (fun b => mem b.memory) p (a.terminate s) fun _ b => True ∧ mem b.memory :=
    (hterminate s).post fun _ _ hb => ⟨trivial, hb⟩
  exact ⟨triple_onStage hinit, triple_onStage hanswer,
    (triple_onStage hask).post fun _ _ ht => ht.2⟩

end Algorithm

variable [Space R V] (hp : ∀ f : Fault R, f.Ordinary → p f) (hV : Space.Refuses p V)

/-! ### Descending along a line -/

section

variable (hop : Session.Answers p op) {line : LineSearch R V M σ}

namespace Descending

omit [Space R V] in
include hop in
theorem faultsIn_complete (y : V) (step : StepLength R V) :
    Act.FaultsIn p (complete op y step) := by
  unfold complete
  dsimp only
  have hend (cost : R) : Act.FaultsIn p
      (Session.gradient op (some y) >>= fun grad => pure (cost, grad)) :=
    (hop.gradient (some y)).bind fun _ => .pure _
  cases step.cost with
  | some c =>
    cases step.grad with
    | some g => exact .pure _
    | none => exact hend c
  | none =>
    refine (hop.cost (some y)).bind fun c => ?_
    cases step.grad with
    | some g => exact .pure _
    | none => exact hend c

theorem calm_opening (tol cost : R) (grad : Option V) :
    Calm (opening tol cost grad : Except (Fault R) (Delta R V M)) :=
  (calm_isStationary tol grad).bind fun _ _ => .ok _

include hp hV hop

/-- Descending fails as the search does, or with a fault in `p`. -/
theorem faultsIn_advance {direction : V} {s : State R V M}
    (hsearch : Act.FaultsIn p (line.search direction s)) :
    Act.FaultsIn p (advance op line direction s) := by
  unfold advance
  refine hsearch.bind fun step => ?_
  refine FaultsIn.bind (.lift ?_) fun y => ?_
  · exact ((Space.calm_require s.param).mono hp).bind fun x _ => hV.add x _
  refine (faultsIn_complete hop y step).bind fun ⟨cost, grad⟩ => ?_
  refine FaultsIn.bind (.lift_calm hp (calm_checkFinite cost "Cost")) fun _ => ?_
  exact FaultsIn.bind (.lift_calm hp (calm_checkFiniteOption grad "Gradient")) fun _ => .pure _

end Descending

include hp hV hop

theorem SteepestDescent.faultsIn (hline : line.FaultsIn p) (tol : R) :
    (algorithm (μ := μ) op line tol).toSolver.FaultsIn p := by
  refine Algorithm.faultsIn_toSolver (fun s => ?_) (fun s => ?_) fun s => .lift_calm hp ?_
  · show Act.FaultsIn p (Bench.inSession (init op tol s))
    refine FaultsIn.zoom ((hop.cost s.param).bind fun cost => ?_)
    refine (hop.gradient s.param).bind fun grad => ?_
    refine FaultsIn.bind (.lift_calm hp (calm_checkFinite cost "Initial cost")) fun _ => ?_
    exact FaultsIn.bind (.lift_calm hp (Descending.calm_opening tol cost grad)) fun _ => .pure _
  · show Act.FaultsIn p (Bench.inSession (next op line s))
    exact (Descending.faultsIn_advance hp hV hop (hline _ s)).zoom
  · exact (calm_isStationary tol s.grad).bind fun _ _ => .ok _

end

variable [LinearAction R V M]

/-! ### Conjugate gradients and Newton's method -/

namespace ConjugateGradient

omit [Space R V] [LinearAction R V M] in
theorem calm_root (x : R) : Calm (root x) := (Raises.error trivial).ite (.ok _)

variable {hess : Option M} (himage : ∀ x : V, Raises p (Space.imageUnder hess x))

include hp hV himage

theorem raises_pass (tol : R) (first : Bool) (grad : V) (it : Iterate R V) :
    Raises p (pass hess tol first grad it) := by
  refine (himage it.along).bind fun image _ => ?_
  refine (hV.dot it.along image).bind fun curvature _ => ?_
  refine Raises.ite (.ok _) ?_
  refine ((Scalar.calm_quotient it.squared curvature).mono hp).bind fun alpha _ => ?_
  refine (hV.add it.z _).bind fun z _ => (hV.add it.residual _).bind fun residual _ => ?_
  refine (hV.dot residual residual).bind fun squared _ => ?_
  refine ((calm_root squared).mono hp).bind fun length _ => Raises.ite (.ok _) ?_
  refine ((Scalar.calm_quotient squared it.squared).mono hp).bind fun beta _ => ?_
  exact (hV.add _ _).bind fun along _ => .ok _

theorem raises_loop (tol : R) (grad : V) (left : Nat) (first : Bool) (it : Iterate R V) :
    Raises p (loop hess tol grad left first it) := by
  induction left generalizing first it with
  | zero => exact .ok _
  | succ left ih =>
    refine (raises_pass hp hV himage tol first grad it).bind fun r _ => ?_
    cases r with
    | inl x => exact .ok x
    | inr it => exact ih false it

theorem raises_direction (grad : V) (limit : Option Int) :
    Raises p (direction grad hess limit) :=
  ((hV.dot grad grad).bind fun _ _ => .ok _).bind fun it _ =>
    raises_loop hp hV himage _ grad _ true it

end ConjugateGradient

namespace NewtonCG

omit [Space R V] [LinearAction R V M] in
theorem calm_passes (limit : Limit R) : Calm limit.passes := by
  cases limit with
  | other typeName => exact .error trivial
  | value v =>
    unfold Limit.passes
    split
    · exact .ok _
    · exact .ok _
    · exact (Raises.error trivial).ite (.ok _)
    · exact .error trivial

include hp hV in
theorem raises_direction (settings : Settings R) (grad : Option V) {hess : Option M}
    (himage : ∀ x : V, Raises p (Space.imageUnder hess x)) :
    Raises p (direction settings grad hess) := by
  refine ((Space.calm_measurable grad).mono hp).bind fun g _ => ?_
  refine ((calm_passes settings.cgMaxIter).mono hp).bind fun limit _ => ?_
  exact ConjugateGradient.raises_direction hp hV himage g limit

variable (hop : op.Refuses p) {line : LineSearch R V M σ} (hline : line.FaultsIn p)
  (hanswers : Session.Answers p op) (hcap : op.provides .hessian = true)

include hp hV hop hline hanswers hcap

theorem faultsIn_next (settings : Settings R) (s : State R V M) :
    Act.FaultsIn p (next op line settings s) := by
  refine (Session.triple_hessian hp hop hcap s.param).bind_faultsIn fun hess hhess => ?_
  have hdirection := raises_direction hp hV settings s.grad (hV.imageUnder hhess)
  exact (FaultsIn.lift hdirection).bind fun d =>
    Descending.faultsIn_advance hp hV hanswers (hline d s)

theorem faultsIn (settings : Settings R) :
    (algorithm (μ := μ) op line settings).toSolver.FaultsIn p := by
  refine Algorithm.faultsIn_toSolver (fun s => ?_) (fun s => ?_) fun s => .lift_calm hp ?_
  · show Act.FaultsIn p (Bench.inSession (init op settings.tolGrad s))
    refine FaultsIn.zoom ((hanswers.cost s.param).bind fun cost => ?_)
    refine (hanswers.gradient s.param).bind fun grad => ?_
    refine FaultsIn.bind (.lift_calm hp (calm_checkFinite cost "Initial cost")) fun _ => ?_
    refine FaultsIn.bind (.lift_calm hp (calm_checkFiniteOption grad "Initial gradient"))
      fun _ => ?_
    exact FaultsIn.bind (.lift_calm hp (Descending.calm_opening _ cost grad)) fun _ => .pure _
  · show Act.FaultsIn p (Bench.inSession (next op line settings s))
    exact (faultsIn_next hp hV hop hline hanswers hcap settings s).zoom
  · refine (calm_isStationary settings.tolGrad s.grad).bind fun _ _ => Raises.ite (.ok _) ?_
    refine (Value.calm_sub s.cost s.prevCost).bind fun change _ => ?_
    exact (Value.calm_toNumber change).bind fun _ _ => .ok _

end NewtonCG

/-! ### Subproblems -/

section

variable {g : V} {h : M} (hh : LinearAction.Refuses p V h)

include hp hV hh

theorem Cauchy.raises_step (radius : R) : Raises p (step g h radius) := by
  unfold step
  refine Raises.ite (.ok _) ?_
  refine (hV.weightedDot hh g g).bind fun curvature _ => ?_
  refine Raises.bind (Raises.ite (.ok _) ?_) fun tau _ => ?_
  · refine ((Scalar.calm_power _ _).mono hp).bind fun cubed _ => ?_
    exact ((Scalar.calm_quotient _ _).mono hp).bind fun _ _ => .ok _
  · exact ((Scalar.calm_quotient _ _).mono hp).bind fun _ _ => .ok _

namespace Dogleg

omit [LinearAction R V M] hh in
theorem raises_crossing (u diff : V) (radius : R) : Raises p (crossing u diff radius) := by
  refine (hV.dot diff diff).bind fun a _ => (hV.dot u diff).bind fun b _ => ?_
  refine (hV.dot u u).bind fun c _ => ((Scalar.calm_power _ _).mono hp).bind fun _ _ => ?_
  exact (Scalar.calm_quotient _ _).mono hp

theorem raises_path (radius gradNorm curvature : R) :
    Raises p (path g h radius gradNorm curvature) := by
  refine (hh.newtonStep g).bind fun newton _ => Raises.ite (.ok _) ?_
  refine ((Scalar.calm_power _ _).mono hp).bind fun square _ => ?_
  refine ((Scalar.calm_quotient _ _).mono hp).bind fun factor _ => Raises.ite ?_ ?_
  · exact ((Scalar.calm_quotient _ _).mono hp).bind fun _ _ => .ok _
  · refine (hV.sub newton _).bind fun diff _ => ?_
    exact (raises_crossing hp hV _ diff radius).bind fun t _ => hV.add _ _

theorem raises_step (radius : R) : Raises p (step g h radius) := by
  unfold step
  refine Raises.ite (.ok _) ?_
  refine (hV.weightedDot hh g g).bind fun curvature _ => Raises.ite ?_ ?_
  · exact ((Scalar.calm_quotient _ _).mono hp).bind fun _ _ => .ok _
  · exact (raises_path hp hV hh radius _ curvature).bind fun _ _ => .ok _

end Dogleg

end

section

variable {get : ν → μ} {put : μ → ν} {mem : μ → Prop} {mem' : ν → Prop} {P : M → Prop}
  (hget : ∀ m, mem' m → mem (get m)) (hput : ∀ m, mem m → mem' (put m))

include hget hput

omit [Space R V] [LinearAction R V M] in
theorem Stage.triple_within {a : Act R (Stage R V M σ μ) α} {Q : α → Prop}
    (h : Triple (Holds mem P) p a fun x t => Q x ∧ t.Holds mem P) :
    Triple (Holds mem' P) p (within get (fun m _ => put m) a) fun x t =>
      Q x ∧ t.Holds mem' P :=
  h.zoom (fun _ hu => ⟨hget _ hu.1, hu.2⟩) fun _ _ _ _ hx => ⟨hx.1, hput _ hx.2.1, hx.2.2⟩

omit [Space R V] [LinearAction R V M] in
/-- A solver that keeps its memory in a part of another's is guarded as it was. -/
theorem Solver.Guarded.widen {solver : Solver R V M σ μ} (h : solver.Guarded mem P p) :
    (Method.widen get put solver).Guarded mem' P p := by
  have hask : Triple (Stage.Holds mem P) p solver.terminate fun _ t => True ∧ t.Holds mem P :=
    h.terminate.post fun _ _ ht => ⟨trivial, ht⟩
  exact ⟨Stage.triple_within hget hput h.init, Stage.triple_within hget hput h.next,
    (Stage.triple_within hget hput hask).post fun _ _ ht => ht.2⟩

end

/-- The Hessian of the model that is kept, if there is one, is in `P`. -/
def Region.CurvedIn (P : M → Prop) (r : Region R V M) : Prop := ∀ h, r.hessian = some h → P h

/-- A component that is given a model whose Hessian is in `P` keeps it so, and its faults are in
`p` while it does. -/
structure Subproblem.Guarded (mem : μ → Prop) (P : M → Prop) (p : Fault R → Prop)
    (sub : Subproblem R V M σ μ) : Prop where
  give : ∀ radius grad hessian, (∀ h, hessian = some h → P h) →
    Triple (fun _ => True) p (sub.give radius grad hessian) fun _ => mem
  solver : sub.solver.Guarded mem (fun _ => True) p

namespace Region

variable {P : M → Prop}

omit [Space R V] [LinearAction R V M] in
theorem calm_parts (label : String) (r : Region R V M) : Calm (r.parts label) := by
  unfold parts
  split
  · exact (Raises.error trivial).ite (.ok _)
  · exact .error trivial

omit [Space R V] [LinearAction R V M] in
theorem hessian_of_parts {label : String} {r : Region R V M} {g : V} {h : M} {radius : R}
    (hparts : r.parts label = .ok (g, h, radius)) : r.hessian = some h := by
  unfold parts at hparts
  split at hparts
  · next hhess =>
    split at hparts <;> cases hparts
    exact hhess
  · cases hparts

include hp

omit [Space R V] [LinearAction R V M] in
theorem guarded_algorithm (name label : String)
    {step : V → M → R → Except (Fault R) (Delta R V M)}
    (hstep : ∀ g h radius, P h → Raises p (step g h radius)) :
    (algorithm (σ := σ) name label step).toSolver.Guarded (CurvedIn P) (fun _ => True) p := by
  have hnext (s : State R V M) : Triple (fun b => CurvedIn P b.memory) p
      ((algorithm (σ := σ) name label step).next s) fun d b =>
        d.CurvedIn (fun _ => True) ∧ b.memory.CurvedIn P := by
    refine Triple.get.bind fun b => ?_
    refine Triple.bind (.lift ((calm_parts label b.memory).mono hp)) fun ⟨g, h, radius⟩ => ?_
    rintro b' ⟨hparts, rfl, hb⟩
    have hh : P h := hb h (hessian_of_parts hparts)
    exact ((Triple.lift (hstep g h radius hh)).post fun d t ht =>
      ⟨fun _ _ => trivial, ht.2⟩) b hb
  refine Algorithm.guarded_toSolver (fun s _ => ?_) (fun s _ => hnext s) fun s => ?_
  · exact .pure fun b hb => ⟨nofun, hb⟩
  · have hterminate : Calm (terminate s) := (Value.calm_ge _ _).bind fun _ _ => .ok _
    exact (Triple.lift (hterminate.mono hp)).post fun _ _ hb => hb.2

end Region

omit [Space R V] [LinearAction R V M] in
/-- A component that keeps a model is given all of it. -/
theorem Subproblem.guarded_ofRegion {a : Algorithm R V M σ (Region R V M)} {P : M → Prop}
    (hp : ∀ f : Fault R, f.Ordinary → p f)
    (ha : a.toSolver.Guarded (Region.CurvedIn P) (fun _ => True) p) :
    (Method.widenSubproblem (.ofRegion a)).Guarded (fun m => m.model.CurvedIn P) P p where
  give radius grad hessian hhess := by
    have hradius : Act.FaultsIn p (Region.setRadius radius : Act R (Region R V M) Unit) := by
      unfold Region.setRadius
      exact .guard (hp _ trivial) (.modify _)
    have hgrad : Act.FaultsIn p (Region.setGrad grad : Act R (Region R V M) Unit) := .modify _
    have hset : Triple (fun _ => True) p (Region.setHessian hessian : Act R (Region R V M) Unit)
        fun _ r => r.CurvedIn P := .modify fun _ _ => hhess
    show Triple _ p (do
      Method.onModel (Region.setRadius radius)
      Method.onModel (Region.setGrad grad)
      Method.onModel (Region.setHessian hessian)) _
    -- only what is set last, the Hessian, says anything of the model
    refine Triple.bind (Q := fun _ _ => True) ?_ fun _ => ?_
    · exact FaultsIn.triple_true (.zoom hradius)
    refine Triple.bind (Q := fun _ _ => True) ?_ fun _ => ?_
    · exact FaultsIn.triple_true (.zoom hgrad)
    exact hset.zoom (fun _ _ => trivial) fun _ _ _ _ hr => hr
  solver := by
    show (Method.widen Memory.model .region a.toSolver).Guarded _ _ p
    refine ha.widen ?_ ?_
    all_goals exact fun _ hm => hm

/-! ### The trust-region method -/

namespace TrustRegion

omit [LinearAction R V M] in
theorem calm_stationary (settings : Settings R) (grad : Option V) :
    Calm (stationary settings grad) := calm_isStationary settings.gradTol grad

include hp hV in
theorem raises_predicted {hessian : Option M}
    (hhess : ∀ h, hessian = some h → LinearAction.Refuses p V h) (grad step : V) :
    Raises p (predicted grad step hessian) := by
  refine (hV.dot grad step).bind fun linear _ => ?_
  cases hessian with
  | none => exact .error (hp _ trivial)
  | some h => exact (hV.weightedDot (hhess h rfl) step step).bind fun _ _ => .ok _

omit [Space R V] [LinearAction R V M] in
theorem calm_reductionRatio (before : Value R) (after promised : R) :
    Calm (reductionRatio before after promised) := by
  refine Raises.ite ?_ (.ok _)
  refine (Value.calm_sub _ _).bind fun change _ => (Value.calm_toReal change).bind fun x _ => ?_
  exact Scalar.calm_quotient x promised

variable (hop : op.Refuses p) (hanswers : Session.Answers p op)
  (hcap : op.provides .hessian = true)

include hp hop hcap

omit [Space R V] in
theorem triple_hessian (x : Option V) :
    Triple (fun _ => True) p
      (Bench.inSession (Session.hessian op x) : Act R (Bench R σ (Memory R μ)) (Option M))
      fun o _ => ∀ h, o = some h → LinearAction.Refuses p V h :=
  (Session.triple_hessian hp hop hcap x).zoom (fun _ _ => trivial) fun _ _ _ _ hx => hx

include hanswers

theorem triple_init (settings : Settings R) (s : State R V M) :
    Triple (fun _ => True) p (init (μ := μ) op settings s) fun o _ =>
      ∀ d, o = some d → d.CurvedIn (LinearAction.Refuses p V) := by
  refine Triple.bind (Q := fun _ _ => True) (FaultsIn.modify _).triple_true fun _ => ?_
  refine (hanswers.cost s.param).zoom.triple_true.bind fun cost => ?_
  refine (FaultsIn.lift_calm hp (calm_checkFinite cost "Initial cost")).triple_true.bind fun _ => ?_
  refine (hanswers.gradient s.param).zoom.triple_true.bind fun grad => ?_
  refine (FaultsIn.lift_calm hp (calm_stationary settings grad)).triple_true.bind fun _ => ?_
  refine .ite (fun _ => .pure ?_) fun _ => ?_
  · rintro _ - d ⟨⟩ h ⟨⟩
  · refine (triple_hessian hp hop hcap s.param).bind fun hessian => .pure ?_
    rintro _ hhess d ⟨⟩ h hh
    exact hhess h hh

variable {sub : Subproblem R V M σ μ} {mem : μ → Prop}
  (hsub : sub.Guarded mem (LinearAction.Refuses p V) p)

omit [Space R V] hp hop hanswers hcap in
include hsub in
theorem triple_prepare (radius : R) (grad : V) {hessian : Option M}
    (hhess : ∀ h, hessian = some h → LinearAction.Refuses p V h) :
    Triple (fun _ => True) p (prepare sub radius grad hessian) fun _ b => mem b.memory.sub := by
  have hgive := hsub.give radius (some grad) hessian hhess
  have hpart : Triple (fun _ => True) p (Act.zoom Memory.sub (fun m t => { t with sub := m })
      (sub.give radius (some grad) hessian)) fun _ (m : Memory R μ) => mem m.sub :=
    hgive.zoom (fun _ _ => trivial) fun _ _ _ _ hm => hm
  rw [prepare_eq]
  exact hpart.zoom (fun _ _ => trivial) fun _ _ _ _ hm => hm

variable (hrequires : ∀ cap ∈ sub.solver.requires, op.provides cap = true)
  (hexhausted : p .exhausted)

omit hop hanswers hcap in
include hsub hrequires hexhausted in
/-- A component that is given what it requires fails as its run does. -/
theorem triple_solveModel (grad : V) :
    Triple (fun b => mem b.memory.sub) p (solveModel op sub grad) fun _ _ => True := by
  rw [solveModel_eq]
  have hcheck : Raises p (Executor.check op sub.solver.name sub.solver.requires) := by
    rw [Executor.check_of_provides hrequires]
    exact (Raises.error (hp (.nothingRequired _) trivial)).ite (.ok _)
  refine Triple.bind (Q := fun _ b => mem b.memory.sub) ?_ fun _ => ?_
  · exact (Triple.lift hcheck).post fun _ _ hb => hb.2
  refine Triple.bind (Q := fun _ _ => True) ?_ fun outcome => ?_
  · -- the run begins without a Hessian and without observers
    refine (Executor.triple_run hp hsub.solver hexhausted).zoom (fun b hb => ?_)
      fun _ _ _ _ _ => trivial
    exact ⟨⟨hb, fun _ _ => trivial⟩, nofun⟩
  · exact (FaultsIn.lift_calm hp (Space.calm_require outcome.state.param)).triple_true

include hV hsub hrequires hexhausted in
theorem triple_iterate (settings : Settings R) (s : State R V M)
    (hs : s.CurvedIn (LinearAction.Refuses p V)) (grad : V) :
    Triple (fun _ => True) p (iterate op sub settings s grad) fun d _ =>
      d.CurvedIn (LinearAction.Refuses p V) := by
  refine (Triple.get.post fun _ _ _ => trivial).bind fun b => ?_
  refine (triple_prepare hsub b.memory.working grad hs).bind fun _ => ?_
  refine (triple_solveModel hp hsub hrequires hexhausted grad).bind fun step => ?_
  have hmove : Raises p (do Space.add (← Space.require s.param) step) :=
    ((Space.calm_require s.param).mono hp).bind fun x _ => hV.add x step
  refine (FaultsIn.lift hmove).triple_true.bind fun y => ?_
  refine (hanswers.cost (some y)).zoom.triple_true.bind fun cost => ?_
  refine (FaultsIn.lift (raises_predicted hp hV hs grad step)).triple_true.bind fun promised => ?_
  refine (FaultsIn.lift_calm hp (calm_reductionRatio s.cost cost promised)).triple_true.bind
    fun ratio => ?_
  refine Triple.bind (Q := fun _ _ => True) (FaultsIn.modify _).triple_true fun _ => ?_
  refine .ite (fun _ => ?_) fun _ => .pure fun _ _ => nofun
  refine (hanswers.gradient (some y)).zoom.triple_true.bind fun grad => ?_
  exact (triple_hessian hp hop hcap (some y)).bind fun hessian => .pure fun _ hhess => hhess

include hV hsub hrequires hexhausted in
theorem guarded (settings : Settings R) :
    (algorithm op sub settings).toSolver.Guarded (fun _ => True) (LinearAction.Refuses p V) p := by
  refine Algorithm.guarded_toSolver (fun s _ => ?_) (fun s hs => ?_) fun s => ?_
  · exact (triple_init hp hop hanswers hcap settings s).post fun _ _ ho => ⟨ho, trivial⟩
  · refine (FaultsIn.lift_calm hp (calm_stationary settings s.grad)).triple_true.bind
      fun converged => .ite (fun _ => .pure fun _ _ => ⟨nofun, trivial⟩) fun _ => ?_
    refine (FaultsIn.lift_calm hp (Space.calm_require s.grad)).triple_true.bind fun grad => ?_
    exact (triple_iterate hp hV hop hanswers hcap hsub hrequires hexhausted settings s hs
      grad).post fun _ _ hd => ⟨hd, trivial⟩
  · have hterminate : Calm (terminate settings s) :=
      (Raises.ok _).ite ((calm_stationary settings s.grad).bind fun _ _ => .ok _)
    exact (FaultsIn.lift_calm hp hterminate).triple_true

end TrustRegion

/-! ### Methods -/

namespace Method

variable (hop : op.Refuses p)

omit [LinearAction R V M] in
include hp hV in
/-- What a method is as a line search fails with faults in `p`. -/
theorem faultsIn_lineSearch (hanswers : Session.Answers p op) (hdescent : p .notDescent)
    (m : Method R V M) : (m.lineSearch op).FaultsIn p := by
  cases m with
  | backtracking b => exact Backtracking.faultsIn_search hp hV hanswers b
  | wolfe w =>
    exact fun _ _ => Wolfe.faultsIn_search hp hV hanswers w fun _ _ _ _ _ => hdescent
  | _ => exact fun _ _ => .throw (hp _ trivial)

include hp hV in
/-- What a method is as a component keeps the Hessian that it was given. -/
theorem guarded_subproblem (m : Method R V M) :
    (m.subproblem (σ := σ)).Guarded (fun memory => memory.model.CurvedIn (LinearAction.Refuses p V))
      (LinearAction.Refuses p V) p := by
  have hthrow {α τ : Type} {I : τ → Prop} {Q : α → τ → Prop} {detail : Detail R} :
      Triple I p (throw (.missingAttribute detail)) Q := .throw (hp _ trivial)
  cases m with
  | cauchy =>
    exact Subproblem.guarded_ofRegion hp
      (Region.guarded_algorithm hp _ _ fun _ _ radius hh => Cauchy.raises_step hp hV hh radius)
  | dogleg =>
    exact Subproblem.guarded_ofRegion hp
      (Region.guarded_algorithm hp _ _ fun _ _ radius hh => Dogleg.raises_step hp hV hh radius)
  | _ => exact ⟨fun _ _ _ _ => Triple.bind (Q := fun _ _ => True) hthrow fun _ => hthrow,
      hthrow, hthrow, hthrow⟩

theorem requires_subproblem (m : Method R V M) :
    ∀ cap ∈ (m.subproblem (σ := σ)).solver.requires, cap = .cost := by
  cases m with
  | cauchy => exact fun _ => List.mem_singleton.mp
  | dogleg => exact fun _ => List.mem_singleton.mp
  | _ => exact nofun

include hp hV hop in
/-- Where the operator provides what the method requires, every fault of a run that begins without a
Hessian is in `p`. -/
theorem Descends.fault_of_run {m : Method R V M} (hm : m.Descends)
    {solver : Solver R V M σ (Memory R V M)} (hsolver : m.solver op = some solver)
    (hdescent : p .notDescent) (hexhausted : p .exhausted)
    (hprovides : ∀ cap ∈ solver.requires, op.provides cap = true)
    {e e' : Executor R V M σ (Memory R V M)} (he : e.stage.state.hessian = none)
    (hobs : ∀ entry ∈ e.observers, entry.observer.InterruptsIn p) {f : Fault R}
    (h : (Executor.run solver).run e = (.error f, e')) : p f := by
  -- the run begins without a Hessian, so any property of it holds
  have hfault {P : M → Prop} (hguarded : solver.Guarded (fun _ => True) P p) : p f := by
    have hholds : e.Holds (fun _ => True) P p := by
      refine ⟨⟨trivial, fun h hh => ?_⟩, hobs⟩
      rw [he] at hh
      cases hh
    exact (Executor.triple_run hp hguarded hexhausted e hholds).2 f e' h
  cases hm with
  | steepestDescent line tol =>
    cases hsolver
    replace hprovides : ∀ cap ∈ [Capability.cost, .gradient], op.provides cap = true := hprovides
    have hanswers := hop.answers hp (hprovides .cost (by decide)) (hprovides .gradient (by decide))
    have hline := faultsIn_lineSearch hp hV hanswers hdescent line
    exact hfault (SteepestDescent.faultsIn hp hV hanswers hline tol).guarded
  | newtonCG line settings =>
    cases hsolver
    replace hprovides : ∀ cap ∈ [Capability.cost, .gradient, .hessian], op.provides cap = true :=
      hprovides
    have hanswers := hop.answers hp (hprovides .cost (by decide)) (hprovides .gradient (by decide))
    have hline := faultsIn_lineSearch hp hV hanswers hdescent line
    have hhess : op.provides .hessian = true := hprovides _ (by decide)
    exact hfault (NewtonCG.faultsIn hp hV hop hline hanswers hhess settings).guarded
  | trustRegion sub settings =>
    cases hsolver
    replace hprovides : ∀ cap ∈ [Capability.cost, .gradient, .hessian], op.provides cap = true :=
      hprovides
    have hanswers := hop.answers hp (hprovides .cost (by decide)) (hprovides .gradient (by decide))
    have hhess : op.provides .hessian = true := hprovides _ (by decide)
    -- the nested solver requires no more than the outer one
    have hrequires : ∀ cap ∈ (sub.subproblem (σ := σ)).solver.requires,
        op.provides cap = true := by
      intro cap hcap
      rw [requires_subproblem sub cap hcap]
      exact hprovides _ (by decide)
    have hguarded := TrustRegion.guarded hp hV hop hanswers hhess (guarded_subproblem hp hV sub)
      hrequires hexhausted settings
    refine hfault (hguarded.widen ?_ ?_)
    all_goals exact fun _ _ => trivial

end Method

end Descent
