import Descent.Method.Basic
import Descent.Proofs.LineSearch.Beside
import Descent.Proofs.Run.Beside
import Descent.Proofs.Solver.Abstains

/-!
# Solvers side by side

Steepest descent, Newton's method and the trust-region method decide everything on what the operator
answers them.  So two of one kind that are served by two operators along a course of sessions go
side by side along it (`Method.Descends.beside`).
-/

namespace Descent

open Act

variable {R V M σ υ μ ν α β : Type} [Scalar R] {ses : Course R (Session R σ) (Session R υ)}
  {like : State R V M → State R V M → Prop} {Q : α → β → Prop}

/-! ### Steps on a bench -/

/-- Benches follow a course if their sessions do, and their memories are the same. -/
def Bench.course (ses : Course R (Session R σ) (Session R υ)) :
    Course R (Bench R σ μ) (Bench R υ μ) :=
  ses.on Bench.session Bench.session fun b b' => b.memory = b'.memory

omit [Scalar R] in
theorem Bench.inSession_beside {a : Act R (Session R σ) α} {b : Act R (Session R υ) β}
    (h : ses.Beside Q a b) : (Bench.course (μ := μ) ses).Beside Q (inSession a) (inSession b) :=
  h.zoom (Course.frames_on (fun _ _ => rfl) (fun _ _ => rfl) fun _ _ _ _ h => h)

omit [Scalar R] in
/-- A step of the memory does the same on the same memories. -/
theorem Bench.inMemory_beside (a : Act R μ α) :
    (Bench.course ses).Beside Eq (inMemory a : Act R (Bench R σ μ) α)
      (inMemory a : Act R (Bench R υ μ) α) where
  goes b b' h := by
    obtain ⟨hmemory, hsession⟩ := h
    show (Bench.course ses).Goes Eq ((a.run b.memory).1, ⟨(a.run b.memory).2, b.session⟩)
      ((a.run b'.memory).1, ⟨(a.run b'.memory).2, b'.session⟩)
    rw [hmemory]
    exact .together ⟨rfl, hsession⟩ (.refl _)
  stays b h := by
    obtain ⟨⟨b', hmemory⟩, hsession⟩ := h
    exact ⟨⟨⟨⟨(a.run b.memory).2, b'.session⟩, rfl⟩, hsession⟩, fun x _ => ⟨x, rfl⟩⟩

/-- A step on a stage reads the state and is made on the rest. -/
theorem Algorithm.onStage_eq (step : State R V M → Act R (Bench R σ μ) α) :
    onStage step = (get >>= fun t : Stage R V M σ μ => zoom (fun t => ⟨t.memory, t.session⟩)
      (fun b t => ⟨b.memory, t.state, b.session⟩) (step t.state)) := rfl

/-- Steps that are given states that are alike, on stages. -/
theorem Algorithm.onStage_beside {step : State R V M → Act R (Bench R σ μ) α}
    {step' : State R V M → Act R (Bench R υ μ) β}
    (h : ∀ s s', like s s' → (Bench.course ses).Beside Q (step s) (step' s')) :
    (Stage.course ses Eq like).Beside Q (onStage step) (onStage step') := by
  rw [onStage_eq, onStage_eq]
  refine Course.Beside.get.bind fun t u htu => (h _ _ htu.2).zoom ?_
  exact {
    enter := fun ht => ⟨ht.1.1, ht.2⟩
    leave := fun ht hb => ⟨⟨hb.1, ht.1.2⟩, hb.2⟩
    broken := fun hb => hb
    astray := fun ⟨⟨u, hu⟩, hs⟩ => ⟨⟨⟨u.memory, u.session⟩, hu.1⟩, hs⟩
    leave_astray := fun {t b} ht ⟨⟨b', hb⟩, hs⟩ => by
      have hu : ∃ u : State R V M, like t.state u :=
        ht.elim (fun ⟨⟨u, hu⟩, _⟩ => ⟨u.state, hu.2⟩) fun ⟨u, hu⟩ => ⟨u.state, hu.1.2⟩
      obtain ⟨s, hs'⟩ := hu
      exact ⟨⟨⟨b'.memory, s, b'.session⟩, hb, hs'⟩, hs⟩ }

/-- A solver that keeps its memory in a part of another's goes as it did. -/
theorem Stage.within_beside {get : ν → μ} {put : μ → ν} {a : Act R (Stage R V M σ μ) α}
    {b : Act R (Stage R V M υ μ) β} (h : (Stage.course ses Eq like).Beside Q a b) :
    (Stage.course ses Eq like).Beside Q (within get (fun m _ => put m) a)
      (within get (fun m _ => put m) b) :=
  h.zoom {
    enter := fun ht => ⟨⟨congrArg get ht.1.1, ht.1.2⟩, ht.2⟩
    leave := fun _ hx => ⟨⟨congrArg put hx.1.1, hx.1.2⟩, hx.2⟩
    broken := fun hx => hx
    astray := fun ⟨⟨u, hu⟩, hs⟩ =>
      ⟨⟨⟨get u.memory, u.state, u.session⟩, congrArg get hu.1, hu.2⟩, hs⟩
    leave_astray := fun _ ⟨⟨u, hu⟩, hs⟩ =>
      ⟨⟨⟨put u.memory, u.state, u.session⟩, congrArg put hu.1, hu.2⟩, hs⟩ }

/-- An algorithm that is given states that are alike, as a solver. -/
theorem Algorithm.toSolver_beside {a : Algorithm R V M σ μ} {b : Algorithm R V M υ μ}
    (hname : a.name = b.name)
    (hinit : ∀ s s', like s s' → (Bench.course ses).Beside Eq (a.init s) (b.init s'))
    (hnext : ∀ s s', like s s' → (Bench.course ses).Beside Eq (a.next s) (b.next s'))
    (hterminate : ∀ s s', like s s' →
      (Bench.course ses).Beside Eq (a.terminate s) (b.terminate s')) :
    Solver.Beside ses Eq like a.toSolver b.toSolver where
  name := hname
  init := onStage_beside hinit
  next := onStage_beside fun s s' hs => (hnext s s' hs).map fun _ _ hd => congrArg some hd
  terminate := onStage_beside hterminate

theorem Solver.Beside.widen [Space R V] [LinearAction R V M] {get : ν → μ} {put : μ → ν}
    {a : Solver R V M σ μ} {b : Solver R V M υ μ} (h : Solver.Beside ses Eq like a b) :
    Solver.Beside ses Eq like (Method.widen get put a) (Method.widen get put b) where
  name := h.name
  init := Stage.within_beside h.init
  next := Stage.within_beside h.next
  terminate := Stage.within_beside h.terminate

variable [Space R V] {op : Operator R V M σ} {op' : Operator R V M υ}
  {line : LineSearch R V M σ} {line' : LineSearch R V M υ}

/-! ### Descending along a line -/

section

variable (hcost : ses.Serves op op' .cost) (hgrad : ses.Serves op op' .gradient)

include hcost hgrad

namespace Descending

omit [Space R V] in
theorem complete_beside (y : V) (step : StepLength R V) :
    ses.Beside Eq (complete op y step) (complete op' y step) := by
  unfold complete
  dsimp only
  have hend : ∀ cost : R, ses.Beside Eq
      (Session.gradient op (some y) >>= fun grad => pure (cost, grad))
      (Session.gradient op' (some y) >>= fun grad => pure (cost, grad)) := fun cost =>
    (hgrad.evaluates y).bind_eq fun grad => .pure rfl
  cases step.cost with
  | some c =>
    cases step.grad with
    | some g => exact .pure rfl
    | none => exact hend c
  | none =>
    refine (Session.costValue_beside hcost y).bind_eq fun c => ?_
    cases step.grad with
    | some g => exact .pure rfl
    | none => exact hend c

theorem advance_beside (hline : LineSearch.Beside ses line line') (direction : V)
    {s : State R V M} (hs : s.param.isSome) (ceiling : Value R) (time : Option (Value R)) :
    ses.Beside Eq (advance op line direction s)
      (advance op' line' direction (s.under ceiling time)) := by
  unfold advance
  refine (hline direction s ceiling time hs).bind_eq fun step => ?_
  refine (Course.Beside.lift _).bind_eq fun y => ?_
  refine (complete_beside hcost hgrad y step).bind_eq fun p => ?_
  refine (Course.Beside.lift _).bind_eq fun _ => (Course.Beside.lift _).bind_eq fun _ => ?_
  exact .pure rfl

end Descending

theorem SteepestDescent.init_beside (tol : R) {s : State R V M} (hs : s.param.isSome) :
    ses.Beside Eq (init op tol s) (init op' tol s) := by
  obtain ⟨x, hx⟩ := Option.isSome_iff_exists.mp hs
  unfold init
  rw [hx]
  refine (Session.costValue_beside hcost x).bind_eq fun cost => ?_
  refine (hgrad.evaluates x).bind_eq fun grad => (Course.Beside.lift _).bind_eq fun _ => ?_
  exact (Course.Beside.lift _).bind_eq fun d => .pure rfl

theorem SteepestDescent.beside (hlike : State.Steady like)
    (hline : LineSearch.Beside ses line line') (tol : R) :
    Solver.Beside ses Eq (State.Placed like) (algorithm (μ := μ) op line tol).toSolver
      (algorithm (μ := μ) op' line' tol).toSolver := by
  refine Algorithm.toSolver_beside rfl (fun s s' hs => ?_) (fun s s' hs => ?_) fun s s' hs => ?_
  all_goals rw [hlike.eq_under hs.2]
  · exact Bench.inSession_beside (init_beside hcost hgrad tol hs.1)
  · exact Bench.inSession_beside (Descending.advance_beside hcost hgrad hline _ hs.1 _ _)
  · exact .lift _

namespace NewtonCG

theorem init_beside (tol : R) {s : State R V M} (hs : s.param.isSome) :
    ses.Beside Eq (init op tol s) (init op' tol s) := by
  obtain ⟨x, hx⟩ := Option.isSome_iff_exists.mp hs
  unfold init
  rw [hx]
  refine (Session.costValue_beside hcost x).bind_eq fun cost => ?_
  refine (hgrad.evaluates x).bind_eq fun grad => (Course.Beside.lift _).bind_eq fun _ => ?_
  refine (Course.Beside.lift _).bind_eq fun _ => ?_
  exact (Course.Beside.lift _).bind_eq fun d => .pure rfl

variable [LinearAction R V M] (hhess : ses.Serves op op' .hessian)
  (hline : LineSearch.Beside ses line line') (settings : NewtonCG.Settings R)

include hhess hline

theorem next_beside {s : State R V M} (hs : s.param.isSome) (ceiling : Value R)
    (time : Option (Value R)) :
    ses.Beside Eq (next op line settings s)
      (next op' line' settings (s.under ceiling time)) := by
  have hhess' : ses.Beside Eq (Session.hessian op s.param) (Session.hessian op' s.param) := by
    obtain ⟨x, hx⟩ := Option.isSome_iff_exists.mp hs
    rw [hx]
    exact hhess.evaluates x
  unfold next
  refine hhess'.bind_eq fun hess => (Course.Beside.lift _).bind_eq fun d => ?_
  exact Descending.advance_beside hcost hgrad hline d hs _ _

theorem beside (hlike : State.Steady like) :
    Solver.Beside ses Eq (State.Placed like) (algorithm (μ := μ) op line settings).toSolver
      (algorithm (μ := μ) op' line' settings).toSolver := by
  refine Algorithm.toSolver_beside rfl (fun s s' hs => ?_) (fun s s' hs => ?_) fun s s' hs => ?_
  all_goals rw [hlike.eq_under hs.2]
  · exact Bench.inSession_beside (init_beside hcost hgrad settings.tolGrad hs.1)
  · exact Bench.inSession_beside (next_beside hcost hgrad hhess hline settings hs.1 _ _)
  · exact .lift _

end NewtonCG

end

/-! ### Subproblems -/

omit [Scalar R] [Space R V] in
/-- Operators that have the same of the capabilities that are required are refused alike. -/
theorem Executor.check_eq_of_provides {name : String} {requires : List Capability}
    (h : ∀ cap ∈ requires, op.provides cap = op'.provides cap) :
    check op name requires = check op' name requires := by
  have hmissing : op.missing requires = op'.missing requires := by
    unfold Operator.missing
    refine List.filter_congr fun cap _ => ?_
    by_cases hcap : cap ∈ requires
    · rw [h cap hcap]
    · rw [List.contains_eq_mem, decide_eq_false hcap, Bool.false_and, Bool.false_and]
  unfold check
  rw [hmissing]

/-- Two solvers of subproblems that are given models in the same way. -/
structure Subproblem.GivenAlike (sub : Subproblem R V M σ μ) (sub' : Subproblem R V M υ μ) :
    Prop where
  setRadius : sub.setRadius = sub'.setRadius
  setGrad : sub.setGrad = sub'.setGrad
  setHessian : sub.setHessian = sub'.setHessian

/-- Such solvers that are refused alike, and go side by side. -/
structure Subproblem.Beside (ses : Course R (Session R σ) (Session R υ)) (op : Operator R V M σ)
    (op' : Operator R V M υ) (sub : Subproblem R V M σ μ) (sub' : Subproblem R V M υ μ) :
    Prop extends sub.GivenAlike sub' where
  solver : Solver.Beside ses Eq (State.Abreast Eq) sub.solver sub'.solver
  requires : sub.solver.requires = sub'.solver.requires
  provides : ∀ cap ∈ sub.solver.requires, op.provides cap = op'.provides cap

omit [Space R V] in
theorem Region.algorithm_beside (hlike : State.Steady like) (name label : String)
    (step : V → M → R → Except (Fault R) (Delta R V M)) :
    Solver.Beside ses Eq like (algorithm (σ := σ) name label step).toSolver
      (algorithm (σ := υ) name label step).toSolver := by
  refine Algorithm.toSolver_beside rfl (fun _ _ _ => .pure rfl) (fun _ _ _ => ?_) fun s s' hs => ?_
  · refine Course.Beside.get.bind fun b b' hb => ?_
    rw [hb]
    exact (Course.Beside.lift _).bind_eq fun parts => .lift _
  · rw [hlike.eq_under hs]
    exact .lift _

/-! ### The trust-region method -/

namespace TrustRegion

variable {sub : Subproblem R V M σ μ} {sub' : Subproblem R V M υ μ}

/-- The executor that a model is solved in. -/
def modelRun (grad : V) (b : Bench R σ (Memory R μ)) : Executor R V M σ μ :=
  .new b.memory.sub b.session (innerConfig grad)

/-- A model is solved by a run on a part of the bench. -/
theorem solveModel_eq (op : Operator R V M σ) (sub : Subproblem R V M σ μ) (grad : V) :
    solveModel op sub grad = (do
      lift (Executor.check op sub.solver.name sub.solver.requires)
      let outcome ← zoom (modelRun grad)
        (fun e b => ⟨{ b.memory with sub := e.stage.memory }, e.stage.session⟩)
        (Executor.run sub.solver)
      lift (Space.require outcome.state.param)) := by
  unfold solveModel
  congr 1
  funext _ b
  show _ = (zoom (modelRun grad) _ (Executor.run sub.solver) >>= _ : Act R _ V).run b
  rw [run_bind, run_zoom]
  show (((Executor.run sub.solver).run (modelRun grad b)).1 >>= fun o =>
      Space.require o.state.param,
    (⟨{ b.memory with sub := ((Executor.run sub.solver).run (modelRun grad b)).2.stage.memory },
      ((Executor.run sub.solver).run (modelRun grad b)).2.stage.session⟩ :
        Bench R σ (Memory R μ))) = _
  rcases (Executor.run sub.solver).run (modelRun grad b) with ⟨_ | o, e⟩ <;> rfl

theorem frames_modelRun (grad : V) :
    (Executor.course ses Eq (State.Abreast Eq) (Executor.Fellows (State.Abreast Eq))).Frames
      (Bench.course ses) (modelRun (M := M) (σ := σ) (μ := μ) grad) (modelRun grad)
      (fun e b => ⟨{ b.memory with sub := e.stage.memory }, e.stage.session⟩)
      (fun e b => ⟨{ b.memory with sub := e.stage.memory }, e.stage.session⟩) := by
  -- the nested runs have one configuration and no observers
  have hfellows : ∀ (b : Bench R σ (Memory R μ)) (b' : Bench R υ (Memory R μ)),
      Executor.Fellows (State.Abreast Eq) (modelRun (M := M) grad b) (modelRun grad b') :=
    fun b b' => ⟨rfl, rfl, rfl, .nil, nofun⟩
  refine ⟨fun {b b'} h => ?_, fun {b b' e e'} h he => ?_, fun h => h, fun {b} h => ?_,
    fun {b e} h he => ?_⟩
  · exact ⟨hfellows b b', ⟨congrArg Memory.sub h.1, rfl, rfl⟩, h.2⟩
  · obtain ⟨hmemory, -⟩ := h
    obtain ⟨-, ⟨hsub, -⟩, hsession⟩ := he
    refine ⟨?_, hsession⟩
    show Memory.mk _ _ = Memory.mk _ _
    rw [hmemory, hsub]
  · obtain ⟨⟨b', hmemory⟩, hsession⟩ := h
    exact ⟨⟨_, hfellows b b'⟩, ⟨(modelRun grad b').stage, congrArg Memory.sub hmemory, rfl, rfl⟩,
      hsession⟩
  · obtain ⟨⟨e', -⟩, -, hsession⟩ := he
    exact ⟨⟨⟨_, e'.stage.session⟩, rfl⟩, hsession⟩

theorem solveModel_beside (hbears : ses.Bears fun _ _ => True)
    (hsub : Subproblem.Beside ses op op' sub sub') (grad : V) :
    (Bench.course ses).Beside Eq (solveModel op sub grad) (solveModel op' sub' grad) := by
  rw [solveModel_eq, solveModel_eq, ← hsub.solver.name, ← hsub.requires,
    ← Executor.check_eq_of_provides hsub.provides]
  refine (Course.Beside.lift _).bind_eq fun _ => ?_
  have hrun := Executor.run_beside hbears State.lasting_abreast hsub.solver fun _ => trivial
  refine (hrun.zoom (frames_modelRun grad)).bind fun o o' ho => ?_
  have hparam : o'.state.param = o.state.param := by
    rw [ho.state.eq_under]
    rfl
  rw [hparam]
  exact .lift _

omit [Scalar R] in
theorem setWorking_beside (radius : R) :
    (Bench.course ses).Beside Eq (setWorking (μ := μ) radius) (setWorking radius) :=
  .modify_beside (fun _ => rfl) (fun _ => rfl) fun _ _ h =>
    congrArg (fun memory : Memory R μ => { memory with working := radius }) h

omit [Space R V] in
theorem prepare_beside (hgiven : sub.GivenAlike sub') (radius : R) (grad : V)
    (hessian : Option M) :
    (Bench.course ses).Beside Eq (prepare sub radius grad hessian)
      (prepare sub' radius grad hessian) := by
  unfold prepare
  rw [hgiven.setRadius, hgiven.setGrad, hgiven.setHessian]
  exact Bench.inMemory_beside _

variable (hcost : ses.Serves op op' .cost) (hgrad : ses.Serves op op' .gradient)
  (hhess : ses.Serves op op' .hessian) (settings : Settings R)

include hcost hgrad hhess

theorem init_beside {s : State R V M} (hs : s.param.isSome) :
    (Bench.course ses).Beside Eq (init (μ := μ) op settings s) (init op' settings s) := by
  obtain ⟨x, hx⟩ := Option.isSome_iff_exists.mp hs
  unfold init
  rw [hx]
  refine (setWorking_beside _).bind_eq fun _ => ?_
  refine (Bench.inSession_beside (Session.costValue_beside hcost x)).bind_eq fun cost => ?_
  refine (Course.Beside.lift _).bind_eq fun _ => ?_
  refine (Bench.inSession_beside (hgrad.evaluates x)).bind_eq fun grad => ?_
  refine (Course.Beside.lift _).bind_eq fun converged => Course.Beside.ite (.pure rfl) ?_
  exact (Bench.inSession_beside (hhess.evaluates x)).bind_eq fun hessian => .pure rfl

variable [LinearAction R V M] (hgiven : sub.GivenAlike sub')
  (hmodel : ∀ grad,
    (Bench.course ses).Beside Eq (solveModel op sub grad) (solveModel op' sub' grad))

include hgiven hmodel

theorem iterate_beside (s : State R V M) (grad : V) :
    (Bench.course ses).Beside Eq (iterate op sub settings s grad)
      (iterate op' sub' settings s grad) := by
  unfold iterate
  refine Course.Beside.get.bind fun b b' hb => ?_
  rw [hb]
  refine (prepare_beside hgiven _ _ _).bind_eq fun _ => ?_
  refine (hmodel grad).bind_eq fun step => ?_
  refine (Course.Beside.lift _).bind_eq fun y => ?_
  refine (Bench.inSession_beside (Session.costValue_beside hcost y)).bind_eq fun cost => ?_
  refine (Course.Beside.lift _).bind_eq fun promised => ?_
  refine (Course.Beside.lift _).bind_eq fun ratio => (setWorking_beside _).bind_eq fun _ => ?_
  refine Course.Beside.ite ?_ (.pure rfl)
  refine (Bench.inSession_beside (hgrad.evaluates y)).bind_eq fun grad => ?_
  exact (Bench.inSession_beside (hhess.evaluates y)).bind_eq fun hessian => .pure rfl

theorem beside (hlike : State.Steady like) :
    Solver.Beside ses Eq (State.Placed like) (algorithm op sub settings).toSolver
      (algorithm op' sub' settings).toSolver := by
  refine Algorithm.toSolver_beside rfl (fun s s' hs => ?_) (fun s s' hs => ?_) fun s s' hs => ?_
  all_goals rw [hlike.eq_under hs.2]
  · exact init_beside hcost hgrad hhess settings hs.1
  · refine (Course.Beside.lift _).bind_eq fun converged => Course.Beside.ite (.pure rfl) ?_
    refine (Course.Beside.lift _).bind_eq fun grad => ?_
    exact iterate_beside hcost hgrad hhess settings hgiven hmodel s grad
  · exact .lift _

end TrustRegion

/-! ### Methods -/

variable [LinearAction R V M]

/-- A method that minimises, with whatever components and constants. -/
inductive Method.Descends : Method R V M → Prop
  | steepestDescent (line : Method R V M) (tolGrad : R) : Descends (.steepestDescent line tolGrad)
  | newtonCG (line : Method R V M) (settings : NewtonCG.Settings R) :
    Descends (.newtonCG line settings)
  | trustRegion (sub : Method R V M) (settings : TrustRegion.Settings R) :
    Descends (.trustRegion sub settings)

namespace Method

omit [LinearAction R V M] in
theorem lineSearch_beside [Nonempty (Session R υ)] (hcost : ses.Serves op op' .cost)
    (hgrad : ses.Serves op op' .gradient) (m : Method R V M) :
    LineSearch.Beside ses (m.lineSearch op) (m.lineSearch op') := by
  cases m with
  | backtracking b => exact b.lineSearch_beside hcost hgrad
  | wolfe w => exact w.lineSearch_beside hcost hgrad
  | _ => exact fun _ _ _ _ _ => .throw _

/-- A method in the place of a subproblem solver does not call the operator. -/
theorem subproblem_solver_beside (hlike : State.Steady like) (m : Method R V M) :
    Solver.Beside ses Eq like (m.subproblem (σ := σ)).solver (m.subproblem (σ := υ)).solver := by
  cases m with
  | cauchy => exact (Region.algorithm_beside hlike _ _ _).widen
  | dogleg => exact (Region.algorithm_beside hlike _ _ _).widen
  | _ => exact ⟨rfl, .throw _, .throw _, .throw _⟩

theorem subproblem_beside (hcost : ses.Serves op op' .cost) (m : Method R V M) :
    Subproblem.Beside ses op op' (m.subproblem (σ := σ)) (m.subproblem (σ := υ)) := by
  have hsolver : Solver.Beside ses Eq (State.Abreast Eq) (m.subproblem (σ := σ)).solver
      (m.subproblem (σ := υ)).solver :=
    subproblem_solver_beside (State.steady_abreast Eq) m
  have hcap : ∀ cap ∈ [Capability.cost], op.provides cap = op'.provides cap := by
    intro cap hcap
    obtain rfl := List.mem_singleton.mp hcap
    exact hcost.provides
  cases m with
  | cauchy => exact ⟨⟨rfl, rfl, rfl⟩, hsolver, rfl, hcap⟩
  | dogleg => exact ⟨⟨rfl, rfl, rfl⟩, hsolver, rfl, hcap⟩
  | _ => exact ⟨⟨rfl, rfl, rfl⟩, hsolver, rfl, nofun⟩

/-- A method that minimises goes side by side with itself where it is served alike for all that it
requires, if the runs in which it solves its models do. -/
theorem Descends.beside_of_models [Nonempty (Session R υ)] {m : Method R V M} (hm : m.Descends)
    {a : Solver R V M σ (Memory R V M)} {b : Solver R V M υ (Memory R V M)}
    (ha : m.solver op = some a) (hb : m.solver op' = some b)
    (hserves : ∀ cap ∈ a.requires, ses.Serves op op' cap)
    (hmodels : ses.Serves op op' .cost → ∀ (sub : Method R V M) (grad : V),
      (Bench.course ses).Beside Eq (TrustRegion.solveModel op sub.subproblem grad)
        (TrustRegion.solveModel op' sub.subproblem grad))
    (hlike : State.Steady like) : Solver.Beside ses Eq (State.Placed like) a b := by
  cases hm with
  | steepestDescent line tol =>
    cases ha
    cases hb
    -- what the solver requires is served on both sides
    replace hserves : ∀ cap ∈ [Capability.cost, .gradient], ses.Serves op op' cap := hserves
    have hcost := hserves .cost (by decide)
    have hgrad := hserves .gradient (by decide)
    exact SteepestDescent.beside hcost hgrad hlike (lineSearch_beside hcost hgrad line) tol
  | newtonCG line settings =>
    cases ha
    cases hb
    replace hserves : ∀ cap ∈ [Capability.cost, .gradient, .hessian], ses.Serves op op' cap :=
      hserves
    have hcost := hserves .cost (by decide)
    have hgrad := hserves .gradient (by decide)
    exact NewtonCG.beside hcost hgrad (hserves .hessian (by decide))
      (lineSearch_beside hcost hgrad line) settings hlike
  | trustRegion sub settings =>
    cases ha
    cases hb
    replace hserves : ∀ cap ∈ [Capability.cost, .gradient, .hessian], ses.Serves op op' cap :=
      hserves
    have hcost := hserves .cost (by decide)
    exact (TrustRegion.beside hcost (hserves .gradient (by decide)) (hserves .hessian (by decide))
      settings (subproblem_beside hcost sub).toGivenAlike (hmodels hcost sub) hlike).widen

/-- Along a course that sees what a run looks at, they do. -/
theorem Descends.beside [Nonempty (Session R υ)] {m : Method R V M} (hm : m.Descends)
    {a : Solver R V M σ (Memory R V M)} {b : Solver R V M υ (Memory R V M)}
    (ha : m.solver op = some a) (hb : m.solver op' = some b)
    (hserves : ∀ cap ∈ a.requires, ses.Serves op op' cap) (hbears : ses.Bears fun _ _ => True)
    (hlike : State.Steady like) : Solver.Beside ses Eq (State.Placed like) a b :=
  hm.beside_of_models ha hb hserves
    (fun hcost sub grad => TrustRegion.solveModel_beside hbears (subproblem_beside hcost sub) grad)
    hlike

theorem Descends.abstains {m : Method R V M} (hm : m.Descends)
    {solver : Solver R V M σ (Memory R V M)} (h : m.solver op = some solver) :
    solver.Abstains := by
  cases hm with
  | steepestDescent line tol =>
    cases h
    exact Algorithm.abstains_toSolver _
  | newtonCG line settings =>
    cases h
    exact Algorithm.abstains_toSolver _
  | trustRegion sub settings =>
    cases h
    exact (Algorithm.abstains_toSolver _).widen

theorem Descends.decides {m : Method R V M} (hm : m.Descends)
    {solver : Solver R V M σ (Memory R V M)} (h : m.solver op = some solver) :
    solver.Decides := by
  cases hm <;> cases h <;> exact fun _ => rfl

/-- What a method requires does not depend on the operator. -/
theorem Descends.requires_eq {m : Method R V M} (hm : m.Descends)
    {a : Solver R V M σ (Memory R V M)} {b : Solver R V M υ (Memory R V M)}
    (ha : m.solver op = some a) (hb : m.solver op' = some b) : a.requires = b.requires := by
  cases hm <;> cases ha <;> cases hb <;> rfl

end Method

end Descent
