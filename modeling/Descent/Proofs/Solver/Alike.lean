import Descent.Proofs.Run.Alike
import Descent.Proofs.Run.Reached
import Descent.Proofs.Solver.Beside

/-!
# What a solver reads of its memory

A subproblem solver reads of its memory the model, and a trust-region method the working radius and
the model of its component; steepest descent and Newton's method read nothing.  On memories that
are the same in this (`Method.Matches`) their steps do the same (`Method.alike`).

The first thing that the preparation of a trust-region method does is to set the working radius, so
it does not matter what that was before (`TrustRegion.run_init`).
-/

namespace Descent

open Act

variable {R V M σ μ ν α : Type} [Scalar R] {mem : μ → ν → Prop}

/-! ### Steps on a bench -/

/-- Two benches that differ in their memories only, which are related. -/
structure Bench.Alike (mem : μ → ν → Prop) (b : Bench R σ μ) (b' : Bench R σ ν) : Prop where
  memory : mem b.memory b'.memory
  session : b.session = b'.session

omit [Scalar R] in
theorem Bench.inSession_alike (a : Act R (Session R σ) α) :
    Related (Bench.Alike mem) Eq (inSession a) (inSession a) := by
  intro b b' h
  show Bench.Alike mem ⟨b.memory, (a.run b.session).2⟩ ⟨b'.memory, (a.run b'.session).2⟩ ∧
    Agree Eq (a.run b.session).1 (a.run b'.session).1
  rw [h.session]
  exact ⟨⟨h.memory, rfl⟩, .refl _⟩

theorem Algorithm.onStage_alike {step : State R V M → Act R (Bench R σ μ) α}
    {step' : State R V M → Act R (Bench R σ ν) α}
    (h : ∀ s, Related (Bench.Alike mem) Eq (step s) (step' s)) :
    Related (Stage.Alike mem) Eq (onStage step) (onStage step') := by
  intro t u htu
  have hstate := htu.state
  obtain ⟨hb, hr⟩ := h t.state ⟨t.memory, t.session⟩ ⟨u.memory, u.session⟩
    ⟨htu.memory, htu.session⟩
  rw [hstate] at hb hr
  show Stage.Alike mem
    ⟨((step t.state).run _).2.memory, t.state, ((step t.state).run _).2.session⟩
    ⟨((step' u.state).run _).2.memory, u.state, ((step' u.state).run _).2.session⟩ ∧
      Agree Eq ((step t.state).run _).1 ((step' u.state).run _).1
  rw [hstate]
  exact ⟨⟨hb.memory, rfl, hb.session⟩, hr⟩

theorem Algorithm.toSolver_alike {a : Algorithm R V M σ μ} {b : Algorithm R V M σ ν}
    (hname : a.name = b.name) (hinit : ∀ s, Related (Bench.Alike mem) Eq (a.init s) (b.init s))
    (hnext : ∀ s, Related (Bench.Alike mem) Eq (a.next s) (b.next s))
    (hterminate : ∀ s, Related (Bench.Alike mem) Eq (a.terminate s) (b.terminate s)) :
    Solver.Alike mem a.toSolver b.toSolver where
  name := hname
  init := onStage_alike hinit
  next := onStage_alike fun s => by
    rw [map_eq_pure_bind, map_eq_pure_bind]
    exact (hnext s).bind_eq fun d => .pure rfl
  terminate := onStage_alike hterminate

/-- A solver that reads a part of a memory does the same on memories of which the parts are
related. -/
theorem Solver.Alike.widen [Space R V] [LinearAction R V M] {ν' : Type} {get : ν → μ} {put : μ → ν}
    {get' : ν' → μ} {put' : μ → ν'} {part : μ → μ → Prop} {whole : ν → ν' → Prop}
    {a b : Solver R V M σ μ} (h : Solver.Alike part a b)
    (henter : ∀ m m', whole m m' → part (get m) (get' m'))
    (hleave : ∀ x y, part x y → whole (put x) (put' y)) :
    Solver.Alike whole (Method.widen get put a) (Method.widen get' put' b) := by
  have hwithin {β : Type} {x y : Act R (Stage R V M σ μ) β}
      (hxy : Related (Stage.Alike part) Eq x y) :
      Related (Stage.Alike whole) Eq (Stage.within get (fun m _ => put m) x)
        (Stage.within get' (fun m _ => put' m) y) :=
    hxy.zoom (fun t u htu => ⟨henter _ _ htu.memory, htu.state, htu.session⟩)
      fun t u v w _ hvw => ⟨hleave _ _ hvw.memory, hvw.state, hvw.session⟩
  exact ⟨h.name, hwithin h.init, hwithin h.next, hwithin h.terminate⟩

/-- A solver is like itself on the same memory. -/
theorem Solver.Alike.rfl {a : Solver R V M σ μ} : Solver.Alike Eq a a := by
  have hstep {β : Type} (x : Act R (Stage R V M σ μ) β) : Related (Stage.Alike Eq) Eq x x := by
    rintro ⟨memory, state, session⟩ ⟨_, _, _⟩ ⟨hmemory, hstate, hsession⟩
    cases hmemory
    cases hstate
    cases hsession
    exact ⟨⟨Eq.refl _, Eq.refl _, Eq.refl _⟩, .refl _⟩
  exact ⟨Eq.refl _, hstep _, hstep _, hstep _⟩

/-! ### Subproblems -/

variable [Space R V]

/-- A subproblem solver that does the same on related memories. -/
structure Subproblem.Alike (mem : μ → μ → Prop) (sub : Subproblem R V M σ μ) : Prop where
  solver : Solver.Alike mem sub.solver sub.solver
  setRadius : ∀ r, Related mem Eq (sub.setRadius r) (sub.setRadius r)
  setGrad : ∀ g, Related mem Eq (sub.setGrad g) (sub.setGrad g)
  setHessian : ∀ h, Related mem Eq (sub.setHessian h) (sub.setHessian h)

variable [LinearAction R V M]

/-! ### The trust-region method -/

namespace TrustRegion

variable {sub : Subproblem R V M σ μ} {keep : μ → μ → Prop}

/-- Memories with one working radius and related memories of the component. -/
structure Memory.Alike (keep : μ → μ → Prop) (m m' : Memory R μ) : Prop where
  working : m.working = m'.working
  sub : keep m.sub m'.sub

omit [Scalar R] in
theorem setWorking_alike (radius : R) :
    Related (Bench.Alike (Memory.Alike keep)) Eq
      (setWorking radius : Act R (Bench R σ (Memory R μ)) Unit) (setWorking radius) :=
  .modify fun _ _ h => ⟨⟨rfl, h.memory.sub⟩, h.session⟩

omit [Space R V] [LinearAction R V M] in
theorem prepare_alike (hsub : sub.Alike keep) (radius : R) (grad : V) (hessian : Option M) :
    Related (Bench.Alike (Memory.Alike keep)) Eq (prepare sub radius grad hessian)
      (prepare sub radius grad hessian) := by
  unfold prepare
  have hgiven : Related keep Eq
      (do sub.setRadius radius; sub.setGrad (some grad); sub.setHessian hessian)
      (do sub.setRadius radius; sub.setGrad (some grad); sub.setHessian hessian) :=
    (hsub.setRadius _).bind_eq fun _ => (hsub.setGrad _).bind_eq fun _ => hsub.setHessian _
  have hzoom : Related (Memory.Alike keep) Eq
      (zoom Memory.sub (fun m (t : Memory R μ) => { t with sub := m }) _)
      (zoom Memory.sub (fun m (t : Memory R μ) => { t with sub := m }) _) :=
    hgiven.zoom (fun _ _ h => h.sub) fun _ _ _ _ h hx => ⟨h.working, hx⟩
  exact hzoom.zoom (fun _ _ h => h.memory) fun _ _ _ _ h hx => ⟨hx, h.session⟩

omit [LinearAction R V M] in
theorem solveModel_alike (op : Operator R V M σ) (hsub : sub.Alike keep) (grad : V) :
    Related (Bench.Alike (Memory.Alike keep)) Eq (solveModel op sub grad)
      (solveModel op sub grad) := by
  rw [solveModel_eq]
  refine (Related.lift _).bind_eq fun _ => ?_
  refine Related.bind_eq ?_ fun outcome => .lift _
  refine (Executor.run_alike hsub.solver).zoom (fun b b' h => ?_) fun b b' e e' h he => ?_
  · exact ⟨rfl, rfl, rfl, ⟨h.memory.sub, rfl, h.session⟩, rfl⟩
  · exact ⟨⟨h.memory.working, he.stage.memory⟩, he.stage.session⟩

omit [LinearAction R V M] in
/-- The preparation does not look at the memory of the component. -/
theorem init_alike (op : Operator R V M σ) (settings : Settings R) (s : State R V M) :
    Related (Bench.Alike (Memory.Alike keep)) Eq (init op settings s) (init op settings s) := by
  unfold init
  refine (setWorking_alike _).bind_eq fun _ => (Bench.inSession_alike _).bind_eq fun cost => ?_
  refine (Related.lift _).bind_eq fun _ => (Bench.inSession_alike _).bind_eq fun grad => ?_
  refine (Related.lift _).bind_eq fun converged => Related.ite (.pure rfl) ?_
  exact (Bench.inSession_alike _).bind_eq fun hessian => .pure rfl

/-- A trust-region method does the same on memories with one working radius and related memories of
the component. -/
theorem alike (op : Operator R V M σ) (hsub : sub.Alike keep) (settings : Settings R) :
    Solver.Alike (Memory.Alike keep) (algorithm op sub settings).toSolver
      (algorithm op sub settings).toSolver := by
  refine Algorithm.toSolver_alike rfl (init_alike op settings) (fun s => ?_) fun s => .lift _
  · show Related _ Eq (next op sub settings s) (next op sub settings s)
    unfold next
    refine (Related.lift _).bind_eq fun converged => Related.ite (.pure rfl) ?_
    refine (Related.lift _).bind_eq fun grad => ?_
    unfold iterate
    refine Related.get.bind fun b b' h => ?_
    rw [h.memory.working]
    refine (prepare_alike hsub _ _ _).bind_eq fun _ => ?_
    refine (solveModel_alike op hsub grad).bind_eq fun step => (Related.lift _).bind_eq fun y => ?_
    refine (Bench.inSession_alike _).bind_eq fun cost => (Related.lift _).bind_eq fun promised => ?_
    refine (Related.lift _).bind_eq fun ratio => (setWorking_alike _).bind_eq fun _ => ?_
    refine Related.ite ?_ (.pure rfl)
    refine (Bench.inSession_alike _).bind_eq fun grad => ?_
    exact (Bench.inSession_alike _).bind_eq fun hessian => .pure rfl

omit [LinearAction R V M] in
/-- The preparation sets the working radius first, whatever it was. -/
theorem run_init (op : Operator R V M σ) (settings : Settings R) (s : State R V M) (radius : R)
    (m : μ) (session : Session R σ) :
    (init op settings s).run ⟨⟨radius, m⟩, session⟩ =
      (init op settings s).run ⟨⟨settings.radius, m⟩, session⟩ := by
  have hset (r : R) :
      (setWorking settings.radius).run (⟨⟨r, m⟩, session⟩ : Bench R σ (Memory R μ)) =
        (.ok (), ⟨⟨settings.radius, m⟩, session⟩) := rfl
  unfold init
  rw [run_bind_of_ok (hset radius), run_bind_of_ok (hset settings.radius)]

end TrustRegion

/-! ### Methods -/

namespace Method

/-- A method reads of its memory as a subproblem solver no more than the model. -/
theorem subproblem_alike (m : Method R V M) :
    Subproblem.Alike (fun p q : Memory R V M => p.model = q.model) (m.subproblem (σ := σ)) := by
  have hregion (s : Subproblem R V M σ (Region R V M)) :
      Subproblem.Alike (fun p q : Memory R V M => p.model = q.model) (widenSubproblem s) := by
    have hmodel (a : Act R (Region R V M) Unit) :
        Related (fun p q : Memory R V M => p.model = q.model) Eq (onModel a) (onModel a) :=
      (Related.refl a).zoom (fun _ _ h => h) fun _ _ _ _ _ h => h
    exact ⟨Solver.Alike.rfl.widen (fun _ _ h => h) fun _ _ h => h, fun r => hmodel _,
      fun g => hmodel _, fun h => hmodel _⟩
  cases m with
  | cauchy => exact hregion _
  | dogleg => exact hregion _
  | _ =>
    exact ⟨⟨rfl, .throw _, .throw _, .throw _⟩, fun _ => .throw _, fun _ => .throw _,
      fun _ => .throw _⟩

/-- Two memories are the same in what a method reads of them. -/
def Matches : Method R V M → Memory R V M → Memory R V M → Prop
  | cauchy, p, q | dogleg, p, q => p.model = q.model
  | steepestDescent _ _, _, _ | newtonCG _ _, _, _ => True
  | trustRegion _ s, p, q =>
    TrustRegion.Memory.Alike (fun p q : Memory R V M => p.model = q.model) (p.trusted s.radius)
      (q.trusted s.radius)
  | _, p, q => p = q

/-- A method does the same on memories that are the same in what it reads of them. -/
theorem alike {op : Operator R V M σ} {m : Method R V M} {solver : Solver R V M σ (Memory R V M)}
    (h : m.solver op = some solver) : Solver.Alike m.Matches solver solver := by
  cases m with
  | cauchy | dogleg =>
    cases h
    exact Solver.Alike.rfl.widen (fun _ _ h => h) fun _ _ h => h
  | steepestDescent line tol =>
    cases h
    exact Algorithm.toSolver_alike rfl (fun _ => Bench.inSession_alike _)
      (fun _ => Bench.inSession_alike _) fun _ => .lift _
  | newtonCG line settings =>
    cases h
    exact Algorithm.toSolver_alike rfl (fun _ => Bench.inSession_alike _)
      (fun _ => Bench.inSession_alike _) fun _ => .lift _
  | trustRegion sub settings =>
    cases h
    exact (TrustRegion.alike op sub.subproblem_alike settings).widen (fun _ _ h => h)
      fun _ _ h => h
  | halving | scripted =>
    cases h
    exact Solver.Alike.rfl
  | backtracking | wolfe | other => cases h

end Method

end Descent
