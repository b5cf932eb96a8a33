import Descent.Proofs.Run.Progress
import Descent.Proofs.Run.Trusting
import Descent.Proofs.Run.Unobserved
import Descent.Proofs.Solver.Beside
import Mathlib.Data.Nat.Count

/-!
# The bill of a trust-region run

A run that is nested in another one shares its session.  A solver is detached if none of its steps
touches that session (`Solver.Detached`).  A run of one leaves everything in the session as it was
but the reports, whether it ends with an outcome or with a fault
(`Executor.keeps_unreported_run`).  What solves the model of a trust-region method is detached
(`Method.detached_subproblem`), so to have a model solved charges nothing
(`TrustRegion.keeps_unreported_solveModel`).

The preparation of a run of the trust-region method is charged a cost and a gradient, and a Hessian
unless it starts at a stationary point.  Every iteration is charged the cost where its step leads,
and if it takes the step the gradient and the Hessian there (`TrustRegion.billed_of_iterate`).  No
iteration starts at a stationary point, so none is for free.  So the charges of a run are known from
the number of its iterations and of those that took their step (`TrustRegion.billed_of_reached`).
-/

namespace Descent

open Act (Keeps)

variable {R V M σ μ ν : Type} [Scalar R]

/-! ### Solvers that do not touch the session -/

/-- None of the solver's steps touches the session. -/
structure Solver.Detached (solver : Solver R V M σ μ) : Prop where
  init : Keeps Stage.session solver.init
  next : Keeps Stage.session solver.next
  terminate : Keeps Stage.session solver.terminate

/-- A step that leaves the session of its bench alone leaves that of a stage alone. -/
theorem Algorithm.keeps_session_onStage {α : Type} {step : State R V M → Act R (Bench R σ μ) α}
    (h : ∀ s, Keeps Bench.session (step s)) : Keeps Stage.session (onStage step) :=
  fun t => h t.state ⟨t.memory, t.session⟩

theorem Solver.Detached.widen {get : ν → μ} {put : μ → ν} {solver : Solver R V M σ μ}
    (h : solver.Detached) : (Method.widen get put solver).Detached where
  init t := h.init ⟨get t.memory, t.state, t.session⟩
  next t := h.next ⟨get t.memory, t.state, t.session⟩
  terminate t := h.terminate ⟨get t.memory, t.state, t.session⟩

/-- To answer with a step for a model takes no session. -/
theorem Region.detached_algorithm (name label : String)
    (step : V → M → R → Except (Fault R) (Delta R V M)) :
    (Region.algorithm (σ := σ) name label step).toSolver.Detached where
  init := Algorithm.keeps_session_onStage fun _ => .pure _
  next := by
    refine Algorithm.keeps_session_onStage fun _ => Keeps.bind ?_ fun _ => .pure _
    exact Keeps.get.bind fun b => (Keeps.lift _).bind fun parts => .lift _
  terminate := Algorithm.keeps_session_onStage fun _ => .lift _

/-- No method touches the session where it is to solve a model. -/
theorem Method.detached_subproblem [Space R V] [LinearAction R V M] (m : Method R V M) :
    (m.subproblem (σ := σ)).solver.Detached := by
  cases m with
  | cauchy => exact (Region.detached_algorithm _ _ _).widen
  | dogleg => exact (Region.detached_algorithm _ _ _).widen
  | _ => exact ⟨.throw _, .throw _, .throw _⟩

/-! ### Runs -/

namespace Executor

variable {solver : Solver R V M σ μ}

/-- The session, the reports aside. -/
def unreported (e : Executor R V M σ μ) : Session R σ := e.stage.session.untold

theorem keeps_unreported_onStage {α : Type} {a : Act R (Stage R V M σ μ) α}
    (h : Keeps Stage.session a) : Keeps unreported (onStage a) :=
  fun e => (h.comp Session.untold) e.stage

/-- What is told changes the reports only. -/
theorem keeps_unreported_of_untold {α : Type} {a : Act R (Executor R V M σ μ) α}
    (h : Keeps untold a) : Keeps unreported a :=
  h.comp fun e => e.stage.session

theorem keeps_unreported_prepare (h : solver.Detached) : Keeps unreported (prepare solver) := by
  unfold prepare
  refine (keeps_unreported_onStage h.init).bind fun o => ?_
  cases o with
  | none => exact .pure _
  | some d =>
    refine Keeps.bind (fun _ => rfl) fun _ => ?_
    cases d.termination with
    | none => exact .pure _
    | some reason => exact fun _ => rfl

theorem keeps_unreported_step (h : solver.Detached) : Keeps unreported (step solver) := by
  unfold step iterate
  refine Keeps.bind (fun _ => rfl) fun before => Keeps.bind ?_ fun newBest =>
    keeps_unreported_of_untold (keeps_untold_conclude before newBest)
  refine (keeps_unreported_onStage h.next).bind fun o => (Keeps.lift _).bind fun d => ?_
  refine Keeps.bind (fun _ => rfl) fun newBest => Keeps.bind (fun e => ?_) fun _ => ?_
  · rw [run_advance]
    cases e.stage.state.incrementIter <;> rfl
  · refine (keeps_verdict (keeps_unreported_onStage h.terminate) d).bind fun reason => ?_
    exact Keeps.bind (fun _ => rfl) fun _ => .pure _

/-- A run of a detached solver leaves all of its session but the reports as it was, whatever becomes
of the run. -/
theorem keeps_unreported_run (h : solver.Detached) : Keeps unreported (run solver) := by
  have hdrive : Keeps unreported (drive solver).attempt :=
    keeps_drive (keeps_unreported_prepare h) (keeps_unreported_step h)
  intro e
  rw [run_run]
  split
  · rfl
  · cases e.config.validate with
    | error f => rfl
    | ok _ =>
      -- the run is started, driven and settled, and only driving it asks the solver
      have hbegun : (begun solver e).unreported = e.unreported := rfl
      refine Eq.trans ?_ hbegun
      refine hdrive.bind (fun r => ?_) (begun solver e)
      cases r with
      | ok _ => exact fun _ => rfl
      | error f => exact (Keeps.throw f).ite fun _ => rfl

/-- So the charges that its outcome tells of are those that were there before. -/
theorem counts_of_run (h : solver.Detached) {e e' : Executor R V M σ μ} {outcome : Outcome R V M}
    (hrun : (run solver).run e = (.ok outcome, e')) :
    outcome.counts = e.stage.session.counts := by
  obtain ⟨k, u, -, -, rfl, huntold⟩ := ended_of_run hrun
  have hkept : e'.stage.session.counts = e.stage.session.counts :=
    ((keeps_unreported_run h).comp Session.counts).run_eq hrun
  have hlast : e'.stage.session.counts = u.stage.session.counts :=
    congrArg (fun e => e.stage.session.counts) huntold
  exact hlast.symm.trans hkept

end Executor

/-- To have a model solved leaves all of the session but the reports as it was. -/
theorem TrustRegion.keeps_unreported_solveModel [Space R V] (op : Operator R V M σ)
    {sub : Subproblem R V M σ μ} (h : sub.solver.Detached) (grad : V) :
    Keeps (fun b => b.session.untold) (solveModel op sub grad) := by
  rw [solveModel_eq]
  refine (Keeps.lift _).bind fun _ => Keeps.bind (fun b => ?_) fun outcome => .lift _
  exact Executor.keeps_unreported_run h (modelRun grad b)

end Descent

namespace Descent

open Act (run_zoom_eq)

variable {R V M σ μ : Type} [Scalar R]

/-! ### Charges -/

/-- The counts with evaluations added. -/
def Counts.plus (c : Counts) (cost gradient hessian : Nat) : Counts :=
  ⟨c.cost + cost, c.gradient + gradient, c.hessian + hessian⟩

theorem Counts.plus_plus (c : Counts) (i j k i' j' k' : Nat) :
    (c.plus i j k).plus i' j' k' = c.plus (i + i') (j + j') (k + k') := by
  simp only [plus, Nat.add_assoc]

namespace TrustRegion

open Executor (Reached bowl cauchySolver cauchyTrust continues overBowl ready)

/-! ### What an iteration decides -/

/-- The iteration that led to the state took its step: the ratio that it tells of exceeds the
threshold. -/
def Took (settings : Settings R) (s : State R V M) : Prop :=
  ∃ ratio, s.kv.lookup "rho" = some (.real ratio) ∧ settings.eta < ratio

theorem took_iff {settings : Settings R} {s : State R V M} {radius ratio : R}
    (hkv : s.kv = told radius ratio) : Took settings s ↔ settings.eta < ratio := by
  have hlookup : s.kv.lookup "rho" = some (.real ratio) := by
    rw [hkv]
    rfl
  constructor
  · rintro ⟨ratio', htold, hlt⟩
    rw [hlookup] at htold
    cases htold
    exact hlt
  · exact fun hlt => ⟨ratio, hlookup, hlt⟩

variable [Space R V]

/-- The iteration went where its step leads, and the state has what was evaluated there. -/
inductive Goes (op : Operator R V M σ) (s s' : State R V M) : Prop
  | intro {x step y : V} {cost : R} {grad' : Option V} {hessian' : Option M}
      (point : s.param = some x) (leads : Space.add x step = .ok y)
      (costs : (Session.costValue op (some y)).Answers cost)
      (slopes : (Session.gradient op (some y)).Answers grad')
      (bends : (Session.hessian op (some y)).Answers hessian')
      (param : s'.param = some y) (prevParam : s'.prevParam = s.param)
      (cost : s'.cost = .real cost) (prevCost : s'.prevCost = s.cost)
      (grad : s'.grad = grad'.or s.grad) (hessian : s'.hessian = hessian'.or s.hessian)

variable {op : Operator R V M σ} {settings : Settings R} {s s' : State R V M}

/-- To merge everything that was evaluated at a point is to go there. -/
theorem goes_of_merge {x step y : V} {cost : R} {grad' : Option V} {hessian' : Option M}
    (hpoint : s.param = some x) (hleads : Space.add x step = .ok y)
    (hcost : (Session.costValue op (some y)).Answers cost)
    (hgrad : (Session.gradient op (some y)).Answers grad')
    (hhessian : (Session.hessian op (some y)).Answers hessian') {kv : List (String × Value R)}
    {newBest : Bool}
    (hmerge : s.merge ⟨some y, some (.real cost), grad', hessian', none, kv⟩ = (.ok newBest, s'))
    (curIter : Value R) (reason : Reason) :
    Goes op s { s' with curIter := curIter, reason := reason } := by
  rw [State.merge_of_ok rfl rfl] at hmerge
  have hmerged := congrArg Prod.snd hmerge
  rcases State.mergeCost_snd (s.facing _) cost with hs | hs <;> rw [hs] at hmerged <;>
    subst hmerged <;>
    exact .intro hpoint hleads hcost hgrad hhessian rfl rfl rfl rfl rfl rfl

variable [LinearAction R V M] {grad : V} {b b' : Bench R σ (Memory R μ)}
  {sub : Subproblem R V M σ μ} (hsub : sub.solver.Detached)

include hsub

/-- A trial is charged one cost: the run that solves the model is nested, and leaves the charges
alone. -/
theorem Trial.counts {x step y : V} {cost promised ratio : R} {after : Bench R σ (Memory R μ)}
    (h : Trial op sub s grad b x step y cost promised ratio after) :
    after.session.counts = b.session.counts.plus 1 0 0 := by
  obtain ⟨b₁, b₂, hprepare, hsolve, hzoom⟩ := h.handed
  obtain ⟨session, hcost, rfl⟩ := run_zoom_eq.mp hzoom
  have hprepared : b₁.session = b.session :=
    Act.Keeps.run_eq (f := Bench.session) (fun _ => rfl) hprepare
  have hsolved : b₂.session.counts = b₁.session.counts :=
    ((keeps_unreported_solveModel op hsub grad).comp Session.counts).run_eq hsolve
  calc
    session.counts = b₂.session.counts.charge .cost := Session.counts_of_costValue hcost
    _ = b.session.counts.charge .cost := by rw [hsolved, hprepared]

/-- An iteration is charged the cost where its step leads, and goes there if it is charged the
gradient and the Hessian too; otherwise it leaves all but the diagnostics as it was. -/
theorem billed_of_iterate {d : Delta R V M} {newBest : Bool}
    (h : (iterate op sub settings s grad).run b = (.ok d, b'))
    (hmerge : s.merge d = (.ok newBest, s')) (curIter : Value R) (reason : Reason) :
    (Took settings s' ∧ Goes op s { s' with curIter := curIter, reason := reason } ∧
        b'.session.counts = b.session.counts.plus 1 1 1) ∨
      ¬ Took settings s' ∧ Rejects s { s' with curIter := curIter, reason := reason } ∧
        b'.session.counts = b.session.counts.plus 1 0 0 := by
  obtain ⟨x, step, y, cost, promised, ratio, after, htrial, -, hanswer⟩ := iterate_eq_ok h
  have hafter := htrial.counts hsub
  have hmerged : (s.merge d).2 = s' := congrArg Prod.snd hmerge
  -- the diagnostics of the merged state tell whether the step was taken
  have hkv : s'.kv = told b'.memory.working ratio := by
    rw [← hmerged, State.merge_kv]
    rcases hanswer with ⟨-, g, hess, u, -, -, rfl⟩ | ⟨-, -, rfl⟩ <;> rfl
  rcases hanswer with ⟨htaken, g, hess, u, hgrad, hhessian, rfl⟩ | ⟨hleft, hsession, rfl⟩
  · -- a step taken costs one evaluation each
    refine .inl ⟨(took_iff hkv).mpr htaken, ?_, ?_⟩
    · obtain ⟨b₁, b₂, -, -, hzoom⟩ := htrial.handed
      obtain ⟨t, hcost, -⟩ := run_zoom_eq.mp hzoom
      exact goes_of_merge htrial.point htrial.leads ⟨_, _, hcost⟩ ⟨_, _, hgrad⟩ ⟨_, _, hhessian⟩
        hmerge curIter reason
    · rw [Session.counts_of_evaluate hhessian, Session.counts_of_evaluate hgrad, hafter]
      rfl
  · -- a step left costs the evaluation at the point tried
    refine .inr ⟨fun htook => hleft ((took_iff hkv).mp htook), ?_, ?_⟩
    · exact rejects_of_still ⟨rfl, rfl, rfl, rfl⟩ hmerge curIter reason
    · rw [hsession, hafter]

omit hsub

/-! ### Runs -/

open Classical in
/-- How many of the first `k` iterations of a run took their step. -/
noncomputable def stepsTaken (settings : Settings R) (solver : Solver R V M σ μ)
    (e : Executor R V M σ μ) (k : Nat) : Nat :=
  Nat.count (fun j => ∃ u, Reached solver e (j + 1) u ∧ Took settings u.stage.state) k

open Classical in
omit [Space R V] [LinearAction R V M] in
theorem stepsTaken_succ {solver : Solver R V M σ μ} {e u : Executor R V M σ μ} {k : Nat}
    (h : Reached solver e (k + 1) u) :
    stepsTaken settings solver e (k + 1) =
      stepsTaken settings solver e k + if Took settings u.stage.state then 1 else 0 := by
  have hlast : (∃ v, Reached solver e (k + 1) v ∧ Took settings v.stage.state) ↔
      Took settings u.stage.state :=
    ⟨fun ⟨v, hv, htook⟩ => h.unique hv ▸ htook, fun htook => ⟨u, h, htook⟩⟩
  unfold stepsTaken
  rw [Nat.count_succ, if_congr hlast rfl rfl]

/-- After `k` iterations, `a` of which took their step, a run that did not start at a stationary
point was charged a cost for each of those and one more, and a gradient and a Hessian for each of
these and one more.  Where it goes on the point is not stationary. -/
structure Billed (settings : Settings R) (before : Counts) (k a : Nat)
    (e : Executor R V M σ μ) : Prop where
  counts : e.stage.session.counts = before.plus (1 + k) (1 + a) (1 + a)
  moving : e.stage.state.reason = .notTerminated → ¬ e.stage.state.Stationary settings.gradTol

variable {sub : Method R V M} {solver : Solver R V M σ (Descent.Memory R V M)}
  {e e' : Executor R V M σ (Descent.Memory R V M)}
  (hsolver : (Method.trustRegion sub settings).solver op = some solver)

include hsolver

/-- A preparation at a stationary point ends the run, and is charged no Hessian. -/
theorem billed_of_prepare (h : (Executor.prepare solver).run e = (.ok (), e')) :
    e'.stage.state.Stationary settings.gradTol ∧ e'.stage.state.terminated = true ∧
        e'.stage.session.counts = e.stage.session.counts.plus 1 1 0 ∨
      ¬ e'.stage.state.Stationary settings.gradTol ∧
        Billed settings e.stage.session.counts 0 0 e' := by
  obtain ⟨cost, g, session, session', hcost, hgrad, -, -, hends⟩ := opened_of_prepare hsolver h
  have hcharged : session'.counts = e.stage.session.counts.plus 1 1 0 := by
    rw [Session.counts_of_evaluate hgrad, Session.counts_of_costValue hcost]
    rfl
  rcases hends with ⟨hstill, hover, rfl⟩ | ⟨hmoving, -, hessian, hhessian⟩
  · exact .inl ⟨hstill, hover, hcharged⟩
  · refine .inr ⟨hmoving, ?_, fun _ => hmoving⟩
    rw [Session.counts_of_evaluate hhessian, hcharged]
    rfl

/-- An iteration starts where the point is not stationary, and is charged a cost, and a gradient and
a Hessian if it takes its step. -/
theorem billed_of_step {before : Counts} {k a : Nat} (he : Billed settings before k a e)
    (hdue : continues e.stage.state = .ok true) (h : (Executor.step solver).run e = (.ok (), e')) :
    ¬ e.stage.state.Stationary settings.gradTol ∧
      (Took settings e'.stage.state ∧ Goes op e.stage.state e'.stage.state ∧
          Billed settings before (k + 1) (a + 1) e' ∨
        ¬ Took settings e'.stage.state ∧ Rejects e.stage.state e'.stage.state ∧
          Billed settings before (k + 1) a e') := by
  have hmoving := he.moving (Executor.reason_of_due hdue)
  obtain ⟨g, d, b, newBest, s, i, reason, -, hmade, hmerge, hstate, hsession, -, hgoes⟩ :=
    made_of_step hsolver hmoving h
  have hcounts : e'.stage.session.counts = b.session.counts :=
    (congrArg Session.counts hsession :)
  have hmoving' : e'.stage.state.reason = .notTerminated →
      ¬ e'.stage.state.Stationary settings.gradTol := by
    rw [hstate]
    exact hgoes
  refine ⟨hmoving, ?_⟩
  rcases billed_of_iterate sub.detached_subproblem hmade hmerge i reason with
    ⟨htook, hmoved, hbill⟩ | ⟨hleft, hrejects, hbill⟩ <;>
    rw [← hcounts, he.counts, Counts.plus_plus] at hbill
  · rw [← hstate] at hmoved
    refine .inl ⟨?_, hmoved, hbill, hmoving'⟩
    rw [hstate]
    exact htook
  · rw [← hstate] at hrejects
    refine .inr ⟨?_, hrejects, hbill, hmoving'⟩
    rw [hstate]
    exact hleft

/-- A run that starts at a stationary point is over at once. -/
theorem over_of_stationary {e₀ u : Executor R V M σ (Descent.Memory R V M)} {k : Nat}
    (h₀ : Reached solver e 0 e₀) (hstill : e₀.stage.state.Stationary settings.gradTol)
    (h : Reached solver e k u) :
    k = 0 ∧ continues u.stage.state = .ok false ∧
      u.stage.session.counts = e.stage.session.counts.plus 1 1 0 := by
  rcases billed_of_prepare hsolver (Executor.reached_zero.mp h₀) with
    ⟨-, hover, hcounts⟩ | ⟨hmoving, -⟩
  · have hend : continues e₀.stage.state = .ok false := if_pos hover
    obtain ⟨e₁, hprepare, hiterated⟩ := h
    obtain rfl := h₀.unique (Executor.reached_zero.mpr hprepare)
    have hnot : continues e₀.stage.state ≠ .ok true := by
      rw [hend]
      nofun
    obtain ⟨rfl, rfl⟩ := hiterated.eq_of_not_due hnot
    exact ⟨rfl, hend, hcounts⟩
  · exact absurd hstill hmoving

/-- The charges of a run that did not start at a stationary point, wherever it has been. -/
theorem billed_of_reached {e₀ u : Executor R V M σ (Descent.Memory R V M)} {k : Nat}
    (h₀ : Reached solver e 0 e₀) (hmoving : ¬ e₀.stage.state.Stationary settings.gradTol)
    (h : Reached solver e k u) :
    Billed settings e.stage.session.counts k (stepsTaken settings solver e k) u := by
  induction k generalizing u with
  | zero =>
    obtain rfl := h₀.unique h
    rcases billed_of_prepare hsolver (Executor.reached_zero.mp h) with ⟨hstill, -⟩ | ⟨-, hbilled⟩
    · exact absurd hstill hmoving
    · exact hbilled
  | succ k ih =>
    obtain ⟨v, hv, hdue, hdone⟩ := h.before
    rw [stepsTaken_succ h]
    rcases (billed_of_step hsolver (ih hv) hdue hdone).2 with
      ⟨htook, -, hbilled⟩ | ⟨hleft, -, hbilled⟩
    · rw [if_pos htook]
      exact hbilled
    · rw [if_neg hleft]
      exact hbilled

/-- A run that takes its first step was charged two evaluations of each kind by then. -/
theorem counts_of_took {e₀ u : Executor R V M σ (Descent.Memory R V M)} (h₀ : Reached solver e 0 e₀)
    (hmoving : ¬ e₀.stage.state.Stationary settings.gradTol) (h : Reached solver e 1 u)
    (htook : Took settings u.stage.state) :
    u.stage.session.counts = e.stage.session.counts.plus 2 2 2 := by
  have hone : stepsTaken settings solver e 1 = 1 := by
    rw [stepsTaken_succ h, if_pos htook]
    rfl
  have hcounts := (billed_of_reached hsolver h₀ hmoving h).counts
  rwa [hone] at hcounts

omit hsolver

/-- **The evaluations that a trust-region run is charged for.**  A run of the trust-region method
that completes, on any operator, with any method that solves the model and whatever was charged
before it, is charged one cost and one gradient if it starts at a stationary point, and makes no
iteration.  Otherwise it is charged a cost for every iteration and one more, and a gradient and a
Hessian for every iteration that took its step and one more.  Every iteration that is due starts
where the point is not stationary, and either takes its step or leaves all but the diagnostics as it
was.  And having the model solved charges nothing: the nested run shares the session, leaves all of
it but the reports as it was whatever becomes of it, and tells of the charges made before it. -/
theorem bill_of_run (hsolver : (Method.trustRegion sub settings).solver op = some solver)
    (memory : Descent.Memory R V M) (session : Session R σ) (config : Config R V)
    (observers : List (ObserverEntry R V M)) {outcome : Outcome R V M}
    (hrun : (Executor.run solver).run (ready memory session config observers) =
      (.ok outcome, e')) :
    let start := ready memory session config observers
    ∃ k e₀ u, Reached solver start 0 e₀ ∧ Reached solver start k u ∧
      outcome.state.curIter = .int k ∧
      (e₀.stage.state.Stationary settings.gradTol →
        k = 0 ∧ outcome.counts = session.counts.plus 1 1 0) ∧
      (¬ e₀.stage.state.Stationary settings.gradTol →
        outcome.counts = session.counts.plus (1 + k)
          (1 + stepsTaken settings solver start k) (1 + stepsTaken settings solver start k)) ∧
      (∀ j v w, Reached solver start j v → continues v.stage.state = .ok true →
        (Executor.step solver).run v = (.ok (), w) →
        ¬ v.stage.state.Stationary settings.gradTol ∧
          (Took settings w.stage.state ∧ Goes op v.stage.state w.stage.state ∨
            ¬ Took settings w.stage.state ∧ Rejects v.stage.state w.stage.state)) ∧
      ∀ (grad : V) (b : Bench R σ (Memory R (Descent.Memory R V M))),
        ((solveModel op sub.subproblem grad).run b).2.session.untold = b.session.untold ∧
        ∀ nested i, (Executor.run sub.subproblem.solver).run
            (.new b.memory.sub b.session (innerConfig grad) :
              Executor R V M σ (Descent.Memory R V M)) = (.ok nested, i) →
          nested.counts = b.session.counts := by
  intro start
  have habstains := abstains_of_solver hsolver
  obtain ⟨k, u, hreached, -, rfl, -⟩ := Executor.ended_of_run hrun
  obtain ⟨e₀, h₀⟩ := hreached.of_le (Nat.zero_le k)
  -- closing the run leaves the counter alone
  have hcounter : (Executor.closed u .maxItersReached).stage.state.curIter = .int k :=
    (Executor.curIter_terminateWith _ _).trans
      (Executor.standsAt_of_reached habstains hreached).counter
  refine ⟨k, e₀, u, h₀, hreached, hcounter, fun hstill => ?_, fun hmoving => ?_, ?_, ?_⟩
  · obtain ⟨hnone, -, hcounts⟩ := over_of_stationary hsolver h₀ hstill hreached
    exact ⟨hnone, hcounts⟩
  · exact (billed_of_reached hsolver h₀ hmoving hreached).counts
  · intro j v w hv hdue hstep
    -- at a stationary start no iteration is due
    have hmoving : ¬ e₀.stage.state.Stationary settings.gradTol := by
      intro hstill
      cases hdue.symm.trans (over_of_stationary hsolver h₀ hstill hv).2.1
    obtain ⟨hmoves, hdecides⟩ :=
      billed_of_step hsolver (billed_of_reached hsolver h₀ hmoving hv) hdue hstep
    exact ⟨hmoves, hdecides.imp (fun h => ⟨h.1, h.2.1⟩) fun h => ⟨h.1, h.2.1⟩⟩
  · exact fun grad b => ⟨keeps_unreported_solveModel op sub.detached_subproblem grad b,
      fun nested i hnested => Executor.counts_of_run sub.detached_subproblem hnested⟩

/-- The run down the bowl is charged three evaluations of each kind, for it makes two iterations and
takes the step in both. -/
theorem bill_of_run_bowl :
    ∃ outcome e', (Method.trustRegion .cauchy cauchyTrust).solver bowl = some cauchySolver ∧
      (Executor.run cauchySolver).run overBowl = (.ok outcome, e') ∧
      outcome.counts = ⟨3, 3, 3⟩ ∧ outcome.state.curIter = .int 2 ∧
      stepsTaken cauchyTrust cauchySolver overBowl 2 = 2 := by
  have hcharged : ((Executor.run cauchySolver).run overBowl).1.toOption.map (·.counts) =
      some ⟨3, 3, 3⟩ := by decide +kernel
  obtain ⟨outcome, e', hrun, hcounts⟩ := Act.exists_of_toOption_map hcharged
  have hsolver : (Method.trustRegion .cauchy cauchyTrust).solver bowl = some cauchySolver := rfl
  obtain ⟨k, e₀, u, -, -, hcounter, hstill, hmoving, -⟩ := bill_of_run hsolver .plain
    ⟨{}, (), [], false, 0.0⟩ { param := some (.vector .numpy [2.0]) } [] hrun
  -- at a stationary point no Hessian would have been charged
  have hstart : ¬ e₀.stage.state.Stationary cauchyTrust.gradTol := by
    intro h
    cases hcounts.symm.trans (hstill h).2
  have hbill := hcounts.symm.trans (hmoving hstart)
  obtain rfl : k = 2 := by
    have hcost : 3 = 0 + (1 + k) := congrArg Counts.cost hbill
    omega
  have hgradient : 3 = 0 + (1 + stepsTaken cauchyTrust cauchySolver overBowl 2) :=
    congrArg Counts.gradient hbill
  exact ⟨outcome, e', hsolver, hrun, hcounts, hcounter, by omega⟩

end TrustRegion

end Descent
