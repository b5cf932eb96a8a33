import Descent.Machine
import Descent.Proofs.Method.Construct
import Descent.Proofs.Run.Reached
import Descent.Proofs.Solver.Faithful
import Descent.Proofs.Solver.Progress
import Descent.Tensor.Solve

/-!
# Runs that agree with their operator

A run of a solver that is faithful to what its operator answers leads from one faithful state to the
next: the preparation establishes it (`faithful_of_prepare`) and an iteration keeps it
(`faithful_of_step`).
-/

namespace Descent

variable {R V M σ μ : Type}

variable [Scalar R]

theorem Solver.Faithful.answers {solver : Solver R V M σ μ} {l : Landscape R V M}
    (h : solver.Faithful l) :
    solver.Answers (fun s d => d.Tells l s) fun s d => d.Tells l s ∨ d.Still :=
  ⟨h.init, h.next, h.terminate⟩

namespace Executor

variable {solver : Solver R V M σ μ} {l : Landscape R V M} {e e' : Executor R V M σ μ}

/-! ### Preparation -/

/-- A preparation merges the delta that the solver opens with, and records its reason. -/
theorem opened_of_prepare_faithful (hsolver : solver.Faithful l)
    (h : (prepare solver).run e = (.ok (), e')) :
    ∃ d t b s, solver.init.run e.stage = (.ok (some d), t) ∧ d.Tells l e.stage.state ∧
      e.stage.state.merge d = (.ok b, s) ∧ e'.stage.state.outset = s.outset ∧
      ∀ reason, d.termination = some reason → e'.stage.state = s.terminateWith reason := by
  obtain ⟨o, t, hinit, hmatch⟩ := prepare_eq_ok.mp h
  obtain ⟨⟨d, rfl, htells⟩, hstate⟩ := hsolver.init e.stage.state e.stage o t rfl hinit
  obtain ⟨b, s, hmerge, rfl⟩ := hmatch
  rw [hstate] at hmerge
  refine ⟨d, t, b, s, hinit, htells, hmerge, ?_⟩
  cases d.termination with
  | none => exact ⟨rfl, nofun⟩
  | some reason =>
    refine ⟨s.outset_terminateWith reason, fun reason' hreason => ?_⟩
    cases hreason
    rfl

theorem faithful_of_prepare (hsolver : solver.Faithful l)
    (hbest : e.stage.state.bestParam = none) (h : (prepare solver).run e = (.ok (), e')) :
    e'.stage.state.Faithful l := by
  obtain ⟨d, t, b, s, -, htells, hmerge, houtset, -⟩ := opened_of_prepare_faithful hsolver h
  have hbest' : e.stage.state.BestFaithful l := by
    intro x hx
    rw [hbest] at hx
    cases hx
  have hfaithful : s.Faithful l := .of_merge hbest' htells hmerge
  exact hfaithful.of_outset houtset

/-- A preparation that does not end the run as converged has merged the Hessian, too. -/
theorem hessianFaithful_of_prepare (hsolver : solver.Faithful l)
    (hhessian : solver.HessianFaithful l) (hgoing : e.stage.state.reason = .notTerminated)
    (h : (prepare solver).run e = (.ok (), e')) (hnot : e'.stage.state.reason ≠ .converged) :
    e'.stage.state.HessianFaithful l := by
  obtain ⟨d, t, b, s, hinit, htells, hmerge, houtset, hended⟩ :=
    opened_of_prepare_faithful hsolver h
  obtain ⟨⟨d', hd', hcases⟩, -⟩ := hhessian.init e.stage.state e.stage (some d) t rfl hinit
  cases hd'
  have hreason : s.reason = .notTerminated :=
    (congrArg State.Standing.reason (State.standing_of_merge hmerge)).trans hgoing
  rcases hcases with hconverged | htold
  · have hstate : e'.stage.state = { s with reason := .converged } :=
      (hended _ hconverged).trans (State.terminateWith_of_reason hreason .converged)
    exact absurd (congrArg State.reason hstate) hnot
  · have hfaithful : s.HessianFaithful l := .of_merge htells htold hmerge
    exact hfaithful.of_outset houtset

/-! ### One iteration -/

/-- What an iteration of a faithful solver does to the state: a delta that tells all or nothing is
merged, and how far the run has come is advanced. -/
theorem merged_of_step (hsolver : solver.Faithful l)
    (h : (step solver).run e = (.ok (), e')) :
    ∃ d t b s, solver.next.run e.stage = (.ok (some d), t) ∧
      (d.Tells l e.stage.state ∨ d.Still) ∧ e.stage.state.merge d = (.ok b, s) ∧
      e'.stage.state.outset = s.outset := by
  obtain ⟨d, t, b, s, k, r, hnext, hcases, hmerge, hstate⟩ := merged_of_next hsolver.answers h
  refine ⟨d, t, b, s, hnext, hcases, hmerge, ?_⟩
  rw [hstate]
  rfl

theorem faithful_of_step (hsolver : solver.Faithful l) (he : e.stage.state.Faithful l)
    (h : (step solver).run e = (.ok (), e')) : e'.stage.state.Faithful l := by
  obtain ⟨d, t, b, s, -, hcases, hmerge, houtset⟩ := merged_of_step hsolver h
  refine State.Faithful.of_outset ?_ houtset
  rcases hcases with htells | hstill
  · exact .of_merge he.best htells hmerge
  · exact he.merge_still hstill hmerge

theorem hessianFaithful_of_step (hsolver : solver.Faithful l) (hhessian : solver.HessianFaithful l)
    (he : e.stage.state.HessianFaithful l) (h : (step solver).run e = (.ok (), e')) :
    e'.stage.state.HessianFaithful l := by
  obtain ⟨d, t, b, s, hnext, hcases, hmerge, houtset⟩ := merged_of_step hsolver h
  obtain ⟨⟨d', hd', hcases'⟩, -⟩ := hhessian.next e.stage.state e.stage (some d) t rfl hnext
  -- both speak of the delta that is merged
  cases hd'
  refine State.HessianFaithful.of_outset ?_ houtset
  rcases hcases with htells | hstill
  · rcases hcases' with htold | hstill
    · exact .of_merge htells htold hmerge
    · exact he.merge_still hstill hmerge
  · exact he.merge_still hstill hmerge

/-! ### A whole run -/

variable {memory : μ} {session : Session R σ} {config : Config R V}
  {observers : List (ObserverEntry R V M)} {k : Nat}

/-- Wherever a run of a faithful solver has been, its state was faithful. -/
theorem faithful_of_reached (hsolver : solver.Faithful l)
    (h : Reached solver (ready memory session config observers) k e') :
    e'.stage.state.Faithful l :=
  h.induct (fun _ hprepare => faithful_of_prepare hsolver rfl hprepare)
    fun _ _ he _ hstep => faithful_of_step hsolver he hstep

/-- Wherever a run has been that was not converged from the start, its Hessian was the one at its
point. -/
theorem hessianFaithful_of_reached (hsolver : solver.Faithful l)
    (hhessian : solver.HessianFaithful l)
    (h : Reached solver (ready memory session config observers) k e')
    (hnot : ∀ e₀, Reached solver (ready memory session config observers) 0 e₀ →
      e₀.stage.state.reason ≠ .converged) : e'.stage.state.HessianFaithful l := by
  refine h.induct (fun e₀ hprepare => ?_) fun _ _ he _ hstep =>
    hessianFaithful_of_step hsolver hhessian he hstep
  exact hessianFaithful_of_prepare hsolver hhessian rfl hprepare
    (hnot e₀ (reached_zero.mpr hprepare))

end Executor

/-! ### The minimisers -/

namespace Method

variable {V W : Type}

/-- The methods that minimise: a descent along a line search that a constructor made, or a trust
region around any subproblem solver. -/
inductive Minimises : Method Float V W → Prop
  | steepestDescent {line : Method Float V W} (h : line.Searches) (tolGrad : Float) :
    Minimises (.steepestDescent line tolGrad)
  | newtonCG {line : Method Float V W} (h : line.Searches) (settings : NewtonCG.Settings Float) :
    Minimises (.newtonCG line settings)
  | trustRegion (sub : Method Float V W) (settings : TrustRegion.Settings Float) :
    Minimises (.trustRegion sub settings)

variable [Space Float V] [LinearAction Float V W] {op : Operator Float V W σ}
  {l : Landscape Float V W} {m : Method Float V W} {solver : Solver Float V W σ (Memory Float V W)}

theorem Minimises.faithful (hm : m.Minimises) (hop : op.Follows l)
    (hsolver : m.solver op = some solver) : solver.Faithful l := by
  cases hm with
  | steepestDescent hline tolGrad =>
    cases hsolver
    exact SteepestDescent.faithful hop (hline.faithful hop) tolGrad
  | newtonCG hline settings =>
    cases hsolver
    exact NewtonCG.faithful hop (hline.faithful hop) settings
  | trustRegion sub settings =>
    cases hsolver
    exact (TrustRegion.faithful hop).widen

theorem hessianFaithful_trustRegion {sub : Method Float V W}
    {settings : TrustRegion.Settings Float} (hop : op.Follows l)
    (hsolver : (Method.trustRegion sub settings).solver op = some solver) :
    solver.HessianFaithful l := by
  cases hsolver
  exact (TrustRegion.hessianFaithful hop).widen

end Method

namespace Executor

variable {V W : Type} [Space Float V] [LinearAction Float V W] {op : Operator Float V W σ}
  {l : Landscape Float V W} {m : Method Float V W} {solver : Solver Float V W σ (Memory Float V W)}

/-- The state never drifts from the operator.  Wherever a run of a minimiser has been, its cost and
its gradient were those at its point and its best cost that at the best point; of the trust-region
method the Hessian was, too, unless the start was converged.  And a line search hands back with a
step length the cost and the gradient at the point this one leads to, wherever it has them from. -/
theorem reached_faithful (hop : op.Follows l) (hm : m.Minimises)
    (hsolver : m.solver op = some solver) :
    (∀ memory session config observers k e',
      Reached solver (ready memory session config observers) k e' →
        e'.stage.state.Faithful l ∧
          ((∃ sub settings, m = .trustRegion sub settings) →
            (∀ e₀, Reached solver (ready memory session config observers) 0 e₀ →
              e₀.stage.state.reason ≠ .converged) →
            e'.stage.state.HessianFaithful l)) ∧
      ∀ line : Method Float V W, line.Searches → (line.lineSearch op).Faithful l := by
  have hfaithful : solver.Faithful l := hm.faithful hop hsolver
  refine ⟨fun memory session config observers k e' h => ?_, fun line hline => ?_⟩
  · refine ⟨faithful_of_reached hfaithful h, ?_⟩
    rintro ⟨sub, settings, rfl⟩ hnot
    have hhessian := Method.hessianFaithful_trustRegion hop hsolver
    exact hessianFaithful_of_reached hfaithful hhessian h hnot
  · exact hline.faithful hop

/-- Half the squared length of a vector with one entry. -/
def bowl : Operator Float (Tensor Float) (Curvature Float) Unit where
  label := "Bowl"
  cost := some fun x => Act.lift (.ok (.real (0.5 * Tensor.inner x.entries x.entries)))
  gradient := some fun x => Act.lift (.ok (some x))
  hessian := some fun _ => Act.lift (.ok (some (.matrix (.matrix .numpy [[1.0]] 1))))

/-- What the bowl answers. -/
def bowlLandscape : Landscape Float (Tensor Float) (Curvature Float) where
  cost x := .ok (.real (0.5 * Tensor.inner x.entries x.entries))
  gradient x := .ok (some x)
  hessian _ := .ok (some (.matrix (.matrix .numpy [[1.0]] 1)))

theorem follows_bowl : bowl.Follows bowlLandscape := by
  constructor <;> intro f hf x w <;> cases hf <;> rfl

/-- A trust region of radius one. -/
def cauchyTrust : TrustRegion.Settings Float := ⟨1.0, 100.0, 0.125, relativeTolerance⟩

/-- The trust-region method with Cauchy points, on the bowl. -/
def cauchySolver : Solver Float (Tensor Float) (Curvature Float) Unit
    (Memory Float (Tensor Float) (Curvature Float)) :=
  Method.widen (Memory.trusted 1.0) (fun m => .trust m.working m.sub)
    (TrustRegion.algorithm bowl (Method.subproblem .cauchy) cauchyTrust).toSolver

/-- A run down the bowl that has not started. -/
def overBowl : Executor Float (Tensor Float) (Curvature Float) Unit
    (Memory Float (Tensor Float) (Curvature Float)) :=
  ready .plain ⟨{}, (), [], false, 0.0⟩ { param := some (.vector .numpy [2.0]) } []

/-- The run down the bowl is prepared and goes on, and its first iteration moves. -/
theorem moves_overBowl :
    ∃ e₀ e₁, (prepare cauchySolver).run (begun cauchySolver overBowl) = (.ok (), e₀) ∧
      continues e₀.stage.state = .ok true ∧ (step cauchySolver).run e₀ = (.ok (), e₁) ∧
      e₁.stage.state.param ≠ e₀.stage.state.param := by
  have hprepare := Act.run_eq_of_isOk (a := prepare cauchySolver) (t := begun cauchySolver overBowl)
    (by decide +kernel)
  generalize he₀ : ((prepare cauchySolver).run (begun cauchySolver overBowl)).2 = e₀ at hprepare
  refine ⟨e₀, ((step cauchySolver).run e₀).2, hprepare, Act.toOption_eq_some.mp ?_,
    Act.run_eq_of_isOk ?_, ?_⟩
  all_goals
    rw [← he₀]
    decide +kernel

/-- A trust-region run down the bowl makes an iteration, after which its state is faithful, the
Hessian included; and a backtracking search with the default constants is faithful. -/
theorem reached_faithful_bowl :
    ∃ e₁, Reached cauchySolver overBowl 1 e₁ ∧ e₁.stage.state.Faithful bowlLandscape ∧
      e₁.stage.state.HessianFaithful bowlLandscape ∧
      ∃ rig : Rig Float (Tensor Float) (Curvature Float), Construct.backtracking [] = .ok rig ∧
        (rig.method.lineSearch bowl).Faithful bowlLandscape := by
  have hsolver : (Method.trustRegion .cauchy cauchyTrust).solver bowl = some cauchySolver := rfl
  obtain ⟨hreached, hline⟩ := reached_faithful follows_bowl (.trustRegion _ _) hsolver
  have hrig : Construct.backtracking ([] : Arguments (Tensor Float) (Curvature Float)) =
      .ok ⟨.backtracking Backtracking.default, .plain⟩ := rfl
  obtain ⟨e₀, e₁, hprepare, hdue, hstep, -⟩ := moves_overBowl
  have h₁ := (reached_zero.mpr hprepare).more hdue hstep
  obtain ⟨hfaithful, hhessian⟩ := hreached _ _ _ _ 1 _ h₁
  refine ⟨_, h₁, hfaithful, hhessian ⟨_, _, rfl⟩ fun e₀' h₀ => ?_,
    ⟨_, hrig, hline _ (.backtracking hrig)⟩⟩
  have hsame : (prepare cauchySolver).run (begun cauchySolver overBowl) = (.ok (), e₀') :=
    reached_zero.mp h₀
  rw [hprepare] at hsame
  cases hsame
  -- an iteration is due, so the preparation has not ended the run
  rw [reason_of_due hdue]
  nofun

end Executor

end Descent
