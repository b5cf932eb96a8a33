import Descent.Proofs.Run.Observed
import Descent.Proofs.Scalar.Reduction
import Descent.Proofs.State.Sound

/-!
# Runs in debug mode

Debug mode checks the invariants of the state after each iteration.  A solver that does not assign
to the state never fails the check: wherever its run has been, the state is sound, and the iteration
that is due leads to a sound one that counted it (`Executor.check_of_reached`).

So debug mode does not show.  A solver that does not look at it (`Solver.Heedless`) makes the same
run with debug mode on and off (`Executor.Transparent`), and the trust-region method is such a
solver, since the runs in which it solves its models are.
-/

namespace Descent

open Act

variable {R V M σ μ α : Type}

/-! ### Sessions in and out of debug mode -/

namespace Session

/-- The session with debug mode on or off. -/
def checking (s : Session R σ) (debug : Bool) : Session R σ := { s with debug := debug }

/-- The session with debug mode off. -/
def unchecked (s : Session R σ) : Session R σ := s.checking false

theorem unchecked_eq_iff {s u : Session R σ} : s.unchecked = u.unchecked ↔
    s.counts = u.counts ∧ s.world = u.world ∧ s.journal = u.journal ∧ s.elapsed = u.elapsed := by
  unfold unchecked checking
  rw [Session.mk.injEq]
  simp only [true_and]

/-- Sessions that differ in debug mode go on alike, and never part. -/
def heedless (R σ : Type) : Course R (Session R σ) (Session R σ) where
  together s u := s.unchecked = u.unchecked
  broken _ _ := False
  astray _ := False

theorem hears_heedless : (heedless R σ).Hears where
  told h event := congrArg (fun s : Session R σ => s.told event) h
  broken_told h _ := h
  astray_told h _ := h

theorem serves_heedless (op : Operator R V M σ) (cap : Capability) :
    (heedless R σ).Serves op op cap := by
  refine serves_self
    (fun h => (unchecked_eq_iff.mp h).2.1) (fun h cap w => ?_) (fun _ h => h) op cap
  exact congrArg (fun s : Session R σ => s.charged cap w) h

end Session

variable [Scalar R]

/-- The solver's steps at a point do the same in and out of debug mode. -/
def Solver.Heedless (solver : Solver R V M σ μ) : Prop :=
  Solver.Beside (Session.heedless R σ) Eq (State.Placed Eq) solver solver

namespace Executor

variable {solver : Solver R V M σ μ} {e e' u u' v : Executor R V M σ μ} {k : Nat}

/-! ### No check is refused -/

section

variable [ReductionScalar R] (ha : solver.Abstains)

include ha

theorem sound_of_iterate {b : R} {newBest : Bool} (he : e.stage.state.Sound b)
    (h : (iterate solver).run e = (.ok newBest, e')) :
    ∃ b', e'.stage.state.Sound b' ∧ ¬ b < b' := by
  obtain ⟨d, s, k, r, hmerge, -, hstate⟩ := merged_of_iterate ha h
  obtain ⟨b', hsound, hrise⟩ := he.merge hmerge
  rw [hstate]
  exact ⟨b', hsound.of_merged k r, hrise⟩

/-- Preparing a run leads from a sound state to a sound one. -/
theorem sound_of_prepare {b : R} (he : e.stage.state.Sound b)
    (h : (prepare solver).run e = (.ok (), e')) : ∃ b', e'.stage.state.Sound b' := by
  rcases state_of_prepare ha h with hsame | ⟨d, newBest, s, r, hmerge, hstate⟩
  · exact ⟨b, hsame ▸ he⟩
  · obtain ⟨b', hsound, -⟩ := he.merge hmerge
    rw [hstate]
    exact ⟨b', hsound.of_merged s.curIter r⟩

variable {memory : μ} {session : Session R σ} {config : Config R V}
  {observers : List (ObserverEntry R V M)} (hvalid : config.validate = .ok ())

include hvalid

/-- Wherever a run has been, its state is sound. -/
theorem sound_of_reached (h : Reached solver (ready memory session config observers) k u) :
    ∃ b, u.stage.state.Sound b := by
  have hinf : Scalar.isFinite (Scalar.inf : R) = false := by
    refine Bool.eq_false_iff.mpr fun hfinite => ?_
    exact OrderedScalar.lt_irrefl _ (ReductionScalar.lt_inf hfinite)
  refine h.induct (P := fun u => ∃ b, u.stage.state.Sound b) (fun e₀ hprepare => ?_) ?_
  · exact sound_of_prepare ha (.of_start hinf (Config.isSome_of_validate hvalid) rfl rfl) hprepare
  · rintro e₁ e₂ ⟨b, hsound⟩ - hstep
    obtain ⟨newBest, v, hiterate, hconclude⟩ := step_eq_ok.mp hstep
    obtain ⟨b', hsound', -⟩ := sound_of_iterate ha hsound hiterate
    exact ⟨b', state_of_conclude hconclude ▸ hsound'⟩

/-- An iteration that is due leads to a state that passes the check. -/
theorem check_of_reached {ceiling : Int} (hceiling : config.maxIters.number? = some (.int ceiling))
    {newBest : Bool} (h : Reached solver (ready memory session config observers) k u)
    (hdue : continues u.stage.state = .ok true)
    (hiterate : (iterate solver).run u = (.ok newBest, v)) :
    v.stage.state.check u.stage.state.curIter u.stage.state.bestCost = .ok () := by
  have hcounter := (standsAt_of_reached ha h).counter
  have hmax : u.stage.state.maxIters = config.maxIters := maxIters_of_reached ha h
  have hmax' : v.stage.state.maxIters.number? = some (.int ceiling) := by
    obtain ⟨d, s, k, r, hmerge, -, hstate⟩ := merged_of_iterate ha hiterate
    rw [hstate, ← hceiling, ← hmax]
    exact congrArg (fun s : State.Standing R => s.maxIters.number?)
      (State.standing_of_merge hmerge)
  have hlt : (k : Int) < ceiling := lt_of_due hcounter (hmax ▸ hceiling) hdue
  obtain ⟨b, hsound⟩ := sound_of_reached ha hvalid h
  obtain ⟨b', hsound', hrise⟩ := sound_of_iterate ha hsound hiterate
  rw [hcounter, hsound.best]
  exact hsound'.check (by omega) (curIter_of_iterate ha hiterate hcounter) hmax'
    (Int.add_one_le_of_lt hlt) hrise

end

/-- A run that may be made is never refused by a check of its state: each iteration that is due
leads to a state that passes. -/
def Unrefused (solver : Solver R V M σ μ) (e : Executor R V M σ μ) : Prop :=
  e.config.validate = .ok () → ∀ k u newBest v, Reached solver e k u →
    continues u.stage.state = .ok true → (iterate solver).run u = (.ok newBest, v) →
    v.stage.state.check u.stage.state.curIter u.stage.state.bestCost = .ok ()

/-! ### Executors in and out of debug mode -/

/-- The executor with debug mode off. -/
def unchecked (e : Executor R V M σ μ) : Executor R V M σ μ :=
  { e with stage := { e.stage with session := e.stage.session.unchecked } }

theorem unchecked_eq_iff : u'.unchecked = u.unchecked ↔
    u'.config = u.config ∧ u'.observers = u.observers ∧ u'.status = u.status ∧
      (u'.stage.memory = u.stage.memory ∧ u'.stage.state = u.stage.state ∧
        u'.stage.session.unchecked = u.stage.session.unchecked) ∧ u'.notices = u.notices := by
  unfold unchecked
  rw [Executor.mk.injEq, Stage.mk.injEq]

theorem state_eq_of_unchecked (h : u'.unchecked = u.unchecked) : u'.stage.state = u.stage.state :=
  (unchecked_eq_iff.mp h).2.2.2.1.2.1

/-- The course of executors that differ in debug mode, and whose states are alike. -/
def heedless (like : State R V M → State R V M → Prop) :
    Course R (Executor R V M σ μ) (Executor R V M σ μ) :=
  course (Session.heedless R σ) Eq like (Fellows Eq)

theorem heedless_together_iff {like : State R V M → State R V M → Prop}
    (hlike : ∀ {s s'}, like s s' → s = s') :
    (heedless like).together u u' ↔
      like u.stage.state u.stage.state ∧ u'.unchecked = u.unchecked := by
  rw [unchecked_eq_iff]
  constructor
  · rintro ⟨hfellows, ⟨hmemory, hstate⟩, hsession⟩
    have hsame := hlike hstate
    refine ⟨hsame.symm ▸ hstate, hfellows.config.symm, hfellows.observers.symm,
      hfellows.status.symm, ⟨hmemory.symm, hsame.symm, Eq.symm hsession⟩, ?_⟩
    exact (hfellows.notices_eq fun _ _ h => h).symm
  · rintro ⟨hstate, hconfig, hobservers, hstatus, ⟨hmemory, hsame, hsession⟩, hnotices⟩
    have hnotices' : List.Forall₂ (Notice.Alike Eq) u.notices u'.notices := by
      rw [hnotices]
      exact List.forall₂_same.mpr fun n _ => ⟨rfl, rfl, rfl⟩
    refine ⟨⟨hconfig.symm, hobservers.symm, hstatus.symm, hnotices', ?_⟩,
      ⟨hmemory.symm, hsame.symm ▸ hstate⟩, hsession.symm⟩
    exact fun entry _ s s' h k => congrArg (fun s => entry.observer.notify s k) h

/-- What goes along the course ends alike, at executors that differ in debug mode. -/
theorem eq_of_heedless {like : State R V M → State R V M → Prop}
    (hlike : ∀ {s s'}, like s s' → s = s') {a b : Act R (Executor R V M σ μ) α}
    (hab : (heedless like).Beside Eq a b) (hu : like u.stage.state u.stage.state)
    (h : u'.unchecked = u.unchecked) :
    (a.run u).1 = (b.run u').1 ∧ (b.run u').2.unchecked = (a.run u).2.unchecked := by
  obtain ⟨hr, htogether⟩ := hab.together (fun _ _ h => h) (fun _ h => h.2.2)
    ((heedless_together_iff hlike).mpr ⟨hu, h⟩)
  exact ⟨hr.eq, ((heedless_together_iff hlike).mp htogether).2⟩

/-- An iteration whose state passes the check ends with what is told of it. -/
theorem run_conclude_of_check {before : State R V M} (newBest : Bool)
    (h : e.stage.state.check before.curIter before.bestCost = .ok ()) :
    (conclude before newBest).run e = (tell newBest).run e := by
  have hchecked : (checkInvariants before).run e = (.ok (), e) := by
    rw [run_checkInvariants, h, ite_self]
  rw [conclude_eq, run_bind_of_ok hchecked]

/-- Runs of a solver from two executors are at the same points, have the same outcome or raise the
same fault, and leave the same, but for debug mode. -/
structure Transparent (solver : Solver R V M σ μ) (e e' : Executor R V M σ μ) : Prop where
  reached : e.config.validate = .ok () → ∀ k v,
    (∃ u, Reached solver e k u ∧ u.unchecked = v) ↔ ∃ u, Reached solver e' k u ∧ u.unchecked = v
  outcome : ((run solver).run e).1 = ((run solver).run e').1
  left : ((run solver).run e).2.unchecked = ((run solver).run e').2.unchecked

/-- The end of a run does not depend on debug mode. -/
theorem settle_unchecked (driven : Except (Fault R) Unit) (h : u'.unchecked = u.unchecked) :
    ((settle solver driven).run u).1 = ((settle solver driven).run u').1 ∧
      ((settle solver driven).run u').2.unchecked = ((settle solver driven).run u).2.unchecked := by
  refine agree_of_mask unchecked (fun u => ?_) h
  cases driven with
  | ok _ => exact ⟨rfl, rfl⟩
  | error f =>
    unfold settle
    dsimp only
    cases f.isInterrupt <;> exact ⟨rfl, rfl⟩

section

variable [ReductionScalar R] (ha : solver.Abstains) (hheedless : solver.Heedless) {memory : μ}
  {session session' : Session R σ} {config : Config R V} {ceiling : Int}
  (hceiling : config.maxIters.number? = some (.int ceiling))
  {observers : List (ObserverEntry R V M)}

include ha hceiling

theorem unrefused_of_abstains : Unrefused solver (ready memory session config observers) :=
  fun hvalid _ _ _ _ h hdue hiterate => check_of_reached ha hvalid hceiling h hdue hiterate

include hheedless

/-- Where a run has come to, an iteration goes the same in and out of debug mode. -/
theorem pairing_unchecked :
    Pairing solver (fun u u' => (config.validate = .ok () ∧
        ∃ k, Reached solver (ready memory session config observers) k u) ∧
      u'.unchecked = u.unchecked) fun u u' => u'.unchecked = u.unchecked where
  config h := (unchecked_eq_iff.mp h).1
  status h := (unchecked_eq_iff.mp h).2.2.1
  state h := state_eq_of_unchecked h
  alike_of_pair h := h.2
  step := by
    rintro u u' ⟨⟨hvalid, k, hk⟩, hsame⟩ hdue
    obtain ⟨b, hsound⟩ := sound_of_reached ha hvalid hk
    have hiterate := eq_of_heedless And.right
      (iterate_beside unstaged_fellows State.steady_eq.placed hheedless) ⟨hsound.placed, rfl⟩ hsame
    have hgoes : ∀ {w}, (step solver).run u = (.ok (), w) →
        Reached solver (ready memory session config observers) (k + 1) w := hk.more hdue
    unfold step at hgoes ⊢
    rw [run_bind_of_ok (run_state u), run_bind] at hgoes
    rw [run_bind_of_ok (run_state u), run_bind_of_ok (run_state u'), run_bind, run_bind,
      state_eq_of_unchecked hsame]
    rcases hrun : (iterate solver).run u with ⟨r, v⟩
    rcases hrun' : (iterate solver).run u' with ⟨r', v'⟩
    rw [hrun, hrun'] at hiterate
    rw [hrun] at hgoes
    obtain ⟨hr, hsame⟩ := hiterate
    dsimp only at hr hsame
    subst hr
    cases r with
    | error f => exact ⟨rfl, hsame, nofun⟩
    | ok newBest =>
      -- neither side is refused, so both tell of the iteration
      have hcheck := check_of_reached ha hvalid hceiling hk hdue hrun
      have hcheck' := hcheck
      rw [← state_eq_of_unchecked hsame] at hcheck'
      have htell := eq_of_heedless id (tell_beside Session.hears_heedless State.lasting_eq newBest)
        rfl hsame
      dsimp only at hgoes ⊢
      rw [run_conclude_of_check newBest hcheck] at hgoes ⊢
      rw [run_conclude_of_check newBest hcheck']
      exact ⟨htell.1, htell.2, fun hok => ⟨⟨hvalid, k + 1, hgoes (Prod.ext hok rfl)⟩, htell.2⟩⟩

/-- So does a whole run. -/
theorem transparent_of_heedless (hsession : session'.unchecked = session.unchecked) :
    Transparent solver (ready memory session config observers)
      (ready memory session' config observers) := by
  have hready : ∀ {s s' : Session R σ}, s'.unchecked = s.unchecked →
      (ready memory s' config observers : Executor R V M σ μ).unchecked =
        (ready memory s config observers).unchecked := fun h =>
    unchecked_eq_iff.mpr ⟨rfl, rfl, rfl, ⟨rfl, rfl, h⟩, rfl⟩
  have hbegun : ∀ {s s' : Session R σ}, s'.unchecked = s.unchecked →
      (begun solver (ready memory s' config observers)).unchecked =
        (begun solver (ready memory s config observers)).unchecked := fun h =>
    unchecked_eq_iff.mpr ⟨rfl, rfl, rfl, ⟨rfl, rfl, Session.hears_heedless.told h _⟩, rfl⟩
  -- each way round, as either of the two may be the one with its checks on
  have hstart : ∀ {s s' : Session R σ}, s'.unchecked = s.unchecked →
      config.validate = .ok () → Ends (fun u u' => (config.validate = .ok () ∧
          ∃ k, Reached solver (ready memory s config observers) k u) ∧ u'.unchecked = u.unchecked)
        (fun u u' => u'.unchecked = u.unchecked)
        ((prepare solver).run (begun solver (ready memory s config observers)))
        ((prepare solver).run (begun solver (ready memory s' config observers))) := by
    intro s s' h hvalid
    have hplaced : (begun solver (ready memory s config observers)).stage.state.param.isSome :=
      Config.isSome_of_validate hvalid
    obtain ⟨hr, hsame⟩ := eq_of_heedless And.right
      (prepare_beside unstaged_fellows State.steady_eq.placed hheedless) ⟨hplaced, rfl⟩ (hbegun h)
    exact ⟨hr, hsame, fun hok => ⟨⟨hvalid, 0, reached_zero.mpr (Prod.ext hok rfl)⟩, hsame⟩⟩
  have hreached : ∀ {s s' : Session R σ}, s'.unchecked = s.unchecked →
      config.validate = .ok () → ∀ {k u}, Reached solver (ready memory s config observers) k u →
        ∃ u', Reached solver (ready memory s' config observers) k u' ∧
          u'.unchecked = u.unchecked := by
    intro s s' h hvalid k u hu
    obtain ⟨u', hu', -, hsame⟩ := (pairing_unchecked ha hheedless hceiling).reached
      (hstart h hvalid) hu
    exact ⟨u', hu', hsame⟩
  obtain ⟨houtcome, hleft⟩ := (pairing_unchecked ha hheedless hceiling).run (hready hsession)
    (hstart hsession) fun driven _ _ h => settle_unchecked driven h
  refine ⟨fun hvalid k v => ⟨?_, ?_⟩, houtcome, hleft.symm⟩
  · rintro ⟨u, hu, rfl⟩
    exact hreached hsession hvalid hu
  · rintro ⟨u, hu, rfl⟩
    exact hreached hsession.symm hvalid hu

end

end Executor

/-! ### Methods -/

variable [Space R V] [LinearAction R V M] [ReductionScalar R]

namespace TrustRegion

omit [LinearAction R V M] [ReductionScalar R] in
theorem maxIters_innerConfig (grad : V) :
    (innerConfig (R := R) grad).maxIters.number? = some (.int 1) := rfl

variable {sub : Subproblem R V M σ μ} (ha : sub.solver.Abstains) (hheedless : sub.solver.Heedless)

include ha

omit [LinearAction R V M] in
/-- The run in which a model is solved is never refused by a check of its state. -/
theorem unrefused_modelRun (grad : V) (b : Bench R σ (Memory R μ)) :
    Executor.Unrefused sub.solver (modelRun grad b) :=
  Executor.unrefused_of_abstains ha (maxIters_innerConfig grad)

include hheedless

omit [LinearAction R V M] in
/-- The run in which a model is solved does not show debug mode. -/
theorem solveModel_heedless (op : Operator R V M σ) (grad : V) :
    (Bench.course (Session.heedless R σ)).Beside Eq (solveModel op sub grad)
      (solveModel op sub grad) := by
  rw [solveModel_eq]
  refine (Course.Beside.lift _).bind_eq fun _ => ?_
  refine Course.Beside.bind_eq (⟨fun b b' h => ?_, fun _ h => h.2.elim⟩) fun o => .lift _
  obtain ⟨hmemory, hsession⟩ := h
  -- the nested run starts from the same memory, with its own checks on or off
  have hrun : Executor.Transparent sub.solver (modelRun grad b) (modelRun grad b') := by
    have hsame : modelRun (M := M) grad b' =
        Executor.ready b.memory.sub b'.session (innerConfig grad) [] := by
      rw [hmemory]
      rfl
    rw [hsame]
    exact Executor.transparent_of_heedless ha hheedless (maxIters_innerConfig grad)
      (Eq.symm hsession)
  rw [run_zoom, run_zoom, hrun.outcome]
  obtain ⟨-, -, -, ⟨hsub, -, hleft⟩, -⟩ := Executor.unchecked_eq_iff.mp hrun.left
  refine .together ⟨?_, hleft⟩ (.refl _)
  dsimp only
  rw [hmemory, hsub]

/-- A trust-region method takes no heed of debug mode if its solver of subproblems does not. -/
theorem heedless (op : Operator R V M σ) (settings : Settings R) :
    (algorithm op sub settings).toSolver.Heedless :=
  beside (Session.serves_heedless op _) (Session.serves_heedless op _)
    (Session.serves_heedless op _) settings ⟨rfl, rfl, rfl⟩ (solveModel_heedless ha hheedless op)
    State.steady_eq

end TrustRegion

namespace Method

omit [ReductionScalar R] in
theorem abstains_subproblem (m : Method R V M) : (m.subproblem (σ := σ)).solver.Abstains := by
  cases m with
  | cauchy => exact (Algorithm.abstains_toSolver _).widen
  | dogleg => exact (Algorithm.abstains_toSolver _).widen
  | _ => exact ⟨.throw _, .throw _, .throw _⟩

/-- The methods that minimise take no heed of debug mode. -/
theorem Descends.heedless {op : Operator R V M σ} {m : Method R V M} (hm : m.Descends)
    {solver : Solver R V M σ (Memory R V M)} (h : m.solver op = some solver) (s : Session R σ) :
    solver.Heedless :=
  have : Nonempty (Session R σ) := ⟨s⟩
  hm.beside_of_models h h (fun cap _ => Session.serves_heedless op cap)
    (fun _ sub grad => TrustRegion.solveModel_heedless sub.abstains_subproblem
      (subproblem_solver_beside State.steady_eq.placed sub) op grad)
    State.steady_eq

end Method

namespace Executor

/-- **Debug mode does not show.**  A run of a solver that does not assign to the state is never
refused by a check of its state, in or out of debug mode, and if the solver does not look at debug
mode, the run is the same with it on and off: it is at the same points with the same notices and
evaluations, has the same outcome or raises the same fault, and leaves the same.  The trust-region
method is such a solver if its solver of subproblems is, whose runs are never refused either; so
are the methods that minimise, whatever their components. -/
theorem run_transparent (op : Operator R V M σ) (config : Config R V) (ceiling : Int)
    (hceiling : config.maxIters.number? = some (.int ceiling)) (session : Session R σ)
    (observers : List (ObserverEntry R V M)) :
    (∀ (solver : Solver R V M σ μ) (memory : μ), solver.Abstains →
      (∀ debug, Unrefused solver (ready memory (session.checking debug) config observers)) ∧
        (solver.Heedless →
          Transparent solver (ready memory (session.checking true) config observers)
            (ready memory (session.checking false) config observers))) ∧
      (∀ sub : Subproblem R V M σ μ, sub.solver.Abstains →
        (∀ grad b, Unrefused sub.solver (TrustRegion.modelRun grad b)) ∧
          (sub.solver.Heedless → ∀ settings,
            (TrustRegion.algorithm op sub settings).toSolver.Abstains ∧
              (TrustRegion.algorithm op sub settings).toSolver.Heedless)) ∧
      (∀ (sub : Method R V M) grad b,
        Unrefused (sub.subproblem (σ := σ)).solver (TrustRegion.modelRun grad b)) ∧
      ∀ m : Method R V M, m.Descends → ∀ solver, m.solver op = some solver → ∀ memory,
        (∀ debug, Unrefused solver (ready memory (session.checking debug) config observers)) ∧
          Transparent solver (ready memory (session.checking true) config observers)
            (ready memory (session.checking false) config observers) := by
  refine ⟨fun solver memory ha => ⟨fun debug => ?_, fun hheedless => ?_⟩,
    fun sub ha => ⟨fun grad b => ?_, fun hheedless settings => ⟨?_, ?_⟩⟩, fun sub grad b => ?_,
    fun m hm solver hsolver memory => ⟨fun debug => ?_, ?_⟩⟩
  · exact unrefused_of_abstains ha hceiling
  · exact transparent_of_heedless ha hheedless hceiling rfl
  · exact TrustRegion.unrefused_modelRun ha grad b
  · exact Algorithm.abstains_toSolver _
  · exact TrustRegion.heedless ha hheedless op settings
  · exact TrustRegion.unrefused_modelRun sub.abstains_subproblem grad b
  · -- a built-in method is a case of both
    exact unrefused_of_abstains (hm.abstains hsolver) hceiling
  · exact transparent_of_heedless (hm.abstains hsolver) (hm.heedless hsolver session) hceiling rfl

/-- The run down the bowl with its three observers completes in debug mode, and is the same out of
it. -/
theorem run_transparent_bowl :
    let session : Session Float Unit := ⟨{}, (), [], false, 0.0⟩
    let config : Config Float (Tensor Float) := { param := some (.vector .numpy [2.0]) }
    config.maxIters.number? = some (.int unlimited) ∧
      Transparent cauchySolver (ready .plain (session.checking true) config bowlObservers)
        (ready .plain (session.checking false) config bowlObservers) ∧
      ((run cauchySolver).run
        (ready .plain (session.checking true) config bowlObservers)).1.isOk = true := by
  intro session config
  have hsolver : (Method.trustRegion .cauchy cauchyTrust).solver bowl = some cauchySolver := rfl
  obtain ⟨-, -, -, hmethods⟩ := run_transparent (μ := Unit) bowl config unlimited rfl session
    bowlObservers
  refine ⟨rfl, ?_, by decide +kernel⟩
  exact (hmethods (.trustRegion .cauchy cauchyTrust) (.trustRegion _ _) cauchySolver hsolver
    .plain).2

end Executor

end Descent
