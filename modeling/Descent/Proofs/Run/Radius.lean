import Descent.Proofs.Quadratic.Converges
import Descent.Proofs.Quadratic.Radius
import Descent.Proofs.Run.Progress
import Descent.Proofs.Run.Trusting

/-!
# The working radius in a run

Between its iterations a run of the trust-region method has a legal working radius, which it told of
last, and it goes on only from a point that is not stationary (`TrustRegion.Regular`).  The
preparation leads there, and an iteration hands the radius to the subproblem solver and leaves
another one that is legal and told of (`TrustRegion.Adjusts`, `TrustRegion.regular_of_step`).  So
after `j` rejections in a row the radius is the one before them divided by `4 ^ j`
(`TrustRegion.regular_of_rejections`).
-/

namespace Descent

open Act Exact

namespace TrustRegion

open Executor (Reached continues ready)

variable {n : ℕ} {M σ : Type} [LinearAction Exact (Vec n) M] {op : Operator Exact (Vec n) M σ}
  {sub : Method Exact (Vec n) M} {settings : Settings Exact} {m r r' : ℝ}
  {e e' : Executor Exact (Vec n) M σ (Descent.Memory Exact (Vec n) M)}

/-- The trust-region method, with its memory in that of methods. -/
noncomputable def trusting (op : Operator Exact (Vec n) M σ) (sub : Method Exact (Vec n) M)
    (settings : Settings Exact) : Solver Exact (Vec n) M σ (Descent.Memory Exact (Vec n) M) :=
  Method.widen (Memory.trusted settings.radius) (fun m => .trust m.working m.sub)
    (algorithm op sub.subproblem settings).toSolver

theorem solver_trusting (op : Operator Exact (Vec n) M σ) (sub : Method Exact (Vec n) M)
    (settings : Settings Exact) :
    (Method.trustRegion sub settings).solver op = some (trusting op sub settings) := rfl

/-- The working radius of an executor. -/
noncomputable def workingOf (settings : Settings Exact)
    (e : Executor Exact (Vec n) M σ (Descent.Memory Exact (Vec n) M)) : Exact :=
  (e.memory.trusted settings.radius).working

/-- Between iterations a run stands at its best point, and its working radius is legal.  Where it
goes on the point is not stationary, and the working radius is the one it told of last. -/
structure Regular (settings : Settings Exact) (m r : ℝ)
    (e : Executor Exact (Vec n) M σ (Descent.Memory Exact (Vec n) M)) : Prop where
  best : e.stage.state.AtBest
  working : workingOf settings e = real r
  pos : 0 < r
  le : r ≤ m
  moving : e.stage.state.reason = .notTerminated → ¬ e.stage.state.Stationary settings.gradTol
  told : e.stage.state.reason = .notTerminated →
    e.stage.state.kv.lookup "radius" = some (.real (real r))

/-! ### What the method does as a solver -/

theorem answers_trusting (hsettings : settings.Admitted) :
    (trusting op sub settings).Answers Opens fun s d => Takes op s d ∨ d.Still :=
  (answers hsettings.threshold).widen

/-! ### The preparation -/

/-- A run begins with the first radius, and tells of it unless the point is stationary. -/
theorem regular_of_prepare (hsettings : settings.Admitted) (hm : settings.maxRadius = real m)
    (hbest : e.stage.state.bestCost = .real Scalar.inf)
    (h : (Executor.prepare (trusting op sub settings)).run e = (.ok (), e')) :
    ∃ r, Regular settings m r e' := by
  have hatBest := Executor.atBest_of_prepare (answers_trusting hsettings) hbest h
  obtain ⟨r, hr, hpos, hle⟩ := hsettings.legal hm
  obtain ⟨_, _, _, _, -, -, hworking, -, hends⟩ :=
    opened_of_prepare (solver_trusting op sub settings) h
  rcases hends with ⟨-, hover, -⟩ | ⟨hmoving, hkv, -⟩
  · -- at a stationary point the run does not go on
    have hover' : e'.stage.state.reason ≠ .notTerminated := fun hgoing =>
      Bool.true_eq_false_eq_False (hover.symm.trans (congrArg Reason.isTerminal hgoing))
    exact ⟨r, hatBest, hworking.trans hr, hpos, hle, fun hgoing => absurd hgoing hover',
      fun hgoing => absurd hgoing hover'⟩
  · refine ⟨r, hatBest, hworking.trans hr, hpos, hle, fun _ => hmoving, fun _ => ?_⟩
    rw [hkv, hr]
    rfl

/-! ### One iteration -/

/-- What an iteration does with the radius `r` and makes of it: it hands it to the subproblem
solver, which hands a step back, and takes the step or leaves everything as it is. -/
structure Adjusts (op : Operator Exact (Vec n) M σ) (sub : Method Exact (Vec n) M)
    (settings : Settings Exact) (m r r' : ℝ)
    (e e' : Executor Exact (Vec n) M σ (Descent.Memory Exact (Vec n) M)) : Prop where
  reported : e.stage.state.kv.lookup "radius" = some (.real (real r))
  among : r' = r / 4 ∨ r' = r ∨ r' = min (2 * r) m
  decided : Accepts op e.stage.state e'.stage.state ∨ Rejects e.stage.state e'.stage.state
  shrinks : Rejects e.stage.state e'.stage.state → r' = r / 4
  step : ∃ x p, e.stage.state.param = some x ∧
    Hands op sub.subproblem e.stage.state r
      ⟨e.stage.memory.trusted settings.radius, e.stage.session⟩ p ∧
    (Accepts op e.stage.state e'.stage.state → e'.stage.state.param = some (x + p)) ∧
    (r < r' → Accepts op e.stage.state e'.stage.state ∧ 9 / 10 * r ≤ ‖p‖)
  told : e'.stage.state.kv.lookup "radius" = some (.real (real r'))

section

variable {s s' : State Exact (Vec n) M} {d : Delta Exact (Vec n) M} {newBest : Bool}

omit [LinearAction Exact (Vec n) M] in
/-- What an iteration tells is what the state reports. -/
theorem lookup_of_merge (hmerge : s.merge d = (.ok newBest, s')) {radius ratio : Exact}
    (hkv : d.kv = told radius ratio) : s'.kv.lookup "radius" = some (.real radius) := by
  have hmerged : (s.merge d).2 = s' := congrArg Prod.snd hmerge
  rw [← hmerged, State.merge_kv, hkv]
  rfl

/-- What was decided of a step is what the state shows. -/
theorem decided_of_merge (hs : s.AtBest) (hmerge : s.merge d = (.ok newBest, s')) {taken : Prop}
    {y : Vec n} (hanswer : taken ∧ d.param = some y ∧ Takes op s d ∨ ¬ taken ∧ d.Still)
    (k : Value Exact) (reason : Reason) :
    taken ∧ Accepts op s { s' with curIter := k, reason := reason } ∧ s'.param = some y ∨
      ¬ taken ∧ Rejects s { s' with curIter := k, reason := reason } := by
  rcases hanswer with ⟨htaken, hpoint, htakes⟩ | ⟨hleft, hstill⟩
  · have hmerged : (s.merge d).2 = s' := congrArg Prod.snd hmerge
    refine .inl ⟨htaken, accepts_of_takes hs htakes hmerge k reason, ?_⟩
    rw [← hmerged, State.merge_param, hpoint, Option.some_or]
  · exact .inr ⟨hleft, rejects_of_still hstill hmerge k reason⟩

end

/-- An iteration from a regular point leads to one, and adjusts the radius. -/
theorem regular_of_step (hsettings : settings.Admitted) (hm : settings.maxRadius = real m)
    (hsub : sub = .cauchy ∨ sub = .dogleg) (he : Regular settings m r e)
    (hdue : continues e.stage.state = .ok true)
    (h : (Executor.step (trusting op sub settings)).run e = (.ok (), e')) :
    ∃ r', Regular settings m r' e' ∧ Adjusts op sub settings m r r' e e' := by
  have hgoing := Executor.reason_of_due hdue
  have hatBest := Executor.atBest_of_step (answers_trusting hsettings) he.best h
  obtain ⟨g, d, b, newBest, s, k, reason, hgrad, hmade, hmerge, hstate, -, hmemory, hmoving⟩ :=
    made_of_step (solver_trusting op sub settings) (he.moving hgoing) h
  have hworking : workingOf settings e' = b.memory.working := congrArg Memory.working hmemory
  obtain ⟨c, hcost, hfinite, -⟩ := he.best.cost
  obtain ⟨c, rfl⟩ := exists_real hfinite
  obtain ⟨x, p, r', ρ, hparam, hhands, hworking', hpos, hle, hkv, hadjusted, hanswer⟩ :=
    adjusted_of_iterate hsettings hm hsub hcost hgrad he.working he.pos he.le hmade
  have htold : e'.stage.state.kv.lookup "radius" = some (.real (real r')) := by
    rw [hstate]
    exact lookup_of_merge hmerge hkv
  have hmoving' : e'.stage.state.reason = .notTerminated →
      ¬ e'.stage.state.Stationary settings.gradTol := by
    rw [hstate]
    exact hmoving
  refine ⟨r', ⟨hatBest, hworking.trans hworking', hpos, hle, hmoving', fun _ => htold⟩, ?_⟩
  -- the ratio decided on the step, and the radius went with it
  have hdecided := decided_of_merge he.best hmerge hanswer k reason
  rcases hdecided with ⟨-, haccepts, hpoint⟩ | ⟨hleft, hrejects⟩
  · rw [← hstate] at haccepts
    exact {
      reported := he.told hgoing
      among := hadjusted.among
      decided := .inl haccepts
      shrinks := fun hrejects => absurd hrejects haccepts.not_rejects
      step := ⟨x, p, hparam, hhands, fun _ => (congrArg State.param hstate).trans hpoint,
        fun hgrows => ⟨haccepts, (hadjusted.grows hgrows).2⟩⟩
      told := htold }
  · rw [← hstate] at hrejects
    exact {
      reported := he.told hgoing
      among := hadjusted.among
      decided := .inr hrejects
      shrinks := fun _ => hadjusted.shrinks hleft
      step := ⟨x, p, hparam, hhands, fun haccepts => absurd hrejects haccepts.not_rejects,
        fun hgrows => absurd (hadjusted.grows hgrows).1 hleft⟩
      told := htold }

/-! ### Rejections in a row -/

/-- `j` iterations of the method, each of them due, completed and rejected, lead from one executor
to another. -/
inductive Rejections (solver : Solver Exact (Vec n) M σ (Descent.Memory Exact (Vec n) M))
    (e : Executor Exact (Vec n) M σ (Descent.Memory Exact (Vec n) M)) :
    ℕ → Executor Exact (Vec n) M σ (Descent.Memory Exact (Vec n) M) → Prop
  | none : Rejections solver e 0 e
  | more {j : ℕ} {e₁ e₂ : Executor Exact (Vec n) M σ (Descent.Memory Exact (Vec n) M)}
      (before : Rejections solver e j e₁) (due : continues e₁.stage.state = .ok true)
      (done : (Executor.step solver).run e₁ = (.ok (), e₂))
      (rejected : Rejects e₁.stage.state e₂.stage.state) : Rejections solver e (j + 1) e₂

/-- Each of the rejections in a row divides the radius by four. -/
theorem regular_of_rejections (hsettings : settings.Admitted) (hm : settings.maxRadius = real m)
    (hsub : sub = .cauchy ∨ sub = .dogleg) (he : Regular settings m r e) {j : ℕ}
    (h : Rejections (trusting op sub settings) e j e') : Regular settings m (r / 4 ^ j) e' := by
  induction h with
  | none =>
    rw [pow_zero, div_one]
    exact he
  | more _ due done rejected ih =>
    -- the last of them leaves a quarter of what those before it left
    obtain ⟨r', hr', hadjusts⟩ := regular_of_step hsettings hm hsub ih due done
    have hshrunk := hadjusts.shrinks rejected
    rw [div_div, ← pow_succ] at hshrunk
    exact hshrunk ▸ hr'

/-! ### Whole runs -/

/-- **The working radius is legal and shrinks with every rejection.**  In exact arithmetic, whatever
the operator and the subproblem's representation of the Hessian, a run of the trust-region method
with the Cauchy point or the dogleg whose greatest radius is finite has between any two of its
iterations a positive working radius not above the greatest one, which no subproblem solver refuses.
Every iteration that completes makes a quarter of it, leaves it, or doubles it up to the greatest
one (`Adjusts`): it is the radius that the state reports and that the subproblem solver is handed,
it shrinks if the step is rejected, and grows only if the step is accepted and has at least nine
tenths of its length.  After `j` rejections in a row it was divided by `4 ^ j`.  And wherever a run
that begins ends, with an outcome or a fault, the working radius is legal. -/
theorem radius_of_reached (hsettings : settings.Admitted)
    (hfinite : Scalar.isFinite settings.maxRadius = true) (hsub : sub = .cauchy ∨ sub = .dogleg)
    (op : Operator Exact (Vec n) M σ)
    {solver : Solver Exact (Vec n) M σ (Descent.Memory Exact (Vec n) M)}
    (hsolver : (Method.trustRegion sub settings).solver op = some solver)
    (memory : Descent.Memory Exact (Vec n) M) (session : Session Exact σ)
    (config : Config Exact (Vec n)) (observers : List (ObserverEntry Exact (Vec n) M)) :
    ∃ m : ℝ, settings.maxRadius = real m ∧
      (∀ k e, Reached solver (ready memory session config observers) k e →
        ∃ r, workingOf settings e = real r ∧ 0 < r ∧ r ≤ m ∧
          (∀ kept, ((sub.subproblem (σ := σ)).setRadius (real r)).run kept =
            (.ok (), .region { kept.model with radius := real r })) ∧
          (∀ e', continues e.stage.state = .ok true →
            (Executor.step solver).run e = (.ok (), e') →
            ∃ r', workingOf settings e' = real r' ∧ Adjusts op sub settings m r r' e e') ∧
          ∀ j e', Rejections solver e j e' → workingOf settings e' = real (r / 4 ^ j)) ∧
      (config.validate = .ok () →
        Legal m (workingOf settings
          ((Executor.run solver).run (ready memory session config observers)).2)) := by
  obtain ⟨m, hm⟩ := exists_real hfinite
  obtain rfl : trusting op sub settings = solver := Option.some.inj hsolver
  refine ⟨m, hm, fun k e hreached => ?_, fun hvalid => ?_⟩
  · -- the radius is legal wherever the run has been, by induction on its iterations
    obtain ⟨r, he⟩ : ∃ r, Regular settings m r e := by
      refine hreached.induct (P := fun e => ∃ r, Regular settings m r e) (fun e₀ hprepare => ?_)
        fun e₁ e₂ he₁ hdue hstep => ?_
      · exact regular_of_prepare hsettings hm rfl hprepare
      · obtain ⟨r, he₁⟩ := he₁
        obtain ⟨r', he₂, -⟩ := regular_of_step hsettings hm hsub he₁ hdue hstep
        exact ⟨r', he₂⟩
    -- and from there on: one iteration, or one rejected after the other
    refine ⟨r, he.working, he.pos, he.le, fun kept => ?_, fun e' hdue hstep => ?_,
      fun j e' hrejections => ?_⟩
    · obtain ⟨name, label, step, hstepping⟩ := exists_stepping (σ := σ) hsub
      rw [hstepping]
      exact Subproblem.run_setRadius he.pos kept
    · obtain ⟨r', he', hadjusts⟩ := regular_of_step hsettings hm hsub he hdue hstep
      exact ⟨r', he'.working, hadjusts⟩
    · exact (regular_of_rejections hsettings hm hsub he hrejections).working
  · -- a run may also fail within an iteration, after the radius was set
    have hmaintains : (trusting op sub settings).Maintains fun memory =>
        Legal m (memory.trusted settings.radius).working :=
      (maintains_legal hsettings hm).widen fun _ => rfl
    exact Executor.maintained_of_run hmaintains rfl hvalid

open Quadratic in
/-- The first iteration of the default method on the bowl over the line, from one, with the dogleg.
-/
theorem radius_of_reached_unitBowl :
    ∃ solver e e' m r r',
      (Method.trustRegion .dogleg usual).solver unitBowl.operator = some solver ∧
      Reached solver (ready (.region Region.unset) { world := (), elapsed := 0.0 }
        (configured (EuclideanSpace.single 0 1) 3) []) 0 e ∧
      (Executor.step solver).run e = (.ok (), e') ∧ 0 < r ∧ r ≤ m ∧
      Adjusts unitBowl.operator .dogleg usual m r r' e e' := by
  have hquiet : ∀ entry ∈ ([] : List (ObserverEntry Exact (Vec 1) (Mat 1))), Executor.Quiet entry :=
    fun _ h => absurd h List.not_mem_nil
  have hdogleg : (Method.dogleg : Method Exact (Vec 1) (Mat 1)) = .cauchy ∨
      (Method.dogleg : Method Exact (Vec 1) (Mat 1)) = .dogleg := .inr rfl
  obtain ⟨m, -, hruns, -⟩ := radius_of_reached valid_usual.toAdmitted isFinite_real hdogleg
    unitBowl.operator rfl (.region Region.unset) { world := (), elapsed := 0.0 }
    (configured (EuclideanSpace.single 0 1) 3) []
  have hradius : usual.radius = real 1 := one_eq
  obtain ⟨e, hprepare, hbegun⟩ : ∃ e, _ ∧
      (Arrived unitBowl usual 0 (EuclideanSpace.single 0 1) e.stage.state ∨
        Advances unitBowl usual 1 3 0 (EuclideanSpace.single 0 1) e) :=
    prepare_of_ready (Method.dogleg : Method Exact (Vec 1) (Mat 1)).subproblem hradius
      valid_usual.bound (.region Region.unset) { world := (), elapsed := 0.0 } hquiet
  have hreached := Executor.reached_zero.mpr hprepare
  obtain ⟨r, -, hpos, hle, -, hsteps, -⟩ := hruns 0 e hreached
  -- the bowl is not stationary at one, so an iteration is due
  have hadvances := hbegun.resolve_left fun harrived => moving_unitBowl harrived.still
  obtain ⟨Λ, hΛ⟩ := exists_curvatureBound unitBowl.hessian
  obtain ⟨y, e', hstep, -⟩ := hadvances.step valid_usual
    (Method.sufficient_subproblem rfl hdogleg) hΛ one_pos (by norm_num)
  have hdue : continues e.stage.state = .ok true := by
    have hnot : e.stage.state.terminated = false :=
      congrArg Reason.isTerminal hadvances.state.reason
    exact Executor.continues_of_reached (Algorithm.abstains_toSolver _).widen rfl hreached hnot
  obtain ⟨r', -, hadjusts⟩ := hsteps e' hdue hstep
  exact ⟨_, e, e', m, r, r', rfl, hreached, hstep, hpos, hle, hadjusts⟩

end TrustRegion

end Descent
