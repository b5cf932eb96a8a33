import Descent.Proofs.Quadratic.Boundary
import Descent.Proofs.Quadratic.Exactness
import Descent.Proofs.Run.Billed

/-!
# Strictly convex quadratics within reach

The Newton step from any point of a strictly convex quadratic leads to its minimiser, the solution
of the linear system (`Quadratic.add_newton`).  Where the region has that step the dogleg answers
with it (`Method.dogleg_hands_newton`), and the gradient there is zero.  So a run whose first radius
reaches the minimiser makes one iteration, which ends it (`Quadratic.run_one_step`).
-/

namespace Descent

open Act Exact

variable {n : ℕ}

/-! ### The Newton step -/

/-- The Newton step of a positive definite model promises a reduction. -/
theorem reduction_newton_pos {A : Mat n} (hA : A.PosDef) {g : Vec n} (hg : g ≠ 0) :
    0 < reduction A g (newton A g) := by
  have hsolves := newton_spec hA g
  have hne : newton A g ≠ 0 := by
    intro hzero
    rw [hzero, map_zero] at hsolves
    exact hg (neg_eq_zero.mp hsolves.symm)
  have hcurved : 0 < curvature A (newton A g) := inner_pos hA hne
  have hway := reduction_toward (isSymm_of_posDef hA) hsolves 0 1
  have hrest : reduction A g 0 = 0 := by
    unfold reduction form
    rw [inner_zero_right, inner_zero_left]
    ring
  rw [one_smul, zero_add, sub_zero, hrest] at hway
  linarith

namespace Quadratic

variable (q : Quadratic n) (x : Vec n)

/-- The Newton step leads to the minimiser. -/
theorem add_newton :
    x + newton q.hessian (q.gradient x) = image q.hessian⁻¹ q.linear := by
  have hsolves : image q.hessian (x + newton q.hessian (q.gradient x)) = q.linear := by
    rw [map_add, newton_spec q.posDef]
    unfold Quadric.gradient
    abel
  rw [← hsolves, image_inv_image q.posDef.isUnit]

/-- There the gradient is zero. -/
theorem gradient_newton : q.gradient (x + newton q.hessian (q.gradient x)) = 0 := by
  rw [add_newton]
  unfold Quadric.gradient
  rw [image_image_inv q.posDef.isUnit, sub_self]

/-- The Newton step is as long as the way to the minimiser. -/
theorem newton_eq :
    newton q.hessian (q.gradient x) = image q.hessian⁻¹ (q.linear - image q.hessian x) := by
  rw [eq_inv_of_image q.posDef.isUnit (newton_spec q.posDef _), ← map_neg]
  unfold Quadric.gradient
  rw [neg_sub]

end Quadratic

/-- Within a region that has the Newton step of a positive definite model, the dogleg answers with
it. -/
theorem Method.dogleg_hands_newton {σ : Type} {op : Operator Exact (Vec n) (Mat n) σ}
    (hop : op.provides .cost = true) {A : Mat n} (hA : A.PosDef) {g : Vec n} (hg : g ≠ 0) {Δ : ℝ}
    (hΔ : 0 < Δ) (hin : ‖newton A g‖ ≤ Δ)
    (b : Bench Exact σ (TrustRegion.Memory Exact (Memory Exact (Vec n) (Mat n)))) :
    ∃ b₁ b₂,
      (TrustRegion.prepare (Method.dogleg : Method Exact (Vec n) (Mat n)).subproblem (real Δ) g
        (some A)).run b = (.ok (), b₁) ∧
      (TrustRegion.solveModel op (Method.dogleg : Method Exact (Vec n) (Mat n)).subproblem g).run
        b₁ = (.ok (newton A g), b₂) := by
  obtain ⟨p, hstep, hleads⟩ := Dogleg.step_leads (acts_matrix A) (fun _ => newtonStep_eq g A) hΔ
  obtain rfl : p = newton A g := hleads.eq_whole (inner_pos hA hg) hin
  exact Subproblem.solveModel_of_step hop "Dogleg" "Dogleg" hΔ hstep b

namespace Quadratic

variable {q : Quadratic n} {x : Vec n} {Δ : ℝ} {settings : TrustRegion.Settings Exact}
  {e : Executor Exact (Vec n) (Mat n) Unit (Memory Exact (Vec n) (Mat n))}

/-- An iteration with the Newton step within its region leads to the minimiser, and the run has
converged. -/
theorem iterate_newton (hsettings : settings.Valid) (h : q.toQuadric.Going settings x Δ e)
    (hin : ‖newton q.hessian (q.gradient x)‖ ≤ Δ) (hgoing : e.stage.state.reason = .notTerminated)
    {k : ℕ} (hcounter : e.stage.state.curIter = .int k)
    (htarget : ∀ c : ℝ, ∃ met, (Value.real (real c)).le e.stage.state.targetCost = .ok met) :
    ∃ Δ' v, (Executor.iterate (q.trusting Method.dogleg.subproblem settings)).run e =
        (.ok true, v) ∧
      q.Moves settings x (image q.hessian⁻¹ q.linear) Δ Δ' e v ∧
      v.stage.state.reason = .converged ∧
      ((∀ entry ∈ e.observers, Executor.Quiet entry) →
        ∀ ceiling, e.stage.state.maxIters = .int ceiling → k < ceiling →
          ∃ w, (Executor.step (q.trusting Method.dogleg.subproblem settings)).run e =
            (.ok (), w)) := by
  have hnonzero : q.gradient x ≠ 0 := by
    have hlong := TrustRegion.lt_norm_of_not_stationary hsettings h.moving
    exact norm_pos_iff.mp (lt_trans (by norm_num) hlong)
  have hop : q.operator.provides .cost = true := rfl
  obtain ⟨b₁, b₂, hprepare, hsolve⟩ := Method.dogleg_hands_newton hop q.posDef hnonzero h.pos hin
    ⟨e.stage.memory.trusted settings.radius, e.stage.session⟩
  obtain ⟨Δ', v, hiterate, hmoves, -, hends, hcompletes⟩ :=
    h.iterate_of_solved hsettings hgoing hcounter htarget hprepare hsolve
      (reduction_newton_pos q.posDef hnonzero)
  rw [q.add_newton x] at hmoves
  refine ⟨Δ', v, hiterate, hmoves, hends ?_, hcompletes⟩
  -- the gradient is zero where it led
  by_contra hlong
  have hfar := TrustRegion.lt_norm_of_not_stationary (g := q.gradient _) hsettings hlong
  rw [q.gradient_newton, norm_zero] at hfar
  norm_num at hfar

open Executor (Reached ready)

/-- **A strictly convex quadratic is solved in one step where the region allows it.**  In exact
arithmetic, a run of the trust-region method with the dogleg on a strictly convex quadratic, from a
point where the gradient does not count as zero and with a first radius no less than the way from
there to the minimiser, makes one iteration, whose ratio of actual to predicted reduction is one.
It has converged then, at the minimiser, and was charged two evaluations of each kind.  That is so
for every valid configuration with a ceiling of one or more, whatever the target. -/
theorem run_one_step (q : Quadratic n) (x₀ : Vec n) {settings : TrustRegion.Settings Exact}
    (hsettings : settings.Valid)
    (hmoving : ¬ real ‖q.hessian.toEuclideanLin x₀ - q.linear‖ ≤
      Scalar.greatest settings.gradTol 1e-10)
    (hreach : real ‖q.hessian⁻¹.toEuclideanLin (q.linear - q.hessian.toEuclideanLin x₀)‖ ≤
      settings.radius)
    {solver : Solver Exact (Vec n) (Mat n) Unit (Memory Exact (Vec n) (Mat n))}
    (hsolver : (Method.trustRegion .dogleg settings).solver q.operator = some solver)
    (memory : Memory Exact (Vec n) (Mat n)) (session : Session Exact Unit)
    {config : Config Exact (Vec n)} (hparam : config.param = some x₀)
    (hvalid : config.validate = .ok ()) {ceiling : ℤ} (hceiling : config.maxIters = .int ceiling)
    (hone : 1 ≤ ceiling) {observers : List (ObserverEntry Exact (Vec n) (Mat n))}
    (hquiet : ∀ entry ∈ observers, Executor.Quiet entry) :
    ∃ outcome e', (Executor.run solver).run (ready memory session config observers) =
        (.ok outcome, e') ∧
      outcome.state.reason = .converged ∧ outcome.state.curIter = .int 1 ∧
      outcome.state.param = some (q.hessian⁻¹.toEuclideanLin q.linear) ∧
      outcome.state.kv.lookup "rho" = some (.real (real 1)) ∧
      outcome.counts = session.counts.plus 2 2 2 := by
  obtain rfl : q.trusting Method.dogleg.subproblem settings = solver :=
    Option.some.inj hsolver
  have habstains := q.abstains_trusting Method.dogleg.subproblem settings
  -- the run is prepared to go on from the start
  obtain ⟨e₀, -, h₀, -⟩ := q.toQuadric.reached_of_ready Method.dogleg.subproblem settings memory
    session observers hparam
  obtain ⟨hgoing, Δ₀, hradius, hstart⟩ := Quadric.going_of_ready (q := q.toQuadric)
    Method.dogleg.subproblem hsettings hparam hmoving h₀
  have hat := Executor.standsAt_of_reached habstains h₀
  have hdue : Executor.continues e₀.stage.state = .ok true := by
    have hnot : e₀.stage.state.terminated = false := congrArg Reason.isTerminal hgoing
    rw [Executor.continues_of_reached habstains (congrArg Value.number? hceiling) h₀ hnot]
    exact congrArg Except.ok (decide_eq_true hone)
  -- the first iteration leads to the minimiser and ends the run
  have hin : ‖newton q.hessian (q.gradient x₀)‖ ≤ Δ₀ := by
    rw [hradius, real_le] at hreach
    rw [newton_eq]
    exact hreach
  obtain ⟨Δ', v, hiterate, hmoves, hends, hcompletes⟩ :=
    iterate_newton hsettings hstart hin hgoing hat.counter
      fun c => Executor.decides_target habstains hvalid h₀ (real c)
  obtain ⟨w, hstep⟩ := hcompletes (hat.observed ▸ hquiet) ceiling
    ((Executor.maxIters_of_reached habstains h₀).trans hceiling) hone
  have h₁ := h₀.more hdue hstep
  have hstate : w.stage.state = v.stage.state :=
    congrArg (fun e => e.stage.state) (Executor.untold_of_step hiterate hstep)
  have hstopped : w.stage.state.terminated = true :=
    (congrArg State.terminated hstate).trans (congrArg Reason.isTerminal hends)
  have hfuel : 1 ≤ Executor.fuel config.maxIters := by
    have hlt := Executor.lt_fuel (R := Exact) (congrArg Value.number? hceiling)
    omega
  obtain ⟨e', hrun⟩ := Executor.run_of_drive_eq_ok rfl hvalid
    (Executor.drive_of_reached h₁ hfuel (if_pos hstopped))
  have hlast := Executor.state_closed_of_terminated hstopped .maxItersReached
  refine ⟨_, e', hrun, ?_, ?_, ?_, ?_, ?_⟩
  · exact (congrArg State.reason hlast).trans ((congrArg State.reason hstate).trans hends)
  · exact (congrArg State.curIter hlast).trans (Executor.standsAt_of_reached habstains h₁).counter
  · exact (congrArg State.param hlast).trans
      ((congrArg State.param hstate).trans hmoves.after.param)
  · have hkv := (congrArg State.kv hlast).trans ((congrArg State.kv hstate).trans hmoves.ratio)
    rw [hkv]
    rfl
  · have hmoving₀ : ¬ e₀.stage.state.Stationary settings.gradTol := by
      rintro ⟨g, hg, hshort⟩
      obtain rfl := Option.some.inj (hstart.stands.grad.symm.trans hg)
      exact hmoving hshort
    have hkv := (congrArg State.kv hstate).trans hmoves.ratio
    exact TrustRegion.counts_of_took hsolver h₀ hmoving₀ h₁
      ((TrustRegion.took_iff hkv).mpr hsettings.lt_one)

/-- From one the default method with the dogleg solves the bowl over the line in one step. -/
theorem run_one_step_unitBowl :
    ∃ solver outcome e', (Method.trustRegion .dogleg usual).solver unitBowl.operator = some solver ∧
      (Executor.run solver).run (ready (.region Region.unset) { world := (), elapsed := 0.0 }
        (configured (EuclideanSpace.single 0 1) 1) []) = (.ok outcome, e') ∧
      outcome.state.reason = .converged ∧ outcome.state.curIter = .int 1 ∧
      outcome.state.param = some (unitBowl.hessian⁻¹.toEuclideanLin unitBowl.linear) ∧
      outcome.counts = ⟨2, 2, 2⟩ := by
  have hquiet : ∀ entry ∈ ([] : List (ObserverEntry Exact (Vec 1) (Mat 1))), Executor.Quiet entry :=
    fun _ h => absurd h List.not_mem_nil
  -- the Newton step goes from `1` to the bottom at `0`, a distance of the whole radius
  have hreach : real ‖unitBowl.hessian⁻¹.toEuclideanLin (unitBowl.linear -
      unitBowl.hessian.toEuclideanLin (EuclideanSpace.single 0 1))‖ ≤ usual.radius := by
    unfold unitBowl usual
    rw [inv_one, Matrix.toLpLin_one, LinearMap.id_apply, LinearMap.id_apply, zero_sub, norm_neg,
      PiLp.norm_single]
    show real _ ≤ real 1.0
    rw [real_le]
    norm_num
  obtain ⟨outcome, e', hrun, hreason, hcounter, hparam, -, hcounts⟩ :=
    run_one_step unitBowl (EuclideanSpace.single 0 1) valid_usual moving_unitBowl hreach rfl
      (.region Region.unset) { world := (), elapsed := 0.0 } rfl (validate_configured _ 1) rfl
      le_rfl hquiet
  exact ⟨_, outcome, e', rfl, hrun, hreason, hcounter, hparam, hcounts⟩

end Quadratic

end Descent
