import Descent.Proofs.LineSearch.Decrease
import Descent.Proofs.Quadratic.Newton

/-!
# Steepest descent on a surface

Where its line search takes a step length (`Surface.Takes`), steepest descent makes an iteration
that leads to the point of this step length, be the cost lower there or not
(`Surface.exists_iterate_steepest`).

Of some searches it is known what they take.  Backtracking takes its first step length if the cost
decreases sufficiently there (`Surface.takes_backtracking_first`), and the one after its trials if
these are all rejected (`Surface.takes_backtracking_of_rejected`).  A strong Wolfe search takes its
first step length if it may try nothing (`Surface.takes_wolfe_untried`), and the last middle of its
zoom if the first trial and all middles before it are rejected (`Surface.takes_wolfe_of_rejected`).
-/

open scoped RealInnerProductSpace

namespace Descent

open Exact

variable {n : ℕ} {σ : Type}

/-! ### Trials that are too high -/

namespace Wolfe

variable {R V M : Type} [Scalar R] [Space R V] {op : Operator R V M σ} {w : Wolfe R}
  {line : Line R V} {b b' : Bracket R} {α trial : R} {p p' : Probe R V σ}

/-- A middle that is too high becomes the upper end of the bracket. -/
theorem run_pass_of_high (hmiddle : b.middle = α)
    (hcost : (Probe.cost op line.origin line.direction α).run p = (.ok trial, p'))
    (hhigh : w.tooHigh line α trial = true) (hmet : Ray.known α p'.ray.grads = none) :
    (w.pass op line b).run p =
      (.ok (.narrowed { b with ahi := α } ⟨α, some trial, none⟩), p') := by
  unfold pass
  rw [hmiddle, Act.run_bind_of_ok hcost, hhigh, Bool.true_or, if_pos rfl,
    Act.run_bind_of_ok (Act.run_get _)]
  dsimp only
  rw [hmet]
  rfl

/-- A trial that is too high is zoomed before. -/
theorem run_trials_of_high {left : ℕ} {first : Bool} {previous before : R}
    (hcost : (Probe.cost op line.origin line.direction α).run p = (.ok trial, p'))
    (hhigh : w.tooHigh line α trial = true) :
    (w.trials op line (left + 1) first previous before α).run p =
      (w.zoomInto op line ⟨previous, α, before⟩).run p' := by
  unfold trials
  rw [Act.run_bind_of_ok hcost, hhigh, Bool.true_or, if_pos rfl]

/-- A zoom goes on from the bracket of its first pass, or settles for it. -/
theorem run_zoom_succ {left : ℕ} {tried tried' : StepLength R V}
    (hpass : (w.pass op line b).run p = (.ok (.narrowed b' tried'), p')) :
    (w.zoom op line (left + 1) b tried).run p =
      (if Scalar.magnitude (b'.ahi - b'.alo) < 1e-12 then settle b' tried'
        else w.zoom op line left b' tried').run p' := by
  conv_lhs => unfold zoom
  rw [Act.run_bind_of_ok hpass]

end Wolfe

namespace Surface

variable {f : Surface n} {x d y : Vec n} {α b : ℝ} {line : Method Exact (Vec n) (Mat n)}
  {s : State Exact (Vec n) (Mat n)} {tol : Exact} {step : StepLength Exact (Vec n)}

/-! ### Iterations -/

/-- Steepest descent on the surface itself. -/
noncomputable def steepest (f : Surface n) (line : Method Exact (Vec n) (Mat n)) (tol : Exact) :
    Solver Exact (Vec n) (Mat n) Unit (Memory Exact (Vec n) (Mat n)) :=
  (SteepestDescent.algorithm f.operator (line.lineSearch f.operator) tol).toSolver

/-- Wherever a state stands at the point, the search in the direction takes the step length. -/
def Takes (f : Surface n) (line : Method Exact (Vec n) (Mat n)) (x d : Vec n)
    (step : StepLength Exact (Vec n)) : Prop :=
  ∀ s, f.Placed x s → ∀ session : Session Exact Unit, ∃ session',
    ((line.lineSearch f.operator).search d s).run session = (.ok step, session')

/-- The delta of a step length that leads to a point. -/
noncomputable def landing (f : Surface n) (y : Vec n) (α : ℝ) : Delta Exact (Vec n) (Mat n) where
  param := some y
  cost := some (.real (real (f.value y)))
  grad := some (f.gradient y)
  kv := [("alpha", .real (real α))]

/-- After a merge of such a delta the state stands at the point, and its best cost is real still. -/
theorem merge_landing (f : Surface n) (y : Vec n) (α : ℝ) (hbest : s.bestCost = .real (real b)) :
    ∃ newBest s', s.merge (f.landing y α) = (.ok newBest, s') ∧ f.Placed y s' ∧
      ∃ b' : ℝ, s'.bestCost = .real (real b') := by
  by_cases hlt : real (f.value y) < real b
  · exact ⟨_, _, State.merge_of_lower hbest rfl hlt, ⟨rfl, rfl, rfl⟩, _, rfl⟩
  · have hmerge := State.merge_of_ok (s := s) (d := f.landing y α) rfl rfl
    rw [State.mergeCost_of_not_lt (show (s.facing (f.landing y α)).bestCost = _ from hbest) hlt]
      at hmerge
    exact ⟨_, _, hmerge, ⟨rfl, rfl, rfl⟩, b, hbest⟩

/-- What the search did not meet at its step length is evaluated there. -/
theorem run_complete (hstep : step.Faithful f.landscape (some x) d) (halpha : step.alpha = real α)
    (session : Session Exact Unit) :
    ∃ session', (Descending.complete f.operator (x + α • d) step).run session =
      (.ok (real (f.value (x + α • d)), some (f.gradient (x + α • d))), session') := by
  obtain ⟨a, cost, grad⟩ := step
  obtain rfl : a = real α := halpha
  have hcost := hstep.cost
  have hgrad := hstep.grad
  rw [point_real] at hcost hgrad
  -- what the search has already evaluated is not asked for again
  cases cost with
  | none =>
    cases grad with
    | none => exact ⟨_, rfl⟩
    | some g =>
      cases hgrad g rfl
      exact ⟨_, rfl⟩
  | some c =>
    cases hcost c rfl
    cases grad with
    | none => exact ⟨_, rfl⟩
    | some g =>
      cases hgrad g rfl
      exact ⟨_, rfl⟩

/-- The delta of an iteration is that of the step length that its search takes. -/
theorem run_next_steepest (hs : f.Placed x s) (htakes : f.Takes line x (-f.gradient x) step)
    (hstep : step.Faithful f.landscape (some x) (-f.gradient x)) (halpha : step.alpha = real α)
    (session : Session Exact Unit) :
    ∃ session', (SteepestDescent.next f.operator (line.lineSearch f.operator) s).run session =
      (.ok (f.landing (x + α • -f.gradient x) α), session') := by
  obtain ⟨session', hsearch⟩ := htakes s hs session
  obtain ⟨session'', hcomplete⟩ := run_complete hstep halpha session'
  have hy : (do Space.add (← Space.require s.param) (Space.scale (-f.gradient x) step.alpha)) =
      .ok (x + α • -f.gradient x) := by
    rw [hs.param, halpha]
    exact point_real x (-f.gradient x) α
  have hfinite : checkFinite (real (f.value (x + α • -f.gradient x))) "Cost" = .ok () :=
    if_pos isFinite_real
  refine ⟨session'', ?_⟩
  unfold SteepestDescent.next
  rw [hs.grad]
  dsimp only
  rw [neg_eq]
  unfold Descending.advance
  rw [Act.run_bind_of_ok hsearch, Act.run_bind_of_ok (Act.run_lift_eq.mpr ⟨hy, rfl⟩),
    Act.run_bind_of_ok hcomplete]
  dsimp only
  rw [Act.run_bind_of_ok (Act.run_lift_eq.mpr ⟨hfinite, rfl⟩), halpha]
  rfl

section

variable {memory : Memory Exact (Vec n) (Mat n)} {session : Session Exact Unit}
  {config : Config Exact (Vec n)} {observers : List (ObserverEntry Exact (Vec n) (Mat n))}
  {u : Executor Exact (Vec n) (Mat n) Unit (Memory Exact (Vec n) (Mat n))}

/-- A run is prepared to go on from the point where it starts, unless the gradient counts as zero
there. -/
theorem reached_steepest (f : Surface n) (line : Method Exact (Vec n) (Mat n))
    (memory : Memory Exact (Vec n) (Mat n)) (session : Session Exact Unit)
    (observers : List (ObserverEntry Exact (Vec n) (Mat n))) (hparam : config.param = some x)
    (hmoving : ¬ Negligible tol (f.gradient x)) :
    ∃ u, Executor.Reached (f.steepest line tol) (.ready memory session config observers) 0 u ∧
      f.Placed x u.stage.state ∧ u.stage.state.bestCost = .real (real (f.value x)) ∧
      u.stage.state.reason = .notTerminated := by
  set e := Executor.begun (f.steepest line tol) (.ready memory session config observers) with he
  have hstart : e.stage.state.param = some x := hparam
  -- away from a stationary point the opening leaves the run going
  have hopening : Descending.opening tol (real (f.value x)) (some (f.gradient x)) =
      (.ok { cost := some (.real (real (f.value x))), grad := some (f.gradient x) } :
        Except (Fault Exact) (Delta Exact (Vec n) (Mat n))) := by
    have hlong : ¬ real ‖f.gradient x‖ ≤ Scalar.greatest tol absoluteTolerance := hmoving
    unfold Descending.opening
    rw [Quadratic.stationary_newton, decide_eq_false hlong]
    rfl
  have hfinite : checkFinite (real (f.value x)) "Initial cost" = .ok () := if_pos isFinite_real
  have hinit : (f.steepest line tol).init.run e.stage =
      (.ok (some { cost := some (.real (real (f.value x))), grad := some (f.gradient x) }),
        ⟨memory, e.stage.state, (e.stage.session.charged .cost ()).charged .gradient ()⟩) := by
    refine Algorithm.run_onStage
      (fun s => Bench.inSession (SteepestDescent.init f.operator tol s))
      (Act.run_zoom_eq.mpr ⟨_, ?_, rfl⟩)
    have hcost : (Session.costValue f.operator (some x)).run e.stage.session =
        (.ok (real (f.value x)), e.stage.session.charged .cost ()) := rfl
    have hgrad : ∀ session : Session Exact Unit,
        (Session.gradient f.operator (some x)).run session =
          (.ok (some (f.gradient x)), session.charged .gradient ()) := fun _ => rfl
    unfold SteepestDescent.init
    rw [hstart, Act.run_bind_of_ok hcost, Act.run_bind_of_ok (hgrad _),
      Act.run_bind_of_ok (Act.run_lift_eq.mpr ⟨hfinite, rfl⟩),
      Act.run_bind_of_ok (Act.run_lift_eq.mpr ⟨hopening, rfl⟩)]
    rfl
  have hfirst : real (f.value x) < (Scalar.inf : Exact) := known_lt.mpr (EReal.coe_lt_top _)
  have hprepare := Executor.prepare_of_lower rfl rfl hinit rfl rfl hfirst
  exact ⟨_, Executor.reached_zero.mpr hprepare, ⟨hstart, rfl, rfl⟩, rfl, rfl⟩

/-- An iteration is made whose search takes a step length, and it leads to the point of that. -/
theorem exists_iterate_steepest (hvalid : config.validate = .ok ()) {k : ℕ}
    (hu : Executor.Reached (f.steepest line tol) (.ready memory session config observers) k u)
    (hgoing : u.stage.state.reason = .notTerminated) (hx : f.Placed x u.stage.state)
    (hbest : u.stage.state.bestCost = .real (real b))
    (htakes : f.Takes line x (-f.gradient x) step)
    (hstep : step.Faithful f.landscape (some x) (-f.gradient x)) (halpha : step.alpha = real α) :
    ∃ newBest v, (Executor.iterate (f.steepest line tol)).run u = (.ok newBest, v) ∧
      f.Placed (x + α • -f.gradient x) v.stage.state := by
  have habstains : (f.steepest line tol).Abstains := Algorithm.abstains_toSolver _
  obtain ⟨session', hrun⟩ := run_next_steepest hx htakes hstep halpha u.stage.session
  have hnext : (f.steepest line tol).next.run u.stage =
      (.ok (some (f.landing (x + α • -f.gradient x) α)),
        ⟨u.stage.memory, u.stage.state, session'⟩) := by
    have hbench : (Bench.inSession (SteepestDescent.next f.operator (line.lineSearch f.operator)
        u.stage.state)).run ⟨u.stage.memory, u.stage.session⟩ =
          (.ok (f.landing (x + α • -f.gradient x) α), ⟨u.stage.memory, session'⟩) :=
      Act.run_zoom_eq.mpr ⟨_, hrun, rfl⟩
    exact Algorithm.run_onStage (fun s => some <$> Bench.inSession
      (SteepestDescent.next f.operator (line.lineSearch f.operator) s)) (Act.run_bind_of_ok hbench)
  obtain ⟨newBest, s, hmerge, hs, b', hbest'⟩ :=
    f.merge_landing (x + α • -f.gradient x) α hbest
  -- a merge leaves alone how far the run has come
  have hstanding : s.standing = u.stage.state.standing := State.standing_of_merge hmerge
  have hcounter : s.curIter = .int k := (congrArg State.Standing.curIter hstanding).trans
    (Executor.standsAt_of_reached habstains hu).counter
  obtain ⟨met, hmet⟩ := Executor.decides_target habstains hvalid hu (real b')
  have htarget : s.targetReached = .ok met := by
    unfold State.targetReached
    rw [hbest', show s.targetCost = _ from congrArg State.Standing.targetCost hstanding]
    exact hmet
  obtain ⟨r, hanswer⟩ : ∃ r, SteepestDescent.terminate tol { s with curIter := .int (k + 1) } =
      .ok r := by
    unfold SteepestDescent.terminate
    rw [show ({ s with curIter := .int (k + 1) } : State _ _ _).grad = _ from hs.grad,
      Quadratic.stationary_newton]
    exact ⟨_, rfl⟩
  have hterminate := Algorithm.run_onStage (fun s => Act.lift (SteepestDescent.terminate tol s))
    (t := ⟨u.stage.memory, { s with curIter := .int (k + 1) }, session'⟩)
    (Act.run_lift_eq.mpr ⟨hanswer, rfl⟩)
  obtain ⟨reason, hiterate, -⟩ := Executor.iterate_of_merge
    ((congrArg State.Standing.reason hstanding).trans hgoing) hcounter hnext hmerge rfl hterminate
    htarget
  exact ⟨newBest, _, hiterate, ⟨hs.param, hs.cost, hs.grad⟩⟩

end

/-! ### Searches -/

/-- A step length that was not tried says nothing. -/
theorem faithful_untried : StepLength.Faithful f.landscape (some x) d ⟨real α, none, none⟩ :=
  ⟨nofun, nofun⟩

/-- A step length with the cost that the profile has there says what is so. -/
theorem faithful_of_profile : StepLength.Faithful f.landscape (some x) d
    ⟨real α, some (real ((f.profile x d).value α)), none⟩ := by
  refine StepLength.faithful_of_cost ?_ nofun
  rw [point_real]
  rfl

/-- A cost that was not met before is evaluated and kept. -/
theorem run_cost {ray : Ray Exact (Vec n)} (hnew : Ray.known (real α) ray.costs = none)
    (session : Session Exact Unit) :
    (Probe.cost f.operator (some x) d (real α)).run ⟨ray, session⟩ =
      (.ok (real ((f.profile x d).value α)),
        ⟨{ ray with costs := (real α, real ((f.profile x d).value α)) :: ray.costs },
          session.charged .cost ()⟩) := by
  unfold Probe.cost
  rw [Act.run_bind_of_ok (Act.run_get _)]
  dsimp only
  rw [hnew, Act.run_bind_of_ok (Act.run_lift_eq.mpr ⟨point_real x d α, rfl⟩)]
  rfl

/-- Costs that were met at longer step lengths only. -/
def Beyond (α : ℝ) (costs : List (Exact × Exact)) : Prop :=
  ∀ p ∈ costs, ∃ β, p.1 = real β ∧ α < β

theorem Beyond.nil : Beyond α [] := nofun

theorem Beyond.cons {β : ℝ} {c : Exact} {costs : List (Exact × Exact)} (h : Beyond α costs)
    (hlt : β < α) : Beyond β ((real α, c) :: costs) := by
  intro p hp
  rcases List.mem_cons.mp hp with rfl | hp
  · exact ⟨α, rfl, hlt⟩
  · obtain ⟨γ, hγ, hα⟩ := h p hp
    exact ⟨γ, hγ, hlt.trans hα⟩

theorem Beyond.known {costs : List (Exact × Exact)} (h : Beyond α costs) :
    Ray.known (real α) costs = none := by
  induction costs with
  | nil => rfl
  | cons p costs ih =>
    obtain ⟨β, hβ, hα⟩ := h p (List.mem_cons_self ..)
    have hnot : ¬ (p.1 ≤ real α ∧ real α ≤ p.1) := by
      rw [hβ, real_le]
      exact fun hle => hle.1.not_gt hα
    unfold Ray.known
    rw [if_neg hnot]
    exact ih fun q hq => h q (List.mem_cons_of_mem p hq)

section

variable {α₀ ρ c : ℝ} {maxIter : Int}

/-- Trials that are all rejected come to the length after the last of them.  The induction is on the
trials that are left. -/
theorem run_trials_of_rejected (hρ : 0 < ρ ∧ ρ < 1) (left : ℕ) (hα : 0 < α)
    {costs : List (Exact × Exact)} (hcosts : Beyond α costs)
    (hrejected : ∀ k < left, ¬ (f.profile x d).Decreases c (α * ρ ^ k))
    (session : Session Exact Unit) :
    ∃ probe, ((Backtracking.ofReal α₀ ρ c maxIter).trials f.operator (some x) d
      (real ((f.profile x d).value 0)) (real ((f.profile x d).slope 0)) left (real α)).run
        ⟨⟨costs, []⟩, session⟩ = (.ok ⟨real (α * ρ ^ left), none, none⟩, probe) := by
  induction left generalizing α costs session with
  | zero =>
    have hlast : Ray.known (real (α * ρ ^ 0)) costs = none := by
      rw [pow_zero, mul_one]
      exact hcosts.known
    unfold Backtracking.trials
    rw [Act.run_bind_of_ok (Act.run_get _)]
    dsimp only
    rw [pow_zero, mul_one] at hlast ⊢
    rw [hlast]
    exact ⟨_, rfl⟩
  | succ left ih =>
    have hfirst : (Backtracking.ofReal α₀ ρ c maxIter).isSufficient
        (real ((f.profile x d).value 0)) (real ((f.profile x d).slope 0)) (real α)
        (real ((f.profile x d).value α)) ≠ true := by
      rw [Ne, Backtracking.isSufficient_iff]
      simpa using hrejected 0 (Nat.succ_pos left)
    -- after the first one the trials are those that begin at the shorter length
    have hrest : ∀ k < left, ¬ (f.profile x d).Decreases c (α * ρ * ρ ^ k) := by
      intro k hk
      rw [mul_assoc, ← pow_succ']
      exact hrejected (k + 1) (Nat.succ_lt_succ hk)
    obtain ⟨probe, hprobe⟩ := ih (mul_pos hα hρ.1) (hcosts.cons (mul_lt_of_lt_one_right hα hρ.2))
      hrest (session.charged .cost ())
    rw [mul_assoc, ← pow_succ'] at hprobe
    refine ⟨probe, ?_⟩
    unfold Backtracking.trials
    rw [Act.run_bind_of_ok (run_cost hcosts.known session), if_neg hfirst]
    dsimp only
    rw [real_mul]
    exact hprobe

/-- A backtracking search comes to its trials. -/
theorem run_backtracking_of_trials (hs : f.Placed x s) {session : Session Exact Unit}
    {probe : Probe Exact (Vec n) Unit}
    (htrials : ((Backtracking.ofReal α₀ ρ c maxIter).trials f.operator (some x) d
      (real ((f.profile x d).value 0)) (real ((f.profile x d).slope 0)) maxIter.toNat
        (real α₀)).run ⟨{}, session⟩ = (.ok step, probe)) :
    ((Backtracking.ofReal α₀ ρ c maxIter).search f.operator d s).run session =
      (.ok step, probe.session) := by
  rw [profile_value_zero] at htrials
  unfold Backtracking.search
  rw [Act.run_bind_of_ok (hs.run_current session)]
  dsimp only
  rw [Act.run_bind_of_ok (Act.run_lift_eq.mpr ⟨innerWith_gradient f x d, rfl⟩), hs.param]
  exact LineSearch.run_along htrials

/-- A backtracking search whose trials are all rejected takes the length after them, untested. -/
theorem takes_backtracking_of_rejected (hα₀ : 0 < α₀) (hρ : 0 < ρ ∧ ρ < 1)
    (hrejected : ∀ k < maxIter.toNat, ¬ (f.profile x d).Decreases c (α₀ * ρ ^ k)) :
    f.Takes (.backtracking (.ofReal α₀ ρ c maxIter)) x d
      ⟨real (α₀ * ρ ^ maxIter.toNat), none, none⟩ := by
  intro s hs session
  obtain ⟨probe, hrun⟩ := run_trials_of_rejected hρ maxIter.toNat hα₀ Beyond.nil hrejected session
  exact ⟨_, run_backtracking_of_trials hs hrun⟩

/-- A backtracking search takes its first length if the cost decreases sufficiently there. -/
theorem takes_backtracking_first (htrials : 0 < maxIter)
    (hfirst : (f.profile x d).Decreases c α₀) :
    f.Takes (.backtracking (.ofReal α₀ ρ c maxIter)) x d
      ⟨real α₀, some (real ((f.profile x d).value α₀)), none⟩ := by
  intro s hs session
  obtain ⟨left, hleft⟩ : ∃ left, maxIter.toNat = left + 1 := ⟨maxIter.toNat - 1, by omega⟩
  set b := Backtracking.ofReal α₀ ρ c maxIter with hb
  have hmet : b.isSufficient (real ((f.profile x d).value 0)) (real ((f.profile x d).slope 0))
      (real α₀) (real ((f.profile x d).value α₀)) = true := Backtracking.isSufficient_iff.mpr hfirst
  obtain ⟨probe, hrun⟩ : ∃ probe, (b.trials f.operator (some x) d (real ((f.profile x d).value 0))
      (real ((f.profile x d).slope 0)) maxIter.toNat (real α₀)).run ⟨{}, session⟩ =
        (.ok ⟨real α₀, some (real ((f.profile x d).value α₀)), none⟩, probe) := by
    rw [hleft]
    unfold Backtracking.trials
    rw [Act.run_bind_of_ok (run_cost Beyond.nil.known session), hmet, if_pos rfl]
    exact ⟨_, rfl⟩
  exact ⟨_, run_backtracking_of_trials hs hrun⟩

end

variable {α₀ c₁ c₂ : ℝ} {maxIter : Int}

/-- A strong Wolfe search along a direction that leads down comes to its trials. -/
theorem run_wolfe_of_trials (hs : f.Placed x s) (hslope : (f.profile x d).slope 0 < 0)
    {session : Session Exact Unit} {probe : Probe Exact (Vec n) Unit}
    (htrials : ((Wolfe.ofReal α₀ c₁ c₂ maxIter).trials f.operator (Wolfe.downFrom f x d)
      maxIter.toNat true (real 0) (real ((f.profile x d).value 0)) (real α₀)).run ⟨{}, session⟩ =
        (.ok step, probe)) :
    ((Wolfe.ofReal α₀ c₁ c₂ maxIter).search f.operator d s).run session =
      (.ok step, probe.session) := by
  have hdown : ¬ (0.0 : Exact) ≤ real ((f.profile x d).slope 0) := by
    rw [zero_eq, real_le]
    exact hslope.not_ge
  rw [Wolfe.downFrom, profile_value_zero] at htrials
  unfold Wolfe.search
  rw [Act.run_bind_of_ok (hs.run_current session)]
  dsimp only
  rw [Act.run_bind_of_ok (Act.run_lift_eq.mpr ⟨innerWith_gradient f x d, rfl⟩), if_neg hdown,
    hs.param, zero_eq]
  exact LineSearch.run_along htrials

/-- Without trials such a search takes its first length, too. -/
theorem takes_wolfe_untried (hslope : (f.profile x d).slope 0 < 0) :
    f.Takes (.wolfe (.ofReal α₀ c₁ c₂ 0)) x d ⟨real α₀, none, none⟩ := by
  intro s hs session
  have htrials : ((Wolfe.ofReal α₀ c₁ c₂ 0).trials f.operator (Wolfe.downFrom f x d)
      (0 : Int).toNat true (real 0) (real ((f.profile x d).value 0)) (real α₀)).run ⟨{}, session⟩ =
        (.ok ⟨real α₀, none, none⟩, ⟨{}, session⟩) := rfl
  exact ⟨session, run_wolfe_of_trials hs hslope htrials⟩

/-- The middle of a bracket from the origin. -/
theorem middle_from_origin (hi low : ℝ) :
    (⟨real 0, real hi, real low⟩ : Wolfe.Bracket Exact).middle = real (hi / 2) := by
  rw [Wolfe.Bracket.middle_real]
  congr 1
  ring

/-- A middle that is rejected becomes the upper end of a bracket from the origin. -/
theorem run_pass_of_rejected {hi : ℝ} {costs : List (Exact × Exact)}
    (hcosts : Beyond (hi / 2) costs) (hrejected : ¬ (f.profile x d).Decreases c₁ (hi / 2))
    (session : Session Exact Unit) :
    ((Wolfe.ofReal α₀ c₁ c₂ maxIter).pass f.operator (Wolfe.downFrom f x d)
      ⟨real 0, real hi, real ((f.profile x d).value 0)⟩).run ⟨⟨costs, []⟩, session⟩ =
        (.ok (.narrowed ⟨real 0, real (hi / 2), real ((f.profile x d).value 0)⟩
          ⟨real (hi / 2), some (real ((f.profile x d).value (hi / 2))), none⟩),
          ⟨⟨(real (hi / 2), real ((f.profile x d).value (hi / 2))) :: costs, []⟩,
            session.charged .cost ()⟩) := by
  have hcost : (Probe.cost f.operator (Wolfe.downFrom f x d).origin
      (Wolfe.downFrom f x d).direction (real (hi / 2))).run ⟨⟨costs, []⟩, session⟩ =
        (.ok (real ((f.profile x d).value (hi / 2))),
          ⟨⟨(real (hi / 2), real ((f.profile x d).value (hi / 2))) :: costs, []⟩,
            session.charged .cost ()⟩) := run_cost hcosts.known session
  exact Wolfe.run_pass_of_high (middle_from_origin hi _) hcost (Wolfe.tooHigh_iff.mpr hrejected) rfl

/-- A zoom from the origin whose middles are all rejected, and whose bracket is not too narrow
before the last of them, takes this one.  The induction is on the passes that are left. -/
theorem run_zoom_of_rejected (left : ℕ) {hi : ℝ} (hhi : 0 < hi) {costs : List (Exact × Exact)}
    (hcosts : Beyond (hi / 2) costs) (hwide : 1e-12 ≤ hi / 2 ^ left)
    (hrejected : ∀ j ≤ left, ¬ (f.profile x d).Decreases c₁ (hi / 2 ^ (j + 1)))
    (tried : StepLength Exact (Vec n)) (session : Session Exact Unit) :
    ∃ probe, ((Wolfe.ofReal α₀ c₁ c₂ maxIter).zoom f.operator (Wolfe.downFrom f x d) (left + 1)
      ⟨real 0, real hi, real ((f.profile x d).value 0)⟩ tried).run ⟨⟨costs, []⟩, session⟩ =
        (.ok ⟨real (hi / 2 ^ (left + 1)),
          some (real ((f.profile x d).value (hi / 2 ^ (left + 1)))), none⟩, probe) := by
  induction left generalizing hi costs tried session with
  | zero =>
    rw [zero_add, pow_one]
    have hfirst : ¬ (f.profile x d).Decreases c₁ (hi / 2) := by
      simpa using hrejected 0 le_rfl
    -- narrow or not, the bracket is settled for
    have hsettle : ∀ (hi low : Exact) (tried : StepLength Exact (Vec n)),
        (Wolfe.settle ⟨real 0, hi, low⟩ tried : Act Exact (Probe Exact (Vec n) Unit) _) =
          pure tried := fun _ _ _ => if_neg (zero_lt_real.not.mpr (lt_irrefl 0))
    rw [Wolfe.run_zoom_succ (run_pass_of_rejected hcosts hfirst session)]
    unfold Wolfe.zoom
    rw [ite_self, hsettle]
    exact ⟨_, rfl⟩
  | succ left ih =>
    have hfirst : ¬ (f.profile x d).Decreases c₁ (hi / 2) := by
      simpa using hrejected 0 (Nat.zero_le _)
    have hhalved : ∀ j, hi / 2 ^ (j + 1) = hi / 2 / 2 ^ j := fun j => by
      rw [pow_succ', div_div]
    have hhalf : 0 < hi / 2 := half_pos hhi
    rw [hhalved] at hwide
    have hnotNarrow : ¬ Scalar.magnitude (real (hi / 2) - real 0) < (1e-12 : Exact) := by
      rw [real_sub, magnitude_real, ofScientific_eq, real_lt, sub_zero, abs_of_pos hhalf, not_lt]
      exact hwide.trans (div_le_self hhalf.le (one_le_pow₀ one_le_two))
    rw [Wolfe.run_zoom_succ (run_pass_of_rejected hcosts hfirst session), if_neg hnotNarrow,
      hhalved]
    refine ih hhalf (hcosts.cons (half_lt_self hhalf)) hwide (fun j hj => ?_) _ _
    rw [← hhalved]
    exact hrejected (j + 1) (Nat.succ_le_succ hj)

/-- Where the first trial is rejected and so are the middles between it and the origin, down to the
last pass of the zoom, the search takes the last middle. -/
theorem takes_wolfe_of_rejected (hslope : (f.profile x d).slope 0 < 0) (hα₀ : 0 < α₀)
    (htrials : 0 < maxIter) (hwide : 1e-12 ≤ α₀ / 2 ^ 31)
    (hrejected : ∀ j ≤ 32, ¬ (f.profile x d).Decreases c₁ (α₀ / 2 ^ j)) :
    f.Takes (.wolfe (.ofReal α₀ c₁ c₂ maxIter)) x d
      ⟨real (α₀ / 2 ^ 32), some (real ((f.profile x d).value (α₀ / 2 ^ 32))), none⟩ := by
  intro s hs session
  set w := Wolfe.ofReal α₀ c₁ c₂ maxIter with hw
  have hfirst : ¬ (f.profile x d).Decreases c₁ α₀ := by
    simpa using hrejected 0 (Nat.zero_le 32)
  have hcost : (Probe.cost f.operator (Wolfe.downFrom f x d).origin
      (Wolfe.downFrom f x d).direction (real α₀)).run ⟨{}, session⟩ =
        (.ok (real ((f.profile x d).value α₀)),
          ⟨⟨[(real α₀, real ((f.profile x d).value α₀))], []⟩, session.charged .cost ()⟩) :=
    run_cost Beyond.nil.known session
  -- the first trial is rejected, and the zoom halves the bracket until it gives up
  obtain ⟨left, hleft⟩ : ∃ left, maxIter.toNat = left + 1 := ⟨maxIter.toNat - 1, by omega⟩
  have hcosts : Beyond (α₀ / 2) [(real α₀, real ((f.profile x d).value α₀))] :=
    Beyond.nil.cons (half_lt_self hα₀)
  obtain ⟨probe, hrun⟩ : ∃ probe, (w.trials f.operator (Wolfe.downFrom f x d) maxIter.toNat true
      (real 0) (real ((f.profile x d).value 0)) (real α₀)).run ⟨{}, session⟩ =
        (.ok ⟨real (α₀ / 2 ^ 32), some (real ((f.profile x d).value (α₀ / 2 ^ 32))), none⟩,
          probe) := by
    rw [hleft, Wolfe.run_trials_of_high hcost (Wolfe.tooHigh_iff.mpr hfirst)]
    exact run_zoom_of_rejected 31 hα₀ hcosts hwide
      (fun j hj => hrejected (j + 1) (Nat.succ_le_succ hj)) _ _
  exact ⟨_, run_wolfe_of_trials hs hslope hrun⟩

end Surface

end Descent
