import Descent.Proofs.Quadratic.Conjugate
import Descent.Proofs.Quadratic.Converges
import Descent.Proofs.Run.Lower
import Descent.Proofs.Solver.Stops

/-!
# Newton's method on strictly convex quadratics

A truncated solution `p` of the Newton system at a point of a strictly convex quadratic is the
minimiser along its own direction: the gradient at `x + p` is orthogonal to `p`, and the objective
falls by half of the slope (`Quadratic.value_truncated`).  So a strong Wolfe search that begins with
the unit step takes it at once if `c1` is at most a half (`Quadratic.run_search`), and what it
evaluated there is not evaluated again.  An iteration is charged one evaluation of each kind
(`Quadratic.UnitStep`), and a run of `n` iterations is charged `n + 1` costs, `n + 1` gradients and
`n` Hessians (`Quadratic.run_newton`).
-/

open scoped RealInnerProductSpace

namespace Descent

open Act Exact

variable {n : ℕ}

/-- A search along a ray begins with nothing met on it, and its ray is not kept. -/
theorem LineSearch.run_along {σ α : Type} {a : Act Exact (Probe Exact (Vec n) σ) α}
    {r : Except (Fault Exact) α} {ray : Ray Exact (Vec n)} {session session' : Session Exact σ}
    (h : a.run ⟨{}, session⟩ = (r, ⟨ray, session'⟩)) :
    (LineSearch.along a).run session = (r, session') := by
  show (((a.run ⟨{}, session⟩).1, (a.run ⟨{}, session⟩).2.session) : _ × _) = _
  rw [h]

/-- The search tries the unit step first, its constants are in their ranges, and it asks for no more
decrease than there is at the minimiser along the line. -/
structure Wolfe.UnitFirst (w : Wolfe Exact) : Prop where
  start : w.alpha0 = 1.0
  positive : (0.0 : Exact) < w.c1
  half : w.c1 ≤ 0.5
  order : w.c1 < w.c2
  below : w.c2 < 1.0
  trial : 1 ≤ w.maxIter

/-- The constants of such a search are real numbers. -/
theorem Wolfe.UnitFirst.exists_constants {w : Wolfe Exact} (h : w.UnitFirst) :
    ∃ c₁ c₂ : ℝ, w.c1 = real c₁ ∧ w.c2 = real c₂ ∧ 0 < c₁ ∧ c₁ ≤ 0.5 ∧ c₁ < c₂ := by
  obtain ⟨c₁, hc₁⟩ := exists_real_of_between (zero_eq ▸ h.positive) h.half
  obtain ⟨c₂, hc₂⟩ := exists_real_of_between (hc₁ ▸ h.order)
    (OrderedScalar.le_of_lt (one_eq ▸ h.below))
  refine ⟨c₁, c₂, hc₁, hc₂, ?_, ?_, ?_⟩
  · exact zero_lt_real.mp (hc₁ ▸ h.positive)
  · exact real_le.mp (hc₁ ▸ h.half)
  · exact real_lt.mp (hc₁ ▸ hc₂ ▸ h.order)

/-- No limit is set on the passes of the inner solve, or one that allows for a pass. -/
def NewtonCG.Limit.Allows (limit : NewtonCG.Limit Exact) : Prop :=
  ∃ passes, limit.passes = .ok passes ∧ ∀ k, passes = some k → 1 ≤ k

/-- The stage of a method once an evaluation of each kind is charged. -/
def Stage.charged {R V M μ : Type} [Scalar R] (t : Stage R V M Unit μ) : Stage R V M Unit μ :=
  ⟨t.memory, t.state, ((t.session.charged .hessian ()).charged .cost ()).charged .gradient ()⟩

namespace Quadratic

variable {q : Quadratic n} {x p : Vec n} {w : Wolfe Exact} {s : State Exact (Vec n) (Mat n)}

/-- What a state of a run says of the objective and its slope at the point where it stands. -/
structure Placed (q : Quadratic n) (x : Vec n) (s : State Exact (Vec n) (Mat n)) : Prop where
  param : s.param = some x
  cost : s.cost = .real (real (q.value x))
  grad : s.grad = some (q.gradient x)

/-! ### The search -/

theorem gradient_add (q : Quadratic n) (x p : Vec n) :
    q.gradient (x + p) = q.gradient x + image q.hessian p := by
  unfold Quadric.gradient
  rw [map_add]
  abel

/-- A truncated solution lowers the objective by half of the slope. -/
theorem value_truncated (h : ConjugateGradient.Truncated q.hessian (q.gradient x) p) :
    q.value (x + p) = q.value x + ⟪q.gradient x, p⟫ / 2 := by
  have hcurved := h.slope_eq
  rw [q.value_add]
  unfold reduction form
  linarith

theorem value_truncated_lt (h : ConjugateGradient.Truncated q.hessian (q.gradient x) p) :
    q.value (x + p) < q.value x := by
  rw [value_truncated h]
  linarith [h.slope_neg q.posDef]

/-- The slope at the end of a truncated solution is zero. -/
theorem slope_truncated (h : ConjugateGradient.Truncated q.hessian (q.gradient x) p) :
    ⟪q.gradient (x + p), p⟫ = 0 := by
  rw [q.gradient_add]
  exact h.orthogonal

/-- A cost that was not met before is evaluated. -/
theorem run_cost {o : Option (Vec n)} {y : Vec n} {alpha : Exact} {ray : Ray Exact (Vec n)}
    (hpoint : Probe.point o p alpha = .ok y) (hnew : Ray.known alpha ray.costs = none)
    (session : Session Exact Unit) :
    (Probe.cost q.operator o p alpha).run ⟨ray, session⟩ =
      (.ok (real (q.value y)), ⟨{ ray with costs := (alpha, real (q.value y)) :: ray.costs },
        session.charged .cost ()⟩) := by
  unfold Probe.cost
  rw [run_bind_of_ok (run_get _)]
  dsimp only
  rw [hnew, run_bind_of_ok (run_lift_eq.mpr ⟨hpoint, rfl⟩)]
  rfl

theorem run_grad {o : Option (Vec n)} {y : Vec n} {alpha : Exact} {ray : Ray Exact (Vec n)}
    (hpoint : Probe.point o p alpha = .ok y) (hnew : Ray.known alpha ray.grads = none)
    (session : Session Exact Unit) :
    (Probe.gradient q.operator o p alpha).run ⟨ray, session⟩ =
      (.ok (some (q.gradient y)), ⟨{ ray with grads := (alpha, some (q.gradient y)) :: ray.grads },
        session.charged .gradient ()⟩) := by
  unfold Probe.gradient
  rw [run_bind_of_ok (run_get _)]
  dsimp only
  rw [hnew, run_bind_of_ok (run_lift_eq.mpr ⟨hpoint, rfl⟩)]
  rfl

/-- At the end of a truncated solution the objective has fallen by half of the slope, which is as
much as the search asks for. -/
theorem not_tooHigh_unit (hw : w.UnitFirst)
    (h : ConjugateGradient.Truncated q.hessian (q.gradient x) p) {line : Wolfe.Line Exact (Vec n)}
    (hcost : line.cost = real (q.value x)) (hline : line.slope = real ⟪q.gradient x, p⟫) :
    w.tooHigh line (real 1) (real (q.value (x + p))) = false := by
  obtain ⟨c₁, c₂, hc₁, -, -, hhalf, -⟩ := hw.exists_constants
  have hslope : ⟪q.gradient x, p⟫ < 0 := h.slope_neg q.posDef
  have hbound : line.cost + w.c1 * real 1 * line.slope =
      real (q.value x + c₁ * 1 * ⟪q.gradient x, p⟫) := by
    rw [hcost, hline, hc₁, real_mul, real_mul, real_add]
  unfold Wolfe.tooHigh
  rw [hbound]
  refine decide_eq_false fun hrise => ?_
  have hrise' : q.value x + c₁ * 1 * ⟪q.gradient x, p⟫ < q.value (x + p) := real_lt.mp hrise
  rw [value_truncated h] at hrise'
  nlinarith

/-- The slope at the end of a truncated solution is zero, so it is flat enough. -/
theorem flatEnough_unit (hw : w.UnitFirst)
    (h : ConjugateGradient.Truncated q.hessian (q.gradient x) p) {line : Wolfe.Line Exact (Vec n)}
    (hline : line.slope = real ⟪q.gradient x, p⟫) : w.flatEnough line (real 0) = true := by
  obtain ⟨c₁, c₂, -, hc₂, hpositive, -, horder⟩ := hw.exists_constants
  have hslope : ⟪q.gradient x, p⟫ < 0 := h.slope_neg q.posDef
  have hbound : -w.c2 * line.slope = real (-c₂ * ⟪q.gradient x, p⟫) := by
    rw [hline, hc₂, neg_real, real_mul]
  unfold Wolfe.flatEnough
  rw [hbound, magnitude_real, abs_zero]
  refine decide_eq_true (real_le.mpr ?_)
  nlinarith

/-- The first trial of the search along a truncated solution satisfies both of its conditions. -/
theorem run_trials (hw : w.UnitFirst) (hs : q.Placed x s)
    (h : ConjugateGradient.Truncated q.hessian (q.gradient x) p) (previous before : Exact)
    (session : Session Exact Unit) :
    ∃ ray, (w.trials q.operator ⟨s.param, p, real (q.value x), some (q.gradient x),
        real ⟪q.gradient x, p⟫⟩ w.maxIter.toNat true previous before w.alpha0).run ⟨{}, session⟩ =
      (.ok ⟨real 1, some (real (q.value (x + p))), some (q.gradient (x + p))⟩,
        ⟨ray, (session.charged .cost ()).charged .gradient ()⟩) := by
  set line : Wolfe.Line Exact (Vec n) :=
    ⟨s.param, p, real (q.value x), some (q.gradient x), real ⟪q.gradient x, p⟫⟩
  have hpoint : Probe.point line.origin line.direction (real 1) = .ok (x + p) := by
    unfold Probe.point
    rw [show line.origin = some x from hs.param, scale_real, one_smul]
    rfl
  -- a truncated direction ends where the slope along it is zero
  have hend : Space.innerWith line.grad (some (q.gradient (x + p))) line.direction =
      .ok (real 0) := by
    rw [← slope_truncated h]
    rfl
  have hgoes : ¬ (w.tooHigh line (real 1) (real (q.value (x + p))) ||
      !true && decide (before ≤ real (q.value (x + p)))) = true := by
    rw [not_tooHigh_unit hw h rfl rfl]
    exact Bool.false_ne_true
  obtain ⟨left, hleft⟩ : ∃ left, w.maxIter.toNat = left + 1 := by
    have htrial := hw.trial
    exact ⟨w.maxIter.toNat - 1, by omega⟩
  -- the first trial is accepted, whatever the limit on further ones
  rw [hw.start, one_eq, hleft]
  unfold Wolfe.trials
  rw [run_bind_of_ok (run_cost hpoint rfl session), if_neg hgoes,
    run_bind_of_ok (run_grad hpoint rfl _)]
  unfold Wolfe.slopeOf
  rw [run_bind_of_ok (run_lift_eq.mpr ⟨hend, rfl⟩), flatEnough_unit hw h rfl]
  exact ⟨_, rfl⟩

/-- The search along a truncated solution takes the unit step, its first trial, for one cost and one
gradient. -/
theorem run_search (hw : w.UnitFirst) (hs : q.Placed x s)
    (h : ConjugateGradient.Truncated q.hessian (q.gradient x) p) (session : Session Exact Unit) :
    (w.search q.operator p s).run session =
      (.ok ⟨real 1, some (real (q.value (x + p))), some (q.gradient (x + p))⟩,
        (session.charged .cost ()).charged .gradient ()) := by
  -- the state holds the cost and the slope, so nothing is asked for the start
  have hcurrent : (LineSearch.current q.operator s).run session =
      (.ok (real (q.value x), some (q.gradient x)), session) := by
    unfold LineSearch.current
    rw [hs.cost, hs.grad]
    rfl
  have hslope : ¬ (0.0 : Exact) ≤ real ⟪q.gradient x, p⟫ := by
    rw [zero_eq, real_le]
    exact (h.slope_neg q.posDef).not_ge
  obtain ⟨ray, htrials⟩ := run_trials hw hs h 0.0 (real (q.value x)) session
  have hdot : Space.innerWith (some (q.gradient x)) (some (q.gradient x)) p =
      .ok (real ⟪q.gradient x, p⟫) := rfl
  unfold Wolfe.search
  rw [run_bind_of_ok hcurrent]
  dsimp only
  rw [run_bind_of_ok (run_lift_eq.mpr ⟨hdot, rfl⟩), if_neg hslope]
  exact LineSearch.run_along htrials

/-! ### The steps of the method -/

variable {settings : NewtonCG.Settings Exact}

/-- The delta of a unit step to a point. -/
noncomputable def landing (q : Quadratic n) (y : Vec n) : Delta Exact (Vec n) (Mat n) where
  param := some y
  cost := some (.real (real (q.value y)))
  grad := some (q.gradient y)
  kv := [("alpha", .real (real 1))]

theorem run_next_newton (hw : w.UnitFirst) (hs : q.Placed x s)
    (hdirection : NewtonCG.direction settings s.grad (some q.hessian) = .ok p)
    (h : ConjugateGradient.Truncated q.hessian (q.gradient x) p) (session : Session Exact Unit) :
    (NewtonCG.next q.operator (w.lineSearch q.operator) settings s).run session =
      (.ok (q.landing (x + p)),
        ((session.charged .hessian ()).charged .cost ()).charged .gradient ()) := by
  have hhessian : (Session.hessian q.operator s.param).run session =
      (.ok (some q.hessian), session.charged .hessian ()) := by
    rw [hs.param]
    rfl
  have hy : (do Space.add (← Space.require s.param) (Space.scale p (real 1))) =
      .ok (x + p) := by
    rw [hs.param, scale_real, one_smul]
    rfl
  have hsearch := run_search hw hs h (session.charged .hessian ())
  -- what the search evaluated at the end of its step is not evaluated again
  have hcomplete : ∀ session : Session Exact Unit, (Descending.complete q.operator (x + p)
      ⟨real 1, some (real (q.value (x + p))), some (q.gradient (x + p))⟩).run session =
        (.ok (real (q.value (x + p)), some (q.gradient (x + p))), session) := fun _ => rfl
  have hfinite : checkFinite (real (q.value (x + p))) "Cost" = .ok () := if_pos isFinite_real
  unfold NewtonCG.next
  rw [run_bind_of_ok hhessian, run_bind_of_ok (run_lift_eq.mpr ⟨hdirection, rfl⟩)]
  unfold Descending.advance
  rw [run_bind_of_ok (show ((w.lineSearch q.operator).search p s).run _ = _ from hsearch)]
  dsimp only
  rw [run_bind_of_ok (run_lift_eq.mpr ⟨hy, rfl⟩)]
  rw [run_bind_of_ok (hcomplete _)]
  dsimp only
  rw [run_bind_of_ok (run_lift_eq.mpr ⟨hfinite, rfl⟩)]
  rfl

theorem stationary_newton (tol : Exact) (g : Vec n) : isStationary tol (some g) =
    .ok (decide (real ‖g‖ ≤ Scalar.greatest tol absoluteTolerance)) := rfl

/-- Whether to stop is decided where costs and gradient are known, and the answer is to go on only
if the gradient does not count as zero. -/
theorem terminate_newton (settings : NewtonCG.Settings Exact) {c c' : ℝ} {g : Vec n}
    (hcost : s.cost = .real (real c')) (hprev : s.prevCost = .real (real c))
    (hgrad : s.grad = some g) :
    ∃ r, NewtonCG.terminate settings s = .ok r ∧
      (r = .notTerminated → ¬ Negligible settings.tolGrad g) := by
  unfold NewtonCG.terminate
  rw [hgrad, stationary_newton, hcost, hprev]
  by_cases hshort : real ‖g‖ ≤ Scalar.greatest settings.tolGrad absoluteTolerance
  · rw [decide_eq_true hshort]
    exact ⟨.converged, rfl, nofun⟩
  · rw [decide_eq_false hshort]
    exact ⟨_, rfl, fun _ => hshort⟩

/-- The delta of the start at a point. -/
noncomputable def outset (q : Quadratic n) (settings : NewtonCG.Settings Exact) (x : Vec n) :
    Delta Exact (Vec n) (Mat n) where
  cost := some (.real (real (q.value x)))
  grad := some (q.gradient x)
  termination :=
    if real ‖q.gradient x‖ ≤ Scalar.greatest settings.tolGrad absoluteTolerance then
      some .converged
    else none

theorem run_init_newton (q : Quadratic n) (settings : NewtonCG.Settings Exact)
    (hparam : s.param = some x) (session : Session Exact Unit) :
    (NewtonCG.init q.operator settings.tolGrad s).run session =
      (.ok (some (q.outset settings x)), (session.charged .cost ()).charged .gradient ()) := by
  have hfinite : checkFinite (real (q.value x)) "Initial cost" = .ok () := if_pos isFinite_real
  have hcost : (Session.costValue q.operator (some x)).run session =
      (.ok (real (q.value x)), session.charged .cost ()) := rfl
  have hopening : Descending.opening settings.tolGrad (real (q.value x)) (some (q.gradient x)) =
      (.ok (q.outset settings x) : Except (Fault Exact) (Delta Exact (Vec n) (Mat n))) := by
    unfold Descending.opening outset
    rw [stationary_newton]
    -- only the verdict depends on the slope
    by_cases hshort : real ‖q.gradient x‖ ≤ Scalar.greatest settings.tolGrad absoluteTolerance
    · rw [decide_eq_true hshort, if_pos hshort]
      rfl
    · rw [decide_eq_false hshort, if_neg hshort]
      rfl
  have hgrad : ∀ session : Session Exact Unit,
      (Session.gradient q.operator (some x)).run session =
        (.ok (some (q.gradient x)), session.charged .gradient ()) := fun _ => rfl
  unfold NewtonCG.init
  rw [hparam, run_bind_of_ok hcost, run_bind_of_ok (hgrad _),
    run_bind_of_ok (run_lift_eq.mpr ⟨hfinite, rfl⟩),
    run_bind_of_ok (run_lift_eq.mpr ⟨(rfl : checkFiniteOption (some (q.gradient x)) _ = .ok ()),
      rfl⟩), run_bind_of_ok (run_lift_eq.mpr ⟨hopening, rfl⟩)]
  rfl

/-! ### One iteration -/

variable {e e' u : Executor Exact (Vec n) (Mat n) Unit (Memory Exact (Vec n) (Mat n))}

/-- Newton's method with a strong Wolfe search on a quadratic. -/
noncomputable def newtonian (q : Quadratic n) (w : Wolfe Exact)
    (settings : NewtonCG.Settings Exact) :
    Solver Exact (Vec n) (Mat n) Unit (Memory Exact (Vec n) (Mat n)) :=
  (NewtonCG.algorithm q.operator (w.lineSearch q.operator) settings).toSolver

theorem abstains_newtonian (q : Quadratic n) (w : Wolfe Exact)
    (settings : NewtonCG.Settings Exact) : (q.newtonian w settings).Abstains :=
  Algorithm.abstains_toSolver _

/-- The method answers with a unit step along a truncated solution. -/
theorem next_newtonian (hw : w.UnitFirst)
    {t : Stage Exact (Vec n) (Mat n) Unit (Memory Exact (Vec n) (Mat n))}
    (ht : q.Placed x t.state)
    (hdirection : NewtonCG.direction settings t.state.grad (some q.hessian) = .ok p)
    (h : ConjugateGradient.Truncated q.hessian (q.gradient x) p) :
    (q.newtonian w settings).next.run t = (.ok (some (q.landing (x + p))), t.charged) := by
  have hstep := run_next_newton hw ht hdirection h t.session
  have hbench : (Bench.inSession (NewtonCG.next q.operator (w.lineSearch q.operator) settings
      t.state)).run ⟨t.memory, t.session⟩ =
        (.ok (q.landing (x + p)), ⟨t.memory, t.charged.session⟩) :=
    run_zoom_eq.mpr ⟨_, hstep, rfl⟩
  exact Algorithm.run_onStage (fun s => some <$> Bench.inSession
    (NewtonCG.next q.operator (w.lineSearch q.operator) settings s)) (run_bind_of_ok hbench)

/-- A run goes on from a point: the gradient does not count as zero there, and the point is the best
one. -/
structure Going (q : Quadratic n) (settings : NewtonCG.Settings Exact) (x : Vec n)
    (e : Executor Exact (Vec n) (Mat n) Unit (Memory Exact (Vec n) (Mat n))) : Prop where
  placed : q.Placed x e.stage.state
  bestCost : e.stage.state.bestCost = .real (real (q.value x))
  moving : ¬ Negligible settings.tolGrad (q.gradient x)

/-- An iteration that takes a unit step: along the direction `p` of the inner solve the search takes
its first trial, of length one, the objective falls, and one evaluation of each kind is charged. -/
structure UnitStep (q : Quadratic n) (w : Wolfe Exact) (settings : NewtonCG.Settings Exact)
    (x p : Vec n) (e e' : Executor Exact (Vec n) (Mat n) Unit (Memory Exact (Vec n) (Mat n))) :
    Prop where
  before : q.Placed x e.stage.state
  direction : NewtonCG.direction settings e.stage.state.grad (some q.hessian) = .ok p
  trial : ∀ session, (w.search q.operator p e.stage.state).run session =
    (.ok ⟨real 1, some (real (q.value (x + p))), some (q.gradient (x + p))⟩,
      (session.charged .cost ()).charged .gradient ())
  after : q.Placed (x + p) e'.stage.state
  falls : q.value (x + p) < q.value x
  alpha : e'.stage.state.kv = [("alpha", .real (real 1))]
  counts : e'.stage.session.counts = ⟨e.stage.session.counts.cost + 1,
    e.stage.session.counts.gradient + 1, e.stage.session.counts.hessian + 1⟩

theorem Going.of_untold (h : q.Going settings x e) (huntold : u.untold = e.untold) :
    q.Going settings x u := by
  have hstate : u.stage.state = e.stage.state := congrArg (fun e => e.stage.state) huntold
  exact ⟨hstate ▸ h.placed, hstate ▸ h.bestCost, h.moving⟩

theorem UnitStep.of_untold (h : q.UnitStep w settings x p e e') (huntold : u.untold = e'.untold) :
    q.UnitStep w settings x p e u := by
  have hstate : u.stage.state = e'.stage.state := congrArg (fun e => e.stage.state) huntold
  have hcounts : u.stage.session.counts = e'.stage.session.counts :=
    congrArg (fun e => e.stage.session.counts) huntold
  refine ⟨h.before, h.direction, h.trial, ?_, h.falls, ?_, hcounts.trans h.counts⟩
  · exact hstate ▸ h.after
  · exact hstate ▸ h.alpha

/-- An iteration that is due is made and takes a unit step, and the run goes on from where it led
unless a reason was recorded.  It is completed below an integer ceiling, beside observers that do
not interrupt. -/
theorem Going.iterate (hw : w.UnitFirst) (hlimit : settings.cgMaxIter.Allows)
    (htol : Scalar.isNaN settings.tolGrad = false) (h : q.Going settings x e)
    (hgoing : e.stage.state.reason = .notTerminated) {k : ℕ}
    (hcounter : e.stage.state.curIter = .int k)
    (htarget : ∀ c : ℝ, ∃ met, (Value.real (real c)).le e.stage.state.targetCost = .ok met) :
    ∃ p v, (Executor.iterate (q.newtonian w settings)).run e = (.ok true, v) ∧
      q.UnitStep w settings x p e v ∧
      (v.stage.state.reason = .notTerminated → q.Going settings (x + p) v) ∧
      ((∀ entry ∈ e.observers, Executor.Quiet entry) →
        ∀ ceiling, e.stage.state.maxIters = .int ceiling → k < ceiling →
          ∃ u, (Executor.step (q.newtonian w settings)).run e = (.ok (), u)) := by
  have hnorm : 0 < ‖q.gradient x‖ :=
    lt_trans (by norm_num) (lt_norm_of_not_le_greatest htol h.moving)
  obtain ⟨passes, hpasses, hallows⟩ := hlimit
  -- the gradient is not zero, so the inner solve makes a pass and answers with a truncated solution
  obtain ⟨p, hp, htruncated⟩ :=
    ConjugateGradient.direction_truncated q.posDef (norm_pos_iff.mp hnorm) hallows
  have hdirection : NewtonCG.direction settings e.stage.state.grad (some q.hessian) = .ok p := by
    unfold NewtonCG.direction
    rw [h.placed.grad, hpasses]
    exact hp
  have hfalls := value_truncated_lt htruncated
  have hnext := next_newtonian hw (t := e.stage) h.placed hdirection htruncated
  set t := e.stage.charged with ht
  -- the step is merged as a new best, and the method is asked whether to stop
  set s := e.stage.state.lowered (q.landing (x + p)) (real (q.value (x + p))) k with hs
  have hgrad : s.grad = some (q.gradient (x + p)) := rfl
  obtain ⟨r, hanswer, hr⟩ := terminate_newton settings (s := s) rfl h.placed.cost hgrad
  have hterminate : (q.newtonian w settings).terminate.run (t.withState s) =
      (.ok r, t.withState s) :=
    Algorithm.run_onStage (fun s => lift (NewtonCG.terminate settings s))
      (run_lift_eq.mpr ⟨hanswer, rfl⟩)
  have hlower : real (q.value (x + p)) < real (q.value x) := real_lt.mpr hfalls
  obtain ⟨met, hmet⟩ := htarget (q.value (x + p))
  obtain ⟨reason, hiterate, hreason, -⟩ := Executor.iterate_of_lower hgoing hcounter h.bestCost
    hnext rfl rfl hlower rfl hterminate hmet
  have hafter : q.Placed (x + p) { s with reason := reason } := ⟨rfl, rfl, rfl⟩
  refine ⟨p, _, hiterate, ?_, fun hstill => ?_, fun hquiet ceiling hceiling hbelow => ?_⟩
  · exact ⟨h.placed, hdirection, run_search hw h.placed htruncated, hafter, hfalls, rfl, rfl⟩
  · exact ⟨hafter, rfl, hr (hreason hstill)⟩
  · exact Executor.step_of_lower hiterate hcounter (Int.natCast_nonneg k) h.bestCost hlower rfl
      hceiling hbelow hquiet

/-! ### A whole run -/

section

variable {x₀ : Vec n} {memory : Memory Exact (Vec n) (Mat n)} {session : Session Exact Unit}
  {config : Config Exact (Vec n)} {observers : List (ObserverEntry Exact (Vec n) (Mat n))} {k : ℕ}

/-- The preparation leads to the start, for one cost and one gradient. -/
theorem reached_newton (q : Quadratic n) (w : Wolfe Exact) (settings : NewtonCG.Settings Exact)
    (memory : Memory Exact (Vec n) (Mat n)) (session : Session Exact Unit)
    (observers : List (ObserverEntry Exact (Vec n) (Mat n))) (hparam : config.param = some x₀) :
    ∃ u, Executor.Reached (q.newtonian w settings) (.ready memory session config observers) 0 u ∧
      q.Placed x₀ u.stage.state ∧
      (u.stage.state.reason = .notTerminated → q.Going settings x₀ u) ∧
      (¬ Negligible settings.tolGrad (q.gradient x₀) →
        u.stage.state.reason = .notTerminated) ∧
      u.stage.session.counts =
        ⟨session.counts.cost + 1, session.counts.gradient + 1, session.counts.hessian⟩ := by
  set e := Executor.begun (q.newtonian w settings) (.ready memory session config observers) with he
  have hstart : e.stage.state.param = some x₀ := hparam
  have hinit : (q.newtonian w settings).init.run e.stage = (.ok (some (q.outset settings x₀)),
      ⟨memory, e.stage.state, (e.stage.session.charged .cost ()).charged .gradient ()⟩) := by
    have hrun := run_init_newton q settings hstart e.stage.session
    exact Algorithm.run_onStage
      (fun s => Bench.inSession (NewtonCG.init q.operator settings.tolGrad s))
      (run_zoom_eq.mpr ⟨_, hrun, rfl⟩)
  -- every cost of a quadratic is below the infinity that the state begins with
  have hfirst : real (q.value x₀) < (Scalar.inf : Exact) := known_lt.mpr (EReal.coe_lt_top _)
  have hprepare := Executor.prepare_of_lower rfl rfl hinit rfl rfl hfirst
  refine ⟨_, Executor.reached_zero.mpr hprepare, ⟨hstart, rfl, rfl⟩, fun hgoing => ?_,
    fun hmoving => ?_, rfl⟩
  · refine ⟨⟨hstart, rfl, rfl⟩, rfl, fun hshort => ?_⟩
    have hend : (q.outset settings x₀).termination = some .converged := if_pos hshort
    have hreason : (q.outset settings x₀).termination.getD .notTerminated = .notTerminated :=
      hgoing
    rw [hend] at hreason
    cases hreason
  · have hgoes : (q.outset settings x₀).termination = none := if_neg hmoving
    exact congrArg (Option.getD · .notTerminated) hgoes

/-- Wherever a run has been, it was charged for a cost and a gradient at its start and for one
evaluation of each kind in each of its iterations, and if no reason was recorded it goes on from a
point. -/
theorem going_newton_of_reached (hw : w.UnitFirst) (hlimit : settings.cgMaxIter.Allows)
    (htol : Scalar.isNaN settings.tolGrad = false) (hparam : config.param = some x₀)
    (hvalid : config.validate = .ok ())
    (h : Executor.Reached (q.newtonian w settings) (.ready memory session config observers) k u) :
    (u.stage.state.reason = .notTerminated → ∃ x, q.Going settings x u) ∧
      u.stage.session.counts = ⟨session.counts.cost + (k + 1),
        session.counts.gradient + (k + 1), session.counts.hessian + k⟩ := by
  induction k generalizing u with
  | zero =>
    obtain ⟨u', hreached, -, hgoes, -, hcounts⟩ :=
      reached_newton q w settings memory session observers hparam
    obtain rfl := h.unique hreached
    exact ⟨fun hgoing => ⟨x₀, hgoes hgoing⟩, hcounts⟩
  | succ k ih =>
    -- the last iteration was due, so the run was going on from a point before it
    obtain ⟨v, hv, hdue, hstep⟩ := h.before
    have hstill := Executor.reason_of_due hdue
    obtain ⟨hgoes, hcounts⟩ := ih hv
    obtain ⟨x, hx⟩ := hgoes hstill
    obtain ⟨p, v', hiterate, hunit, hgoes', -⟩ := hx.iterate hw hlimit htol hstill
      (Executor.standsAt_of_reached (q.abstains_newtonian w settings) hv).counter
      fun c => Executor.decides_target (q.abstains_newtonian w settings) hvalid hv (real c)
    have huntold : u.untold = v'.untold := Executor.untold_of_step hiterate hstep
    have hstate : u.stage.state = v'.stage.state := congrArg (fun e => e.stage.state) huntold
    refine ⟨fun hgoing => ⟨x + p, (hgoes' (hstate ▸ hgoing)).of_untold huntold⟩, ?_⟩
    rw [(hunit.of_untold huntold).counts, hcounts]
    simp only [Nat.add_assoc]

end

/-- **Newton's method takes unit steps on strictly convex quadratics, and pays for each evaluation
once.**  In exact arithmetic, however many passes the inner solve is allowed, every iteration of
every run on a strictly convex quadratic takes the first trial of its search, the unit step, and
lowers the objective.  So a run that made `n` iterations has charged `n + 1` costs, `n + 1`
gradients and `n` Hessians.  With an integer ceiling and observers that do not interrupt a run has
an outcome. -/
theorem run_newton (q : Quadratic n) (x₀ : Vec n) {w : Wolfe Exact} (hw : w.UnitFirst)
    {settings : NewtonCG.Settings Exact} (hlimit : settings.cgMaxIter.Allows)
    (htol : Scalar.isNaN settings.tolGrad = false)
    {solver : Solver Exact (Vec n) (Mat n) Unit (Memory Exact (Vec n) (Mat n))}
    (hsolver : (Method.newtonCG (.wolfe w) settings).solver q.operator = some solver)
    (memory : Memory Exact (Vec n) (Mat n)) (session : Session Exact Unit)
    (config : Config Exact (Vec n)) (hparam : config.param = some x₀)
    (hvalid : config.validate = .ok ())
    (observers : List (ObserverEntry Exact (Vec n) (Mat n))) :
    (∃ u, Executor.Reached solver (.ready memory session config observers) 0 u ∧
      q.Placed x₀ u.stage.state ∧
      (¬ Negligible settings.tolGrad (q.gradient x₀) →
        u.stage.state.reason = .notTerminated)) ∧
    (∀ k u, Executor.Reached solver (.ready memory session config observers) k u →
      Executor.continues u.stage.state = .ok true →
      ∃ x p v, (Executor.iterate solver).run u = (.ok true, v) ∧
        q.UnitStep w settings x p u v ∧
        ∀ v', (Executor.step solver).run u = (.ok (), v') → q.UnitStep w settings x p u v') ∧
    (∀ outcome e', (Executor.run solver).run (.ready memory session config observers) =
        (.ok outcome, e') →
      ∃ n : ℕ, outcome.state.curIter = .int n ∧ outcome.counts =
        ⟨session.counts.cost + (n + 1), session.counts.gradient + (n + 1),
          session.counts.hessian + n⟩) ∧
    ((∀ entry ∈ observers, Executor.Quiet entry) →
      ∀ ceiling, config.maxIters = .int ceiling →
        ∃ outcome e', (Executor.run solver).run (.ready memory session config observers) =
          (.ok outcome, e')) := by
  obtain rfl : q.newtonian w settings = solver := Option.some.inj hsolver
  have habstains := q.abstains_newtonian w settings
  obtain ⟨u₀, hreached, hplaced, -, hbegins, -⟩ :=
    reached_newton q w settings memory session observers hparam
  -- what an iteration that is due does
  have hdo : ∀ k u, Executor.Reached (q.newtonian w settings)
      (.ready memory session config observers) k u → Executor.continues u.stage.state = .ok true →
      ∃ x p v, (Executor.iterate (q.newtonian w settings)).run u = (.ok true, v) ∧
        q.UnitStep w settings x p u v ∧
        ((∀ entry ∈ observers, Executor.Quiet entry) →
          ∀ ceiling, config.maxIters = .int ceiling →
            ∃ v', (Executor.step (q.newtonian w settings)).run u = (.ok (), v')) := by
    intro k u hu hdue
    have hgoing := Executor.reason_of_due hdue
    have hstands := Executor.standsAt_of_reached habstains hu
    obtain ⟨x, hx⟩ := (going_newton_of_reached hw hlimit htol hparam hvalid hu).1 hgoing
    obtain ⟨p, v, hiterate, hunit, -, hstep⟩ := hx.iterate hw hlimit htol hgoing hstands.counter
      fun c => Executor.decides_target habstains hvalid hu (real c)
    refine ⟨x, p, v, hiterate, hunit, fun hquiet ceiling hceiling => ?_⟩
    have hmax : u.stage.state.maxIters = .int ceiling :=
      (Executor.maxIters_of_reached habstains hu).trans hceiling
    have hbelow : (k : Int) < ceiling :=
      Executor.lt_of_due hstands.counter (congrArg Value.number? hmax) hdue
    exact hstep (hstands.observed ▸ hquiet) ceiling hmax hbelow
  refine ⟨⟨u₀, hreached, hplaced, hbegins⟩, fun k u hu hdue => ?_, fun outcome e' hrun => ?_,
    fun hquiet ceiling hceiling => ?_⟩
  · obtain ⟨x, p, v, hiterate, hunit, -⟩ := hdo k u hu hdue
    exact ⟨x, p, v, hiterate, hunit, fun v' hstep =>
      hunit.of_untold (Executor.untold_of_step hiterate hstep)⟩
  · obtain ⟨k, u, hu, rfl⟩ := Executor.outcome_of_run hrun
    refine ⟨k, ?_, (going_newton_of_reached hw hlimit htol hparam hvalid hu).2⟩
    exact (Executor.curIter_terminateWith _ _).trans
      (Executor.standsAt_of_reached habstains hu).counter
  · have hnumber := congrArg Value.number? hceiling
    refine Executor.run_of_steps habstains hvalid hnumber hreached fun k u hu hdue => ?_
    obtain ⟨x, p, v, -, -, hstep⟩ := hdo k u hu hdue
    exact hstep hquiet ceiling hceiling

/-- The default search tries the unit step first. -/
theorem unitFirst_default : (Wolfe.default : Wolfe Exact).UnitFirst := by
  refine ⟨rfl, ?_, ?_, ?_, ?_, by decide⟩
  · show real 0.0 < real 1e-4
    rw [real_lt]
    norm_num
  · show real 1e-4 ≤ real 0.5
    rw [real_le]
    norm_num
  · show real 1e-4 < real 0.9
    rw [real_lt]
    norm_num
  · show real 0.9 < real 1.0
    rw [real_lt]
    norm_num

/-- The default constants of Newton's method. -/
noncomputable def usualNewton : NewtonCG.Settings Exact :=
  ⟨relativeTolerance, NewtonCG.defaultTolCost, .value .null⟩

/-- Newton's method with its default constants on the bowl over the line, from one: the first
iteration is due, and it takes a unit step. -/
theorem run_newton_unitBowl :
    ∃ solver, (Method.newtonCG (.wolfe Wolfe.default) usualNewton).solver unitBowl.operator =
        some solver ∧
      (∃ outcome e', (Executor.run solver).run (.ready .plain { world := (), elapsed := 0.0 }
          (configured (EuclideanSpace.single 0 1) 3) []) = (.ok outcome, e') ∧
        ∃ n : ℕ, outcome.state.curIter = .int n ∧ outcome.counts = ⟨n + 1, n + 1, n⟩) ∧
      ∃ u v, Executor.Reached solver (.ready .plain { world := (), elapsed := 0.0 }
          (configured (EuclideanSpace.single 0 1) 3) []) 0 u ∧
        (Executor.iterate solver).run u = (.ok true, v) ∧
        ∃ x p, unitBowl.UnitStep Wolfe.default usualNewton x p u v := by
  have hquiet : ∀ entry ∈ ([] : List (ObserverEntry Exact (Vec 1) (Mat 1))), Executor.Quiet entry :=
    fun _ h => absurd h List.not_mem_nil
  have hlimit : usualNewton.cgMaxIter.Allows := ⟨none, rfl, nofun⟩
  obtain ⟨⟨u, hreached, -, hbegins⟩, hiterations, houtcomes, hcompletes⟩ :=
    run_newton unitBowl (EuclideanSpace.single 0 1) unitFirst_default hlimit rfl rfl .plain
      { world := (), elapsed := 0.0 } (configured (EuclideanSpace.single 0 1) 3) rfl
      (validate_configured _ 3) []
  refine ⟨_, rfl, ?_, ?_⟩
  · obtain ⟨outcome, e', hrun⟩ := hcompletes hquiet 3 rfl
    obtain ⟨n, hcounter, hcounts⟩ := houtcomes outcome e' hrun
    refine ⟨outcome, e', hrun, n, hcounter, ?_⟩
    rw [hcounts]
    simp only [Nat.zero_add]
  · have hslope : unitBowl.gradient (EuclideanSpace.single 0 1) = EuclideanSpace.single 0 1 := by
      unfold Quadric.gradient image unitBowl
      rw [Matrix.toLpLin_one, LinearMap.id_apply, sub_zero]
    -- the slope at the start has norm `1`
    have hgoing : u.stage.state.reason = .notTerminated := by
      refine hbegins fun hshort => ?_
      have hle : real ‖unitBowl.gradient (EuclideanSpace.single 0 1)‖ ≤
          Scalar.greatest (real 1e-8) (real 1e-10) := hshort
      rw [hslope, greatest_real, real_le, PiLp.norm_single] at hle
      norm_num at hle
    have habstains := unitBowl.abstains_newtonian Wolfe.default usualNewton
    have hdue : Executor.continues u.stage.state = .ok true := by
      have hnot : u.stage.state.terminated = false := congrArg Reason.isTerminal hgoing
      exact Executor.continues_of_reached habstains rfl hreached hnot
    obtain ⟨x, p, v, hiterate, hunit, -⟩ := hiterations 0 u hreached hdue
    exact ⟨u, v, hreached, hiterate, x, p, hunit⟩

end Quadratic

end Descent
