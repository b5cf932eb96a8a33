import Descent.Proofs.Act.Run
import Descent.Solver.TrustRegion

/-!
# The trial of a trust-region iteration

An iteration away from a stationary point gives the model to the subproblem solver, has a step
handed back and tries the point it leads to (`TrustRegion.Trial`): the cost there and the reduction
that the model promised make the ratio, and the ratio with the length of the step the next working
radius.  Whether the step is taken too is decided on the ratio (`TrustRegion.iterate_eq_ok`).
-/

namespace Descent

open Act

variable {R V M σ μ : Type} [Scalar R]

namespace TrustRegion

variable [Space R V] [LinearAction R V M] {op : Operator R V M σ} {sub : Subproblem R V M σ μ}
  {settings : Settings R} {s : State R V M} {grad : V} {b b' : Bench R σ (Memory R μ)}
  {d : Delta R V M}

/-- From a bench the subproblem solver, given the working radius, handed back a step from the point
of the state, and the cost where it leads to, with what the model promised, has the ratio. -/
structure Trial (op : Operator R V M σ) (sub : Subproblem R V M σ μ) (s : State R V M) (grad : V)
    (b : Bench R σ (Memory R μ)) (x step y : V) (cost promised ratio : R)
    (after : Bench R σ (Memory R μ)) : Prop where
  handed : ∃ b₁ b₂, (prepare sub b.memory.working grad s.hessian).run b = (.ok (), b₁) ∧
    (solveModel op sub grad).run b₁ = (.ok step, b₂) ∧
    (Bench.inSession (Session.costValue op (some y))).run b₂ = (.ok cost, after)
  point : s.param = some x
  leads : Space.add x step = .ok y
  model : predicted grad step s.hessian = .ok promised
  measured : reductionRatio s.cost cost promised = .ok ratio

/-- The diagnostics of an iteration. -/
def told (radius ratio : R) : List (String × Value R) :=
  [("radius", .real radius), ("rho", .real ratio)]

omit [Scalar R] [Space R V] in
theorem require_eq_ok {o : Option V} {x : V} :
    (Space.require o : Except (Fault R) V) = .ok x ↔ o = some x := by
  cases o with
  | none => exact ⟨nofun, nofun⟩
  | some y =>
    constructor
    · rintro ⟨⟩
      rfl
    · rintro ⟨⟩
      rfl

/-- An iteration that answers made a trial and set the working radius.  Where the ratio exceeds the
threshold it has everything of the point it tried evaluated and brings it, and otherwise it has
nothing more evaluated and brings nothing but the diagnostics. -/
theorem iterate_eq_ok (h : (iterate op sub settings s grad).run b = (.ok d, b')) :
    ∃ x step y cost promised ratio after,
      Trial op sub s grad b x step y cost promised ratio after ∧
      b'.memory =
        ⟨adjust settings b.memory.working ratio (Space.norm step), after.memory.sub⟩ ∧
      (settings.eta < ratio ∧
          (∃ grad' hessian' session,
            (Session.gradient op (some y)).run after.session = (.ok grad', session) ∧
            (Session.hessian op (some y)).run session = (.ok hessian', b'.session) ∧
            d = ⟨some y, some (.real cost), grad', hessian', none,
              told b'.memory.working ratio⟩) ∨
        ¬ settings.eta < ratio ∧ b'.session = after.session ∧
          d = { kv := told b'.memory.working ratio }) := by
  unfold iterate at h
  rw [run_bind_of_ok (run_get b)] at h
  obtain ⟨_, b₁, hprepare, h₁⟩ := run_bind_eq_ok.mp h
  obtain ⟨step, b₂, hsolve, h₂⟩ := run_bind_eq_ok.mp h₁
  obtain ⟨y, _, hlift, h₃⟩ := run_bind_eq_ok.mp h₂
  obtain ⟨hy, rfl⟩ := run_lift_eq.mp hlift
  obtain ⟨x, hx, hleads⟩ := bind_eq_ok.mp hy
  obtain ⟨cost, after, hcost, h₄⟩ := run_bind_eq_ok.mp h₃
  obtain ⟨promised, _, hlift', h₅⟩ := run_bind_eq_ok.mp h₄
  obtain ⟨hmodel, rfl⟩ := run_lift_eq.mp hlift'
  obtain ⟨ratio, _, hlift'', h₆⟩ := run_bind_eq_ok.mp h₅
  obtain ⟨hmeasured, rfl⟩ := run_lift_eq.mp hlift''
  obtain ⟨_, _, hset, h₇⟩ := run_bind_eq_ok.mp h₆
  -- setting the radius is all that is left before the decision
  cases hset
  refine ⟨x, step, y, cost, promised, ratio, _,
    ⟨⟨b₁, _, hprepare, hsolve, hcost⟩, require_eq_ok.mp hx, hleads, hmodel, hmeasured⟩, ?_⟩
  by_cases htaken : settings.eta < ratio
  · rw [if_pos htaken] at h₇
    obtain ⟨grad', _, hzoom, h₈⟩ := run_bind_eq_ok.mp h₇
    obtain ⟨session, hgrad, rfl⟩ := run_zoom_eq.mp hzoom
    obtain ⟨hessian', _, hzoom', h₉⟩ := run_bind_eq_ok.mp h₈
    obtain ⟨session', hhessian, rfl⟩ := run_zoom_eq.mp hzoom'
    cases h₉
    exact ⟨rfl, .inl ⟨htaken, grad', hessian', session, hgrad, hhessian, rfl⟩⟩
  · rw [if_neg htaken] at h₇
    cases h₇
    exact ⟨rfl, .inr ⟨htaken, rfl, rfl⟩⟩

/-- An iteration that answers made a trial.  It sets the working radius, and brings everything of
the point it tried or nothing but the diagnostics. -/
theorem trial_of_iterate (h : (iterate op sub settings s grad).run b = (.ok d, b')) :
    ∃ x step y cost promised ratio after,
      Trial op sub s grad b x step y cost promised ratio after ∧
      b'.memory =
        ⟨adjust settings b.memory.working ratio (Space.norm step), after.memory.sub⟩ ∧
      (settings.eta < ratio ∧
          (∃ grad' hessian', (∃ t t', (Session.gradient op (some y)).run t = (.ok grad', t')) ∧
            (∃ t t', (Session.hessian op (some y)).run t = (.ok hessian', t')) ∧
            d = ⟨some y, some (.real cost), grad', hessian', none,
              told b'.memory.working ratio⟩) ∨
        ¬ settings.eta < ratio ∧ d = { kv := told b'.memory.working ratio }) := by
  obtain ⟨x, step, y, cost, promised, ratio, after, htrial, hmemory, hanswer⟩ := iterate_eq_ok h
  refine ⟨x, step, y, cost, promised, ratio, after, htrial, hmemory, ?_⟩
  rcases hanswer with ⟨htaken, grad', hessian', session, hgrad, hhessian, hd⟩ | ⟨hleft, -, hd⟩
  · exact .inl ⟨htaken, grad', hessian', ⟨_, _, hgrad⟩, ⟨_, _, hhessian⟩, hd⟩
  · exact .inr ⟨hleft, hd⟩

/-- An iteration that is made does not end the run. -/
theorem termination_of_iterate (h : (iterate op sub settings s grad).run b = (.ok d, b')) :
    d.termination = none := by
  obtain ⟨x, step, y, cost, promised, ratio, after, -, -, hanswer⟩ := trial_of_iterate h
  rcases hanswer with ⟨-, g, hess, -, -, rfl⟩ | ⟨-, rfl⟩
  · rfl
  · rfl

omit [LinearAction R V M] in
/-- A preparation that answers sets the first radius and has the cost and the gradient evaluated.
At a stationary point it ends the run; elsewhere it has the Hessian evaluated too and tells of the
radius. -/
theorem init_eq_ok {o : Option (Delta R V M)}
    (h : (init op settings s).run b = (.ok o, b')) :
    ∃ cost g session session',
      (Session.costValue op s.param).run b.session = (.ok cost, session) ∧
      (Session.gradient op s.param).run session = (.ok (some g), session') ∧
      b'.memory = ⟨settings.radius, b.memory.sub⟩ ∧
      (stationary settings (some g) = .ok true ∧ b'.session = session' ∧
          o = some { cost := some (.real cost), grad := some g, termination := some .converged } ∨
        stationary settings (some g) = .ok false ∧ ∃ hessian,
          (Session.hessian op s.param).run session' = (.ok hessian, b'.session) ∧
          o = some {
            cost := some (.real cost)
            grad := some g
            hessian := hessian
            kv := [("radius", .real settings.radius)] }) := by
  unfold init at h
  obtain ⟨_, _, hset, h₁⟩ := run_bind_eq_ok.mp h
  cases hset
  obtain ⟨cost, _, hzoom, h₂⟩ := run_bind_eq_ok.mp h₁
  obtain ⟨session, hcost, rfl⟩ := run_zoom_eq.mp hzoom
  obtain ⟨_, _, hlift, h₃⟩ := run_bind_eq_ok.mp h₂
  obtain ⟨-, rfl⟩ := run_lift_eq.mp hlift
  obtain ⟨grad, _, hzoom', h₄⟩ := run_bind_eq_ok.mp h₃
  obtain ⟨session', hgrad, rfl⟩ := run_zoom_eq.mp hzoom'
  obtain ⟨converged, _, hlift', h₅⟩ := run_bind_eq_ok.mp h₄
  obtain ⟨hstationary, rfl⟩ := run_lift_eq.mp hlift'
  -- whether a gradient is short is said only of one that is there
  cases grad with
  | none => cases hstationary
  | some g =>
    refine ⟨cost, g, session, session', hcost, hgrad, ?_⟩
    cases converged with
    | true =>
      cases h₅
      exact ⟨rfl, .inl ⟨hstationary, rfl, rfl⟩⟩
    | false =>
      rw [if_neg Bool.false_ne_true] at h₅
      obtain ⟨hessian, _, hzoom'', h₆⟩ := run_bind_eq_ok.mp h₅
      obtain ⟨session'', hhessian, rfl⟩ := run_zoom_eq.mp hzoom''
      cases h₆
      exact ⟨rfl, .inr ⟨hstationary, hessian, hhessian, rfl⟩⟩

/-- At a stationary point an iteration says so and does nothing; elsewhere it is made. -/
theorem next_eq_ok :
    (next op sub settings s).run b = (.ok d, b') ↔
      (stationary settings s.grad = .ok true ∧ d = { termination := some .converged } ∧ b' = b) ∨
        (stationary settings s.grad = .ok false ∧ ∃ g, s.grad = some g ∧
          (iterate op sub settings s g).run b = (.ok d, b')) := by
  unfold next
  simp only [run_bind_eq_ok, run_lift_eq]
  constructor
  · rintro ⟨converged, _, ⟨hstationary, rfl⟩, h⟩
    cases converged with
    | true =>
      cases h
      exact .inl ⟨hstationary, rfl, rfl⟩
    | false =>
      rw [if_neg Bool.false_ne_true] at h
      obtain ⟨g, _, hlift, h'⟩ := run_bind_eq_ok.mp h
      obtain ⟨hg, rfl⟩ := run_lift_eq.mp hlift
      exact .inr ⟨hstationary, g, require_eq_ok.mp hg, h'⟩
  · rintro (⟨hstationary, rfl, rfl⟩ | ⟨hstationary, g, hg, h⟩)
    · exact ⟨true, _, ⟨hstationary, rfl⟩, rfl⟩
    · refine ⟨false, _, ⟨hstationary, rfl⟩, ?_⟩
      rw [if_neg Bool.false_ne_true, run_bind_of_ok (run_lift_eq.mpr ⟨require_eq_ok.mpr hg, rfl⟩)]
      exact h

end TrustRegion

end Descent
