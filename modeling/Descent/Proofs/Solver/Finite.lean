import Descent.Proofs.Solver.Beside
import Descent.Proofs.Solver.Progress

/-!
# Costs and gradients that are finite

A method that minimises checks what it answers before it is merged.  Every cost that it answers
with is finite, and so is every gradient that it checks: Newton's method checks all of them,
steepest descent those of its iterations but not the one at the start, the trust-region method none
(`Method.Descends.finite`).

What is checked is what the operator answered where the step leads (`Method.start`, `Method.trial`).
If that is not finite, a descent fails (`Method.Descends.refused_of_start`,
`Method.refused_of_trial`), and a trust region leaves the point as it is
(`TrustRegion.still_of_trial`).
-/

namespace Descent

open Act

variable {R V M σ μ : Type} [Scalar R]

/-! ### Checks -/

theorem checkFinite_eq_ok {x : R} {what : String} :
    checkFinite x what = .ok () ↔ Scalar.isFinite x = true := by
  unfold checkFinite
  cases Scalar.isFinite x with
  | true => exact ⟨fun _ => rfl, fun _ => rfl⟩
  | false => exact ⟨nofun, nofun⟩

theorem checkFinite_of_not {x : R} (h : Scalar.isFinite x = false) (what : String) :
    checkFinite x what = .error (.notFinite what (some (.real x))) := by
  unfold checkFinite
  rw [h, if_neg Bool.false_ne_true]

theorem checkFiniteOption_eq_ok [Space R V] {x : Option V} {what : String} :
    checkFiniteOption x what = .ok () ↔ ∀ v, x = some v → Space.isFinite v = true := by
  cases x with
  | none => exact ⟨fun _ => nofun, fun _ => rfl⟩
  | some v =>
    show checkFiniteVector v what = .ok () ↔ _
    unfold checkFiniteVector
    cases h : Space.isFinite v with
    | true => exact ⟨fun _ w hw => Option.some.inj hw ▸ h, fun _ => rfl⟩
    | false =>
      refine ⟨nofun, fun hall => ?_⟩
      rw [hall v rfl] at h
      cases h

theorem checkFiniteOption_of_not [Space R V] {v : V} (h : Space.isFinite v = false)
    (what : String) : checkFiniteOption (some v) what = .error (.notFinite what none) := by
  show checkFiniteVector v what = _
  unfold checkFiniteVector
  rw [h, if_neg Bool.false_ne_true]

namespace Delta

/-- The delta brings a cost, and it is finite. -/
def FiniteCost (d : Delta R V M) : Prop := ∃ c, d.cost = some (.real c) ∧ Scalar.isFinite c = true

/-- The gradient that the delta brings is finite, if it brings one. -/
def FiniteGrad [Space R V] (d : Delta R V M) : Prop :=
  ∀ g, d.grad = some g → Space.isFinite g = true

/-- The delta brings a cost that is not finite. -/
def WildCost (d : Delta R V M) : Prop := ∃ c, d.cost = some (.real c) ∧ Scalar.isFinite c = false

/-- The delta brings a gradient that is not finite. -/
def WildGrad [Space R V] (d : Delta R V M) : Prop :=
  ∃ g, d.grad = some g ∧ Space.isFinite g = false

end Delta

/-- The step fails for something that is not finite. -/
def Act.Refuses {τ α : Type} (a : Act R τ α) (t : τ) : Prop :=
  ∃ what value t', a.run t = (.error (.notFinite what value), t')

namespace Act.Refuses

variable {τ υ α β : Type} {a : Act R τ α}

omit [Scalar R] in
theorem bind {t : τ} (h : a.Refuses t) (f : α → Act R τ β) : (a >>= f).Refuses t := by
  obtain ⟨what, value, t', ht⟩ := h
  exact ⟨what, value, t', run_bind_of_error ht⟩

omit [Scalar R] in
theorem map {t : τ} (h : a.Refuses t) (g : α → β) : (g <$> a).Refuses t := h.bind _

omit [Scalar R] in
theorem zoom {part : υ → τ} {put : τ → υ → υ} {u : υ} (h : a.Refuses (part u)) :
    (Act.zoom part put a).Refuses u := by
  obtain ⟨what, value, t', ht⟩ := h
  exact ⟨what, value, _, run_zoom_eq.mpr ⟨t', ht, rfl⟩⟩

omit [Scalar R] in
theorem inSession {a : Act R (Session R σ) α} {b : Bench R σ μ} (h : a.Refuses b.session) :
    (Bench.inSession a).Refuses b :=
  h.zoom

variable {algorithm : Algorithm R V M σ μ} {t : Stage R V M σ μ}

theorem init (h : (algorithm.init t.state).Refuses ⟨t.memory, t.session⟩) :
    algorithm.toSolver.init.Refuses t := by
  obtain ⟨what, value, b, hb⟩ := h
  exact ⟨what, value, _, Algorithm.run_onStage algorithm.init hb⟩

theorem next (h : (algorithm.next t.state).Refuses ⟨t.memory, t.session⟩) :
    algorithm.toSolver.next.Refuses t := by
  obtain ⟨what, value, b, hb⟩ := h.map some
  exact ⟨what, value, _, Algorithm.run_onStage (fun s => some <$> algorithm.next s) hb⟩

end Act.Refuses

variable [Space R V] {op : Operator R V M σ} {line : LineSearch R V M σ}

/-! ### Descending along a line -/

namespace Descending

/-- The cost and the gradient at the start, unchecked. -/
def measure (op : Operator R V M σ) (s : State R V M) : Act R (Session R σ) (Delta R V M) := do
  let cost ← Session.costValue op s.param
  let grad ← Session.gradient op s.param
  return { cost := some (.real cost), grad := grad }

/-- Where a descent along a direction leads, unchecked. -/
def arrive (op : Operator R V M σ) (line : LineSearch R V M σ) (direction : V)
    (s : State R V M) : Act R (Session R σ) (Delta R V M) := do
  let step ← line.search direction s
  let y ← Act.lift (do Space.add (← Space.require s.param) (Space.scale direction step.alpha))
  let (cost, grad) ← complete op y step
  return {
    param := some y
    cost := some (.real cost)
    grad := grad
    kv := [("alpha", .real step.alpha)] }

/-- A cost and a gradient that are checked are refused if one of them is not finite. -/
theorem checks_refuse {α τ : Type} {d : Delta R V M} {cost : R}
    (hcost : d.cost = some (.real cost)) (hwild : d.WildCost ∨ d.WildGrad)
    (whatCost whatGrad : String) (rest : Act R τ α) (t : τ) :
    (do
      Act.lift (checkFinite cost whatCost)
      Act.lift (checkFiniteOption d.grad whatGrad)
      rest : Act R τ α).Refuses t := by
  cases hfinite : Scalar.isFinite cost with
  | false =>
    exact ⟨_, _, _, run_bind_of_error (run_lift_eq.mpr ⟨checkFinite_of_not hfinite _, rfl⟩)⟩
  | true =>
    have hchecked : (Act.lift (checkFinite cost whatCost) : Act R τ Unit).run t = (.ok (), t) :=
      run_lift_eq.mpr ⟨checkFinite_eq_ok.mpr hfinite, rfl⟩
    -- the first check passed, so it is the gradient that the second one refuses
    rcases hwild with ⟨c, hc, hnot⟩ | ⟨g, hg, hnot⟩
    · rw [hcost] at hc
      cases hc
      rw [hfinite] at hnot
      cases hnot
    · rw [hg]
      unfold Act.Refuses
      rw [run_bind_of_ok hchecked]
      exact ⟨_, _, _, run_bind_of_error (run_lift_eq.mpr ⟨checkFiniteOption_of_not hnot _, rfl⟩)⟩

/-- What a descent answers is finite. -/
theorem yields_advance_finite (direction : V) (s : State R V M) :
    Yields (fun _ => True) (advance op line direction s) fun d => d.FiniteCost ∧ d.FiniteGrad := by
  unfold advance
  refine (Yields.trivial _).bind fun step _ => (Yields.lift _).bind fun y _ => ?_
  refine (Yields.trivial _).bind fun p _ => ?_
  obtain ⟨cost, grad⟩ := p
  refine (Yields.lift _).bind fun _ hcost => (Yields.lift _).bind fun _ hgrad => Yields.pure ?_
  exact ⟨⟨cost, rfl, checkFinite_eq_ok.mp hcost⟩, checkFiniteOption_eq_ok.mp hgrad⟩

/-- A descent that leads where something is not finite fails. -/
theorem advance_refuses {direction : V} {s : State R V M} {d : Delta R V M}
    {t t' : Session R σ} (h : (arrive op line direction s).run t = (.ok d, t'))
    (hwild : d.WildCost ∨ d.WildGrad) : (advance op line direction s).Refuses t := by
  unfold arrive at h
  obtain ⟨step, t₁, hstep, h⟩ := run_bind_eq_ok.mp h
  obtain ⟨y, t₂, hy, h⟩ := run_bind_eq_ok.mp h
  obtain ⟨⟨cost, grad⟩, t₃, hcomplete, h⟩ := run_bind_eq_ok.mp h
  cases h
  unfold advance Act.Refuses
  rw [run_bind_of_ok hstep, run_bind_of_ok hy, run_bind_of_ok hcomplete]
  exact checks_refuse rfl hwild _ _ _ _

/-- The opening delta brings the cost and the gradient that it is made of. -/
theorem opening_eq_ok {tol cost : R} {grad : Option V} {d : Delta R V M}
    (h : opening tol cost grad = .ok d) : d.cost = some (.real cost) ∧ d.grad = grad := by
  unfold opening at h
  obtain ⟨b, -, h⟩ := bind_eq_ok.mp h
  cases h
  exact ⟨rfl, rfl⟩

end Descending

/-! ### Methods -/

namespace SteepestDescent

theorem finite (tol : R) :
    ((algorithm op line tol : Algorithm R V M σ μ).toSolver).Answers (fun _ d => d.FiniteCost)
      fun _ d => d.FiniteCost ∧ d.FiniteGrad where
  init s := by
    refine Algorithm.yields_onStage (Bench.yields_inSession ?_)
    unfold init
    refine (Yields.trivial _).bind fun cost _ => (Yields.trivial _).bind fun grad _ => ?_
    refine (Yields.lift _).bind fun _ hcost => (Yields.lift _).bind fun d hd => Yields.pure ?_
    exact ⟨d, rfl, cost, (Descending.opening_eq_ok hd).1, checkFinite_eq_ok.mp hcost⟩
  next s := by
    refine Algorithm.yields_next ?_
    show Yields _ (Bench.inSession (SteepestDescent.next op line s)) _
    exact Bench.yields_inSession (Descending.yields_advance_finite _ s)
  terminate s := Algorithm.yields_onStage (Yields.trivial _)

/-- A start whose cost is not finite is refused. -/
theorem init_refuses {tol : R} {s : State R V M} {d : Delta R V M} {t t' : Session R σ}
    (h : (Descending.measure op s).run t = (.ok d, t')) (hwild : d.WildCost) :
    (init op tol s).Refuses t := by
  unfold Descending.measure at h
  obtain ⟨cost, t₁, hcost, h⟩ := run_bind_eq_ok.mp h
  obtain ⟨grad, t₂, hgrad, h⟩ := run_bind_eq_ok.mp h
  cases h
  obtain ⟨c, hc, hnot⟩ := hwild
  cases hc
  unfold init Act.Refuses
  rw [run_bind_of_ok hcost, run_bind_of_ok hgrad]
  exact ⟨_, _, _, run_bind_of_error (run_lift_eq.mpr ⟨checkFinite_of_not hnot _, rfl⟩)⟩

/-- Where an iteration leads, unchecked. -/
def trial (op : Operator R V M σ) (line : LineSearch R V M σ) (s : State R V M) :
    Act R (Session R σ) (Delta R V M) :=
  Descending.arrive op line (match s.grad with | some g => Space.neg g | none => Space.blank) s

end SteepestDescent

variable [LinearAction R V M]

namespace NewtonCG

theorem finite (settings : Settings R) :
    ((algorithm op line settings : Algorithm R V M σ μ).toSolver).Answers
      (fun _ d => d.FiniteCost ∧ d.FiniteGrad) fun _ d => d.FiniteCost ∧ d.FiniteGrad where
  init s := by
    refine Algorithm.yields_onStage (Bench.yields_inSession ?_)
    unfold init
    refine (Yields.trivial _).bind fun cost _ => (Yields.trivial _).bind fun grad _ => ?_
    refine (Yields.lift _).bind fun _ hcost => (Yields.lift _).bind fun _ hgrad => ?_
    refine (Yields.lift _).bind fun d hd => Yields.pure ?_
    obtain ⟨hdcost, hdgrad⟩ := Descending.opening_eq_ok hd
    refine ⟨d, rfl, ⟨cost, hdcost, checkFinite_eq_ok.mp hcost⟩, fun g hg => ?_⟩
    exact checkFiniteOption_eq_ok.mp hgrad g (hdgrad ▸ hg)
  next s := by
    refine Algorithm.yields_next ?_
    show Yields _ (Bench.inSession (NewtonCG.next op line settings s)) _
    refine Bench.yields_inSession ?_
    unfold NewtonCG.next
    refine (Yields.trivial _).bind fun hess _ => (Yields.lift _).bind fun direction _ => ?_
    exact Descending.yields_advance_finite direction s
  terminate s := Algorithm.yields_onStage (Yields.trivial _)

omit [LinearAction R V M] in
/-- A start whose cost or whose gradient is not finite is refused. -/
theorem init_refuses {tol : R} {s : State R V M} {d : Delta R V M} {t t' : Session R σ}
    (h : (Descending.measure op s).run t = (.ok d, t')) (hwild : d.WildCost ∨ d.WildGrad) :
    (init op tol s).Refuses t := by
  unfold Descending.measure at h
  obtain ⟨cost, t₁, hcost, h⟩ := run_bind_eq_ok.mp h
  obtain ⟨grad, t₂, hgrad, h⟩ := run_bind_eq_ok.mp h
  cases h
  unfold init Act.Refuses
  rw [run_bind_of_ok hcost, run_bind_of_ok hgrad]
  exact Descending.checks_refuse rfl hwild _ _ _ _

/-- Where an iteration leads, unchecked. -/
def trial (op : Operator R V M σ) (line : LineSearch R V M σ) (settings : Settings R)
    (s : State R V M) : Act R (Session R σ) (Delta R V M) := do
  let hess ← Session.hessian op s.param
  let d ← Act.lift (direction settings s.grad hess)
  Descending.arrive op line d s

/-- An iteration that leads where something is not finite fails. -/
theorem next_refuses {settings : Settings R} {s : State R V M} {d : Delta R V M}
    {t t' : Session R σ} (h : (trial op line settings s).run t = (.ok d, t'))
    (hwild : d.WildCost ∨ d.WildGrad) : (next op line settings s).Refuses t := by
  unfold trial at h
  obtain ⟨hess, t₁, hhess, h⟩ := run_bind_eq_ok.mp h
  obtain ⟨direction, t₂, hdirection, h⟩ := run_bind_eq_ok.mp h
  unfold next Act.Refuses
  rw [run_bind_of_ok hhess, run_bind_of_ok hdirection]
  exact Descending.advance_refuses h hwild

end NewtonCG

namespace TrustRegion

variable {sub : Subproblem R V M σ μ} {settings : Settings R} {s : State R V M}

/-- The step that the model leads to, with the working radius before it, and its cost, unchecked. -/
def probe (op : Operator R V M σ) (sub : Subproblem R V M σ μ) (s : State R V M) (grad : V) :
    Act R (Bench R σ (Memory R μ)) (R × V × V × R) := do
  let radius := (← get).memory.working
  prepare sub radius grad s.hessian
  let step ← solveModel op sub grad
  let y ← Act.lift (do Space.add (← Space.require s.param) step)
  let cost ← Bench.inSession (Session.costValue op (some y))
  return (radius, step, y, cost)

/-- Where an iteration leads, unchecked. -/
def trial (op : Operator R V M σ) (sub : Subproblem R V M σ μ) (s : State R V M) :
    Act R (Bench R σ (Memory R μ)) (Delta R V M) := do
  let grad ← Act.lift (Space.require s.grad)
  let (_, _, y, cost) ← probe op sub s grad
  return { param := some y, cost := some (.real cost) }

omit [LinearAction R V M] in
/-- A start whose cost is not finite is refused. -/
theorem init_refuses {b : Bench R σ (Memory R μ)} {t : Session R σ} {cost : R}
    (h : (Session.costValue op s.param).run b.session = (.ok cost, t))
    (hcost : Scalar.isFinite cost = false) :
    (init op settings s : Act R (Bench R σ (Memory R μ)) (Option (Delta R V M))).Refuses b := by
  unfold init setWorking Act.Refuses
  have hmeasured : (Bench.inSession (Session.costValue op s.param)).run
      ⟨{ b.memory with working := settings.radius }, b.session⟩ =
        (.ok cost, ⟨{ b.memory with working := settings.radius }, t⟩) :=
    run_zoom_eq.mpr ⟨t, h, rfl⟩
  rw [run_bind_of_ok (run_modify _ _), run_bind_of_ok hmeasured]
  exact ⟨_, _, _, run_bind_of_error (run_lift_eq.mpr ⟨checkFinite_of_not hcost _, rfl⟩)⟩

variable [ReductionScalar R]

/-- A step to where the cost is not finite is rejected. -/
theorem still_of_probe (heta : (0.0 : R) ≤ settings.eta) {grad step y : V} {radius cost : R}
    {d : Delta R V M} {b b' b'' : Bench R σ (Memory R μ)}
    (h : (probe op sub s grad).run b = (.ok (radius, step, y, cost), b'))
    (hcost : Scalar.isFinite cost = false)
    (hd : (iterate op sub settings s grad).run b = (.ok d, b'')) : d.Still := by
  unfold probe at h
  obtain ⟨b₀, b₁, hget, h⟩ := run_bind_eq_ok.mp h
  obtain ⟨_, b₂, hprepare, h⟩ := run_bind_eq_ok.mp h
  obtain ⟨step', b₃, hstep, h⟩ := run_bind_eq_ok.mp h
  obtain ⟨y', b₄, hy, h⟩ := run_bind_eq_ok.mp h
  obtain ⟨cost', b₅, hcost', h⟩ := run_bind_eq_ok.mp h
  cases h
  unfold iterate at hd
  rw [run_bind_of_ok hget, run_bind_of_ok hprepare, run_bind_of_ok hstep, run_bind_of_ok hy,
    run_bind_of_ok hcost'] at hd
  obtain ⟨promised, b₆, -, hd⟩ := run_bind_eq_ok.mp hd
  obtain ⟨ratio, b₇, hratio, hd⟩ := run_bind_eq_ok.mp hd
  obtain ⟨_, b₈, -, hd⟩ := run_bind_eq_ok.mp hd
  -- a ratio above the threshold needs a finite cost
  have hnot : ¬ settings.eta < ratio := by
    intro hlt
    have hfinite := (lt_of_lt_ratio (run_lift_eq.mp hratio).1 heta hlt).2.1
    rw [hcost] at hfinite
    cases hfinite
  rw [if_neg hnot] at hd
  cases hd
  exact ⟨rfl, rfl, rfl, rfl⟩

/-- An iteration that leads where the cost is not finite leaves the point as it is. -/
theorem still_of_trial (heta : (0.0 : R) ≤ settings.eta) {d d' : Delta R V M}
    {b b' b'' : Bench R σ (Memory R μ)} (h : (trial op sub s).run b = (.ok d, b'))
    (hwild : d.WildCost) (hd : (next op sub settings s).run b = (.ok d', b'')) : d'.Still := by
  unfold trial at h
  obtain ⟨grad, b₁, hgrad, h⟩ := run_bind_eq_ok.mp h
  obtain ⟨⟨radius, step, y, cost⟩, b₂, hprobe, h⟩ := run_bind_eq_ok.mp h
  cases h
  obtain ⟨c, hc, hnot⟩ := hwild
  cases hc
  obtain ⟨hslope, rfl⟩ := run_lift_eq.mp hgrad
  unfold next at hd
  obtain ⟨converged, b₃, hconverged, hd⟩ := run_bind_eq_ok.mp hd
  obtain ⟨-, rfl⟩ := run_lift_eq.mp hconverged
  -- a stationary iteration brings nothing either
  cases converged with
  | true =>
    cases hd
    exact ⟨rfl, rfl, rfl, rfl⟩
  | false =>
    rw [if_neg Bool.false_ne_true, run_bind_of_ok (run_lift_eq.mpr ⟨hslope, rfl⟩)] at hd
    exact still_of_probe heta hprobe hnot hd

end TrustRegion

omit [Space R V] [LinearAction R V M] in
/-- What a step of the session answers on a stage, it answers in the session. -/
theorem Algorithm.exists_of_inSession {α : Type} {a : State R V M → Act R (Session R σ) α}
    {t t' : Stage R V M σ μ} {r : Except (Fault R) α}
    (h : (onStage fun s => Bench.inSession (a s)).run t = (r, t')) :
    ∃ w, (a t.state).run t.session = (r, w) := by
  obtain ⟨b, hb⟩ := exists_of_onStage h
  obtain ⟨w, hw, -⟩ := run_zoom_eq.mp hb
  exact ⟨w, hw⟩

namespace Method

/-- The method checks the gradient at the start. -/
def ChecksStart : Method R V M → Prop
  | newtonCG _ _ => True
  | _ => False

/-- The method checks the gradients of its iterations. -/
def ChecksSteps : Method R V M → Prop
  | steepestDescent _ _ => True
  | newtonCG _ _ => True
  | _ => False

omit [Space R V] [LinearAction R V M] in
theorem checksSteps_of_checksStart {m : Method R V M} (h : m.ChecksStart) : m.ChecksSteps := by
  cases m with
  | newtonCG line settings => trivial
  | _ => exact h.elim

/-- What a method that minimises finds at the start before it checks it; the trust-region method
checks the cost before it goes on. -/
def start (op : Operator R V M σ) :
    Method R V M → Act R (Stage R V M σ (Memory R V M)) (Delta R V M)
  | trustRegion _ _ => Algorithm.onStage fun s => Bench.inSession do
      return { cost := some (.real (← Session.costValue op s.param)) }
  | _ => Algorithm.onStage fun s => Bench.inSession (Descending.measure op s)

/-- Where an iteration of a method that minimises leads, unchecked. -/
def trial (op : Operator R V M σ) :
    Method R V M → Act R (Stage R V M σ (Memory R V M)) (Delta R V M)
  | steepestDescent line _ => Algorithm.onStage fun s =>
      Bench.inSession (SteepestDescent.trial op (line.lineSearch op) s)
  | newtonCG line settings => Algorithm.onStage fun s =>
      Bench.inSession (NewtonCG.trial op (line.lineSearch op) settings s)
  | trustRegion sub settings =>
    Stage.within (Memory.trusted settings.radius) (fun m _ => .trust m.working m.sub)
      (Algorithm.onStage (TrustRegion.trial op sub.subproblem))
  | _ => throw .missingAttribute

variable {m : Method R V M} {solver : Solver R V M σ (Memory R V M)}

/-- The costs that a method that minimises answers with are finite, and so are the gradients that it
checks. -/
theorem Descends.finite [ReductionScalar R] (hm : m.Descends)
    (heta : ∀ sub settings, m = .trustRegion sub settings → (0.0 : R) ≤ settings.eta)
    (hsolver : m.solver op = some solver) :
    solver.Answers (fun _ d => d.FiniteCost ∧ (m.ChecksStart → d.FiniteGrad)) fun _ d =>
      (d.FiniteCost ∨ d.cost = none) ∧ (m.ChecksSteps → d.FiniteGrad) := by
  cases hm with
  | steepestDescent line tol =>
    cases hsolver
    exact (SteepestDescent.finite tol).imp (fun _ _ h => ⟨h, nofun⟩)
      fun _ _ h => ⟨.inl h.1, fun _ => h.2⟩
  | newtonCG line settings =>
    cases hsolver
    exact (NewtonCG.finite settings).imp (fun _ _ h => ⟨h.1, fun _ => h.2⟩)
      fun _ _ h => ⟨.inl h.1, fun _ => h.2⟩
  | trustRegion sub settings =>
    cases hsolver
    refine (TrustRegion.answers (heta sub settings rfl)).widen.imp
      (fun _ _ h => ⟨h.2, nofun⟩) fun _ d h => ⟨?_, nofun⟩
    rcases h with htakes | hstill
    · cases htakes with
      | intro _ _ _ _ _ finite => exact .inl ⟨_, rfl, finite⟩
    · exact .inr hstill.cost

/-- A start whose cost is not finite is refused, and so is one whose gradient is not if that is
checked. -/
theorem Descends.refused_of_start (hm : m.Descends) (hsolver : m.solver op = some solver)
    {d : Delta R V M} {t t' : Stage R V M σ (Memory R V M)}
    (h : (m.start op).run t = (.ok d, t')) (hwild : d.WildCost ∨ m.ChecksStart ∧ d.WildGrad) :
    solver.init.Refuses t := by
  cases hm with
  | steepestDescent line tol =>
    cases hsolver
    dsimp only [start, trial] at h
    obtain ⟨w, hw⟩ := Algorithm.exists_of_inSession h
    refine Refuses.init ?_
    show (Bench.inSession (SteepestDescent.init op tol t.state)).Refuses _
    exact .inSession (SteepestDescent.init_refuses hw (hwild.resolve_right fun hgrad => hgrad.1))
  | newtonCG line settings =>
    cases hsolver
    dsimp only [start, trial] at h
    obtain ⟨w, hw⟩ := Algorithm.exists_of_inSession h
    refine Refuses.init ?_
    show (Bench.inSession (NewtonCG.init op settings.tolGrad t.state)).Refuses _
    exact .inSession (NewtonCG.init_refuses hw (hwild.imp_right And.right))
  | trustRegion sub settings =>
    cases hsolver
    dsimp only [start] at h
    obtain ⟨w, hw⟩ := Algorithm.exists_of_inSession h
    obtain ⟨cost, w', hcost, hw⟩ := run_bind_eq_ok.mp hw
    cases hw
    obtain ⟨c, hc, hnot⟩ := hwild.resolve_right fun hgrad => hgrad.1
    cases hc
    show (Stage.within (Memory.trusted settings.radius) (fun m _ => .trust m.working m.sub)
      (TrustRegion.algorithm op sub.subproblem settings).toSolver.init).Refuses t
    refine Refuses.zoom (Refuses.init ?_)
    exact TrustRegion.init_refuses hcost hnot

/-- A descent that leads where something is not finite is refused. -/
theorem refused_of_trial (hm : m.ChecksSteps) (hsolver : m.solver op = some solver)
    {d : Delta R V M} {t t' : Stage R V M σ (Memory R V M)}
    (h : (m.trial op).run t = (.ok d, t')) (hwild : d.WildCost ∨ d.WildGrad) :
    solver.next.Refuses t := by
  -- the other methods check no gradient on the way
  cases m with
  | steepestDescent line tol =>
    cases hsolver
    dsimp only [start, trial] at h
    obtain ⟨w, hw⟩ := Algorithm.exists_of_inSession h
    refine Refuses.next ?_
    show (Bench.inSession (SteepestDescent.next op (line.lineSearch op) t.state)).Refuses _
    exact .inSession (Descending.advance_refuses hw hwild)
  | newtonCG line settings =>
    cases hsolver
    dsimp only [start, trial] at h
    obtain ⟨w, hw⟩ := Algorithm.exists_of_inSession h
    refine Refuses.next ?_
    show (Bench.inSession (NewtonCG.next op (line.lineSearch op) settings t.state)).Refuses _
    exact .inSession (NewtonCG.next_refuses hw hwild)
  | _ => exact hm.elim

/-- A trust-region iteration that leads where the cost is not finite leaves the point as it is. -/
theorem still_of_trial [ReductionScalar R] {sub : Method R V M}
    {settings : TrustRegion.Settings R} (heta : (0.0 : R) ≤ settings.eta)
    (hsolver : (Method.trustRegion sub settings).solver op = some solver) {d d' : Delta R V M}
    {t t' t'' : Stage R V M σ (Memory R V M)}
    (h : ((Method.trustRegion sub settings).trial op).run t = (.ok d, t')) (hwild : d.WildCost)
    (hd : solver.next.run t = (.ok (some d'), t'')) : d'.Still := by
  cases hsolver
  dsimp only [trial] at h
  replace hd : (Stage.within (Memory.trusted settings.radius) (fun m _ => .trust m.working m.sub)
    (Algorithm.onStage fun s => some <$> TrustRegion.next op sub.subproblem settings s)).run t =
      (.ok (some d'), t'') := hd
  obtain ⟨w, hw, -⟩ := run_zoom_eq.mp h
  obtain ⟨b, hb⟩ := Algorithm.exists_of_onStage hw
  obtain ⟨w', hw', -⟩ := run_zoom_eq.mp hd
  obtain ⟨b', hb'⟩ := Algorithm.exists_of_onStage hw'
  obtain ⟨d'', b'', hnext, hsome⟩ := run_bind_eq_ok.mp hb'
  cases hsome
  exact TrustRegion.still_of_trial heta hb hwild hnext

end Method

end Descent
