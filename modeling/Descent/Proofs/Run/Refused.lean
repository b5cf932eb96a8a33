import Descent.Machine
import Descent.Proofs.Run.Abort
import Descent.Proofs.Run.Observed

/-!
# Deltas whose cost is refused

A merge takes over the parts of a delta one after the other, and the cost last.  A cost that does
not convert is refused, and what was taken over before it stays: the state is the one from before
exactly if it had all of that already (`State.facing_eq_self_iff`).  So a run that is ended by such
a delta does not leave the state of its last completed iteration, but that state with the other
parts of the delta (`Executor.leaves_of_refused`).
-/

namespace Descent

variable {R V M σ μ : Type} [Scalar R]

/-- An integer that is out of range does not convert. -/
theorem Value.toReal_of_ofInt? {n : Int} (h : (Scalar.ofInt? n : Option R) = none) :
    (Value.int n : Value R).toReal = .error (.outOfRange .integerRange) := by
  show (Number.int n : Number R).toReal = _
  unfold Number.toReal
  dsimp only
  rw [h]

/-- The cost of a delta does not convert, and is refused with a fault. -/
def Delta.Refused (d : Delta R V M) (f : Fault R) : Prop :=
  ∃ c, d.cost = some c ∧ c.toReal = .error f

theorem Delta.Refused.isInterrupt_eq_false {d : Delta R V M} {f : Fault R} (h : d.Refused f) :
    f.isInterrupt = false := by
  obtain ⟨c, -, hc⟩ := h
  exact Fault.Ordinary.isInterrupt_eq_false (Value.calm_toReal c f hc)

namespace State

variable {s : State R V M} {d : Delta R V M} {f : Fault R}

/-- The state has what a delta brings besides its cost, and its cost is also its previous one. -/
structure Has (s : State R V M) (d : Delta R V M) : Prop where
  param : ∀ x, d.param = some x → s.param = some x ∧ s.prevParam = some x
  grad : ∀ g, d.grad = some g → s.grad = some g
  hessian : ∀ h, d.hessian = some h → s.hessian = some h
  kv : d.kv = [] ∨ d.kv = s.kv
  prevCost : s.prevCost = s.cost

omit [Scalar R] in
theorem or_eq_right_iff {α : Type} {o p : Option α} :
    o.or p = p ↔ ∀ x, o = some x → p = some x := by
  cases o with
  | none => simp
  | some x => simp [eq_comm]

/-- To meet the cost of a delta changes the state unless it has the rest of the delta. -/
theorem facing_eq_self_iff : s.facing d = s ↔ s.Has d := by
  constructor
  · -- the merge is compared field by field
    intro h
    have hparam : d.param.or s.param = s.param := congrArg State.param h
    have hprev : (if d.param.isSome then s.param else s.prevParam) = s.prevParam :=
      congrArg State.prevParam h
    have hkv : (if d.kv.isEmpty then s.kv else d.kv) = s.kv := congrArg State.kv h
    refine ⟨fun x hx => ?_, or_eq_right_iff.mp (congrArg State.grad h),
      or_eq_right_iff.mp (congrArg State.hessian h), ?_, (congrArg State.prevCost h).symm⟩
    · have hs : s.param = some x := or_eq_right_iff.mp hparam x hx
      rw [hx, Option.isSome_some, if_pos rfl, hs] at hprev
      exact ⟨hs, hprev.symm⟩
    · cases hd : d.kv with
      | nil => exact .inl rfl
      | cons a l =>
        rw [hd] at hkv
        exact .inr hkv
  · intro h
    have hprev : (if d.param.isSome then s.param else s.prevParam) = s.prevParam := by
      cases hx : d.param with
      | none => rfl
      | some x =>
        obtain ⟨hs, hs'⟩ := h.param x hx
        exact hs.trans hs'.symm
    have hkv : (if d.kv.isEmpty then s.kv else d.kv) = s.kv := by
      rcases h.kv with hd | hd <;> rw [hd]
      · rfl
      · exact ite_self _
    unfold facing mergeParts
    rw [or_eq_right_iff.mpr fun x hx => (h.param x hx).1, hprev, or_eq_right_iff.mpr h.grad,
      or_eq_right_iff.mpr h.hessian, hkv]
    exact congrArg (fun c => { s with prevCost := c }) h.prevCost.symm

theorem merge_of_refused (hd : d.Refused f) (s : State R V M) :
    s.merge d = (.error f, s.facing d) := by
  obtain ⟨c, hcost, hc⟩ := hd
  exact merge_of_error hcost hc

end State

namespace Executor

variable {solver : Solver R V M σ μ} {memory : μ} {session : Session R σ} {config : Config R V}
  {observers : List (ObserverEntry R V M)} {s : State R V M} {d : Delta R V M} {f : Fault R}

/-- A run meets a delta in a state: the solver answers with it at the outset, or where an iteration
is due after the last one completed. -/
inductive Meets (solver : Solver R V M σ μ) (e : Executor R V M σ μ) :
    State R V M → Delta R V M → Prop
  | outset {d : Delta R V M} {t : Stage R V M σ μ}
      (answer : solver.init.run (begun solver e).stage = (.ok (some d), t)) :
      Meets solver e (begun solver e).stage.state d
  | iteration {k : Nat} {u : Executor R V M σ μ} {d : Delta R V M} {t : Stage R V M σ μ}
      (reached : Reached solver e k u) (due : continues u.stage.state = .ok true)
      (answer : solver.next.run u.stage = (.ok (some d), t)) :
      Meets solver e u.stage.state d

theorem prepare_of_refused {e : Executor R V M σ μ} {t : Stage R V M σ μ} (hd : d.Refused f)
    (h : solver.init.run e.stage = (.ok (some d), t)) :
    (prepare solver).run e = (.error f, e.withStage (t.withState (t.state.facing d))) := by
  unfold prepare
  rw [Act.run_bind_of_ok (onStage_eq.mpr ⟨t, h, rfl⟩)]
  exact Act.run_bind_of_error (merge_eq.mpr ⟨_, State.merge_of_refused hd _, rfl⟩)

theorem step_of_refused {e : Executor R V M σ μ} {t : Stage R V M σ μ} (hd : d.Refused f)
    (h : solver.next.run e.stage = (.ok (some d), t)) :
    (step solver).run e = (.error f, e.withStage (t.withState (t.state.facing d))) := by
  refine step_eq_error.mpr (.inl ?_)
  unfold iterate
  rw [Act.run_bind_of_ok (onStage_eq.mpr ⟨t, h, rfl⟩), given]
  rw [Act.run_bind_of_ok (Act.run_lift _ _)]
  exact Act.run_bind_of_error (merge_eq.mpr ⟨_, State.merge_of_refused hd _, rfl⟩)

/-- A run that meets a delta with a cost that is refused fails there. -/
theorem drive_of_meets (ha : solver.Abstains) {ceiling : Int}
    (hceiling : config.maxIters.number? = some (.int ceiling)) (hd : d.Refused f)
    (h : Meets solver (ready memory session config observers) s d) :
    s.reason = .notTerminated ∧
      ∃ u, (drive solver).run (begun solver (ready memory session config observers)) =
          (.error f, u) ∧
        u.stage.state = s.facing d := by
  cases h with
  | outset answer =>
    have hkept := ha.init.run_eq answer
    have hprepare := prepare_of_refused hd answer
    exact ⟨rfl, _, Act.run_bind_of_error hprepare, congrArg (State.facing · d) hkept⟩
  | iteration reached due answer =>
    have hkept := ha.next.run_eq answer
    have hfuel := lt_fuel_of_due ha hceiling reached due
    exact ⟨reason_of_due due, _,
      drive_of_step_eq_error reached hfuel due (step_of_refused hd answer),
      congrArg (State.facing · d) hkept⟩

/-- A run that meets such a delta is aborted, in the state that it met it in with the rest of the
delta taken over. -/
theorem run_of_meets (ha : solver.Abstains) (hd : d.Refused f)
    (h : Meets solver (ready memory session config observers) s d)
    (hvalid : config.validate = .ok ()) {ceiling : Int}
    (hceiling : config.maxIters.number? = some (.int ceiling)) :
    ∃ e, (run solver).run (ready memory session config observers) = (.error f, e) ∧
      e.status = .terminated ∧
      e.stage.state = { s.facing d with
        reason := .aborted
        time := some (.real e.stage.session.elapsed) } := by
  obtain ⟨hgoing, u, hdrive, hstate⟩ := drive_of_meets ha hceiling hd h
  refine ⟨_, run_of_drive_eq_error rfl hvalid hd.isInterrupt_eq_false hdrive, rfl, ?_⟩
  have hleft : ((abort solver f).run u).2.stage.state = { u.stage.state.terminateWith .aborted with
      time := some (.real u.stage.session.elapsed) } := rfl
  have hgoing' : (s.facing d).reason = .notTerminated := hgoing
  rw [hleft, hstate, State.terminateWith_of_reason hgoing']
  rfl

/-- **What a delta whose cost is refused leaves.**  A merge of it into any state refuses the cost
with the rest of the delta taken over and the cost before as the previous one; so the state is the
one from before exactly if it had all of that.  A run that meets the delta is aborted with that
fault, and leaves the state of its last completed iteration changed in the same way. -/
theorem leaves_of_refused {d : Delta R V M} {f : Fault R} (hd : d.Refused f) :
    (∀ s : State R V M,
      s.merge d = (.error f, { s with
        param := d.param.or s.param
        prevParam := if d.param.isSome then s.param else s.prevParam
        grad := d.grad.or s.grad
        hessian := d.hessian.or s.hessian
        kv := if d.kv.isEmpty then s.kv else d.kv
        prevCost := s.cost }) ∧
      ((s.merge d).2 = s ↔ s.Has d)) ∧
    ∀ {σ μ : Type} {solver : Solver R V M σ μ} (memory : μ) (session : Session R σ)
      (config : Config R V) (observers : List (ObserverEntry R V M)) (ceiling : Int) (s),
      solver.Abstains → config.validate = .ok () →
      config.maxIters.number? = some (.int ceiling) →
      Meets solver (ready memory session config observers) s d →
      ∃ e, (run solver).run (ready memory session config observers) = (.error f, e) ∧
        e.status = .terminated ∧
        e.stage.state = { (s.merge d).2 with
          reason := .aborted
          time := some (.real e.stage.session.elapsed) } ∧
        ({ e.stage.state with reason := s.reason, time := s.time } = s ↔ s.Has d) := by
  refine ⟨fun s => ?_, fun memory session config observers ceiling s ha hvalid hceiling h => ?_⟩
  · rw [State.merge_of_refused hd]
    exact ⟨rfl, State.facing_eq_self_iff⟩
  · obtain ⟨e, hrun, hstatus, hstate⟩ := run_of_meets ha hd h hvalid hceiling
    rw [State.merge_of_refused hd]
    refine ⟨e, hrun, hstatus, hstate, ?_⟩
    -- to refuse the cost leaves the reason and the time alone
    rw [hstate]
    exact State.facing_eq_self_iff

/-- A delta with a cost that is too large to be a measured value. -/
def oversized : Delta Float Float Unit :=
  { param := some 3.0, cost := some (.int (10 ^ 200 * 10 ^ 200)), grad := some 3.0 }

/-- A solver that answers with a measured cost first, and with one that is too large after it. -/
def overreaching : Solver Float Float Unit Unit Unit :=
  Algorithm.toSolver {
    name := "Overreaching"
    requires := [.cost]
    init := fun _ => pure none
    next := fun s => pure <|
      if s.prevParam.isNone then { param := some 1.0, cost := some (.real 0.5) } else oversized
    terminate := fun _ => pure .notTerminated }

/-- An executor for it. -/
def fromTwo : Executor Float Float Unit Unit Unit :=
  ready () ⟨{}, (), [], false, 0.0⟩ { param := some 2.0, maxIters := .int 5 } []

theorem abstains_overreaching : overreaching.Abstains := Algorithm.abstains_toSolver _

theorem refused_oversized : oversized.Refused (.outOfRange .integerRange) := by
  have hout : (Scalar.ofInt? (10 ^ 200 * 10 ^ 200) : Option Float) = none := by decide +kernel
  exact ⟨_, rfl, Value.toReal_of_ofInt? hout⟩

/-- Once a parameter was merged the solver answers with the delta. -/
theorem next_overreaching {t : Stage Float Float Unit Unit Unit}
    (h : t.state.prevParam.isNone = false) :
    overreaching.next.run t = (.ok (some oversized), t) := by
  show (Except.ok (some (if t.state.prevParam.isNone then _ else oversized)), t) = _
  rw [h]
  rfl

/-- The run meets the delta after its first iteration, in a state without a gradient. -/
theorem meets_oversized : ∃ u, Reached overreaching fromTwo 1 u ∧
    Meets overreaching fromTwo u.stage.state oversized ∧ u.stage.state.grad = none := by
  have hprepare : (prepare overreaching).run (begun overreaching fromTwo) =
      (.ok (), begun overreaching fromTwo) := rfl
  have hstep := Act.run_eq_of_isOk (a := step overreaching) (t := begun overreaching fromTwo)
    (by decide +kernel)
  have hreached : Reached overreaching fromTwo 1 _ := ⟨_, hprepare, .more .none rfl hstep⟩
  refine ⟨_, hreached, .iteration hreached (Act.toOption_eq_some.mp ?_) (next_overreaching ?_),
    Option.isNone_iff_eq_none.mp ?_⟩
  all_goals decide +kernel

theorem not_has_oversized {s : State Float Float Unit} (h : s.grad = none) :
    ¬ s.Has oversized := by
  intro hs
  have hgrad : s.grad = some 3.0 := hs.grad 3.0 rfl
  rw [h] at hgrad
  cases hgrad

/-- What the run leaves is not the state of its last completed iteration: it has the parameter of
the delta beside the cost of the iteration. -/
theorem leaves_of_refused_oversized :
    ∃ s e, oversized.Refused (.outOfRange .integerRange) ∧ overreaching.Abstains ∧
      Meets overreaching fromTwo s oversized ∧
      (run overreaching).run fromTwo = (.error (.outOfRange .integerRange), e) ∧
      e.stage.state.param = some 3.0 ∧ e.stage.state.cost = s.cost ∧
      { e.stage.state with reason := s.reason, time := s.time } ≠ s := by
  obtain ⟨u, -, hmeets, hgrad⟩ := meets_oversized
  obtain ⟨-, hruns⟩ := leaves_of_refused refused_oversized
  obtain ⟨e, hrun, -, hstate, hsame⟩ := hruns () ⟨{}, (), [], false, 0.0⟩
    { param := some 2.0, maxIters := .int 5 } [] 5 _ abstains_overreaching rfl rfl hmeets
  have hmerge := State.merge_of_refused refused_oversized u.stage.state
  rw [hmerge] at hstate
  refine ⟨_, e, refused_oversized, abstains_overreaching, hmeets, hrun, ?_, ?_, ?_⟩
  · rw [hstate]
    rfl
  · rw [hstate]
    rfl
  · exact fun h => not_has_oversized hgrad (hsame.mp h)

/-- A merge that refuses a cost is not without effect: the gradient of the delta is in the state
that the run leaves, and was not in that of its last completed iteration. -/
theorem oversized_not_atomic :
    ∃ u e, Reached overreaching fromTwo 1 u ∧
      (u.stage.state.merge oversized).1 = .error (.outOfRange .integerRange) ∧
      (u.stage.state.merge oversized).2 ≠ u.stage.state ∧
      (run overreaching).run fromTwo = (.error (.outOfRange .integerRange), e) ∧
      u.stage.state.grad = none ∧ e.stage.state.grad = some 3.0 := by
  obtain ⟨u, hreached, hmeets, hgrad⟩ := meets_oversized
  obtain ⟨e, hrun, -, hstate⟩ := run_of_meets abstains_overreaching refused_oversized hmeets rfl rfl
  have hmerge := State.merge_of_refused refused_oversized u.stage.state
  refine ⟨u, e, hreached, congrArg Prod.fst hmerge, fun hsame => ?_, hrun, hgrad, ?_⟩
  · rw [hmerge] at hsame
    exact not_has_oversized hgrad (State.facing_eq_self_iff.mp hsame)
  · rw [hstate]
    rfl

end Executor

end Descent
