import Descent.Proofs.Run.Parts
import Descent.Proofs.State.Merge

/-!
# The iterations of a run

`Iterated solver e k e'` says that `k` iterations lead from `e` to `e'`, each of them due and
completed.  The loop of a run is a chain of them: it ends where no more is due (`loop_eq_ok`), or
fails in deciding that, in an iteration or by having no fuel left (`loop_eq_error`).  So a property
that the preparation establishes and every iteration keeps holds wherever a run has been.

`Reached solver e k e'` says the same of a whole run that is started from `e`.
-/

namespace Descent.Executor

variable {R V M σ μ : Type} [Scalar R] {solver : Solver R V M σ μ}

/-- An iteration is due only as long as no final reason is recorded. -/
theorem not_terminated_of_continues {s : State R V M} (h : continues s ≠ .ok false) :
    s.terminated = false := by
  unfold continues at h
  cases ht : s.terminated with
  | false => rfl
  | true => exact absurd (by rw [ht]; rfl) h

/-- Where an iteration is due no reason is recorded. -/
theorem reason_of_due {s : State R V M} (h : continues s = .ok true) :
    s.reason = .notTerminated :=
  Reason.eq_notTerminated (not_terminated_of_continues (by rw [h]; nofun))

/-- `k` iterations, each of them due and completed, lead from one executor to another. -/
inductive Iterated (solver : Solver R V M σ μ) (e : Executor R V M σ μ) :
    Nat → Executor R V M σ μ → Prop
  | none : Iterated solver e 0 e
  | more {k : Nat} {e₁ e₂ : Executor R V M σ μ} (before : Iterated solver e k e₁)
      (due : continues e₁.stage.state = .ok true) (done : (step solver).run e₁ = (.ok (), e₂)) :
      Iterated solver e (k + 1) e₂

/-- An iteration before others is one more of them. -/
theorem Iterated.after_step {e e₁ e₂ : Executor R V M σ μ} {k : Nat}
    (h : Iterated solver e₁ k e₂) (due : continues e.stage.state = .ok true)
    (done : (step solver).run e = (.ok (), e₁)) : Iterated solver e (k + 1) e₂ := by
  induction h with
  | none => exact .more .none due done
  | more _ due' done' ih => exact .more ih due' done'

/-- What every due iteration keeps holds after any number of them. -/
theorem Iterated.induct {P : Executor R V M σ μ → Prop}
    (keep : ∀ e₁ e₂, P e₁ → continues e₁.stage.state = .ok true →
      (step solver).run e₁ = (.ok (), e₂) → P e₂)
    {e e' : Executor R V M σ μ} {k : Nat} (h : Iterated solver e k e') (he : P e) : P e' := by
  induction h with
  | none => exact he
  | more _ due done ih => exact keep _ _ ih due done

/-- Where no iteration is due none is made. -/
theorem Iterated.eq_of_not_due {e e' : Executor R V M σ μ} {k : Nat}
    (h : Iterated solver e k e') (hnot : continues e.stage.state ≠ .ok true) :
    k = 0 ∧ e' = e := by
  induction h with
  | none => exact ⟨rfl, rfl⟩
  | more before due done ih =>
    obtain ⟨-, rfl⟩ := ih
    exact absurd due hnot

/-! ### The loop -/

private theorem run_guard (e : Executor R V M σ μ) (f : Bool → Act R (Executor R V M σ μ) Unit) :
    (do
      let s ← state
      let due ← Act.lift (continues s)
      f due : Act R (Executor R V M σ μ) Unit).run e =
      match continues e.stage.state with
      | .ok due => (f due).run e
      | .error g => (.error g, e) := by
  rw [Act.run_bind_of_ok (run_state e), Act.run_bind, Act.run_lift]
  cases continues e.stage.state <;> rfl

theorem run_loop_zero (e : Executor R V M σ μ) :
    (loop solver 0).run e =
      match continues e.stage.state with
      | .ok true => (.error .exhausted, e)
      | .ok false => (.ok (), e)
      | .error g => (.error g, e) := by
  rw [loop, run_guard]
  rcases continues e.stage.state with _ | ⟨_ | _⟩ <;> rfl

theorem run_loop_succ (fuel : Nat) (e : Executor R V M σ μ) :
    (loop solver (fuel + 1)).run e =
      match continues e.stage.state with
      | .ok true => (step solver >>= fun _ => loop solver fuel).run e
      | .ok false => (.ok (), e)
      | .error g => (.error g, e) := by
  rw [loop, run_guard]
  rcases continues e.stage.state with _ | ⟨_ | _⟩ <;> rfl

/-- What an iteration leaves alone, any number of them do. -/
theorem keeps_loop {κ : Type} {f : Executor R V M σ μ → κ} (h : Act.Keeps f (step solver))
    (fuel : Nat) : Act.Keeps f (loop solver fuel) := by
  induction fuel with
  | zero =>
    unfold loop
    refine Act.Keeps.bind (fun _ => rfl) fun s => (Act.Keeps.lift _).bind fun due => ?_
    exact (Act.Keeps.throw _).ite (Act.Keeps.pure _)
  | succ fuel ih =>
    unfold loop
    refine Act.Keeps.bind (fun _ => rfl) fun s => (Act.Keeps.lift _).bind fun due => ?_
    exact (h.bind fun _ => ih).ite (Act.Keeps.pure _)

/-- A loop that ends has made iterations until none was due. -/
theorem loop_eq_ok {fuel : Nat} {e e' : Executor R V M σ μ}
    (h : (loop solver fuel).run e = (.ok (), e')) :
    ∃ k, Iterated solver e k e' ∧ continues e'.stage.state = .ok false := by
  induction fuel generalizing e with
  | zero =>
    rw [run_loop_zero] at h
    rcases hc : continues e.stage.state with _ | ⟨_ | _⟩ <;> rw [hc] at h <;> cases h
    exact ⟨0, .none, hc⟩
  | succ fuel ih =>
    rw [run_loop_succ] at h
    rcases hc : continues e.stage.state with _ | ⟨_ | _⟩ <;> rw [hc] at h
    · cases h
    · cases h
      exact ⟨0, .none, hc⟩
    · -- the iterations of the rest come after this one
      obtain ⟨_, e₁, hstep, hloop⟩ := Act.run_bind_eq_ok.mp h
      obtain ⟨k, hk, hend⟩ := ih hloop
      exact ⟨k + 1, hk.after_step hc hstep, hend⟩

/-- A loop that fails has made iterations and failed in deciding whether another one is due, in
that one, or because there is no fuel left for it. -/
theorem loop_eq_error {fuel : Nat} {e e' : Executor R V M σ μ} {f : Fault R}
    (h : (loop solver fuel).run e = (.error f, e')) :
    ∃ k e₁, Iterated solver e k e₁ ∧
      (continues e₁.stage.state = .error f ∧ e' = e₁ ∨
        continues e₁.stage.state = .ok true ∧
          ((step solver).run e₁ = (.error f, e') ∨ k = fuel ∧ f = .exhausted ∧ e' = e₁)) := by
  induction fuel generalizing e with
  | zero =>
    rw [run_loop_zero] at h
    rcases hc : continues e.stage.state with _ | ⟨_ | _⟩ <;> rw [hc] at h <;> cases h
    · exact ⟨0, e', .none, .inl ⟨hc, rfl⟩⟩
    · -- an iteration is due, and there is no fuel for it
      exact ⟨0, e', .none, .inr ⟨hc, .inr ⟨rfl, rfl, rfl⟩⟩⟩
  | succ fuel ih =>
    rw [run_loop_succ] at h
    rcases hc : continues e.stage.state with _ | ⟨_ | _⟩ <;> rw [hc] at h
    · cases h
      exact ⟨0, e', .none, .inl ⟨hc, rfl⟩⟩
    · cases h
    · rcases Act.run_bind_eq_error.mp h with hstep | ⟨_, e₁, hstep, hloop⟩
      · exact ⟨0, e, .none, .inr ⟨hc, .inl hstep⟩⟩
      · obtain ⟨k, e₂, hk, hend⟩ := ih hloop
        refine ⟨k + 1, e₂, hk.after_step hc hstep, ?_⟩
        simpa using hend

/-! ### A whole run -/

/-- An executor that was given its observers and was not run. -/
def ready (memory : μ) (session : Session R σ) (config : Config R V)
    (observers : List (ObserverEntry R V M)) : Executor R V M σ μ :=
  { new memory session config with observers := observers }

/-- The executor once its settings became the state's and the run began. -/
def begun (solver : Solver R V M σ μ) (e : Executor R V M σ μ) : Executor R V M σ μ :=
  ((start solver).run e).2

/-- Where a run started from `e` stands after its preparation and `k` iterations. -/
def Reached (solver : Solver R V M σ μ) (e : Executor R V M σ μ) (k : Nat)
    (e' : Executor R V M σ μ) : Prop :=
  ∃ e₀, (prepare solver).run (begun solver e) = (.ok (), e₀) ∧ Iterated solver e₀ k e'

/-- Before the first iteration a run stands where its preparation leads. -/
theorem reached_zero {e e' : Executor R V M σ μ} :
    Reached solver e 0 e' ↔ (prepare solver).run (begun solver e) = (.ok (), e') := by
  constructor
  · rintro ⟨e₀, hprepare, hiterated⟩
    cases hiterated
    exact hprepare
  · intro h
    exact ⟨e', h, .none⟩

/-- A due iteration that completes leads a run one further. -/
theorem Reached.more {e e₁ e₂ : Executor R V M σ μ} {k : Nat} (h : Reached solver e k e₁)
    (due : continues e₁.stage.state = .ok true) (done : (step solver).run e₁ = (.ok (), e₂)) :
    Reached solver e (k + 1) e₂ := by
  obtain ⟨e₀, hprepare, hiterated⟩ := h
  exact ⟨e₀, hprepare, .more hiterated due done⟩

/-- What the preparation establishes and every due iteration keeps holds wherever a run has been. -/
theorem Reached.induct {P : Executor R V M σ μ → Prop} {e : Executor R V M σ μ}
    (init : ∀ e₀, (prepare solver).run (begun solver e) = (.ok (), e₀) → P e₀)
    (keep : ∀ e₁ e₂, P e₁ → continues e₁.stage.state = .ok true →
      (step solver).run e₁ = (.ok (), e₂) → P e₂)
    {k : Nat} {e' : Executor R V M σ μ} (h : Reached solver e k e') : P e' := by
  obtain ⟨e₀, hprepare, hiterated⟩ := h
  exact hiterated.induct keep (init e₀ hprepare)

/-! ### Where a run has been -/

section

variable {e e' u : Executor R V M σ μ}

theorem Iterated.unique {k : Nat} (h : Iterated solver e k u) (h' : Iterated solver e k e') :
    u = e' := by
  induction h generalizing e' with
  | none =>
    cases h'
    rfl
  | more _ _ done ih =>
    cases h' with
    | more before' _ done' =>
      rw [ih before', done'] at done
      cases done
      rfl

theorem Reached.unique {k : Nat} (h : Reached solver e k u) (h' : Reached solver e k e') :
    u = e' := by
  obtain ⟨e₀, hprepare, hiterated⟩ := h
  obtain ⟨e₁, hprepare', hiterated'⟩ := h'
  rw [hprepare] at hprepare'
  cases hprepare'
  exact hiterated.unique hiterated'

/-- Before each of its iterations a run was one back. -/
theorem Reached.before {k : Nat} (h : Reached solver e (k + 1) u) :
    ∃ v, Reached solver e k v ∧ continues v.stage.state = .ok true ∧
      (step solver).run v = (.ok (), u) := by
  obtain ⟨e₀, hprepare, hiterated⟩ := h
  cases hiterated with
  | more before due done => exact ⟨_, ⟨e₀, hprepare, before⟩, due, done⟩

theorem Reached.of_le {k j : Nat} (h : Reached solver e k u) (hj : j ≤ k) :
    ∃ v, Reached solver e j v := by
  induction k generalizing u with
  | zero => exact ⟨u, Nat.le_zero.mp hj ▸ h⟩
  | succ k ih =>
    rcases Nat.le_or_eq_of_le_succ hj with hle | rfl
    · obtain ⟨v, hv, -⟩ := h.before
      exact ih hv hle
    · exact ⟨u, h⟩

end

/-! ### Driving a run -/

theorem run_drive (e : Executor R V M σ μ) :
    (drive solver).run e =
      (prepare solver >>= fun _ => get >>= fun e₀ => loop solver (fuel e₀.config.maxIters)).run e :=
  rfl

theorem keeps_drive {κ : Type} {f : Executor R V M σ μ → κ}
    (hprepare : Act.Keeps f (prepare solver)) (hstep : Act.Keeps f (step solver)) :
    Act.Keeps f (drive solver) := by
  unfold drive
  exact hprepare.bind fun _ => Act.Keeps.get.bind fun e => keeps_loop hstep _

theorem drive_eq_ok {e e' : Executor R V M σ μ}
    (h : (drive solver).run (begun solver e) = (.ok (), e')) :
    ∃ k, Reached solver e k e' ∧ continues e'.stage.state = .ok false := by
  rw [run_drive] at h
  obtain ⟨_, e₀, hprepare, h₁⟩ := Act.run_bind_eq_ok.mp h
  obtain ⟨k, hk, hend⟩ := loop_eq_ok h₁
  exact ⟨k, ⟨e₀, hprepare, hk⟩, hend⟩

/-- A run that fails does so in its preparation, in deciding whether another iteration is due, in
that one, or because no fuel is left for it. -/
theorem drive_eq_error {e e' : Executor R V M σ μ} {f : Fault R}
    (h : (drive solver).run (begun solver e) = (.error f, e')) :
    (prepare solver).run (begun solver e) = (.error f, e') ∨
      ∃ k e₁, Reached solver e k e₁ ∧
        (continues e₁.stage.state = .error f ∧ e' = e₁ ∨
          continues e₁.stage.state = .ok true ∧
            ((step solver).run e₁ = (.error f, e') ∨
              k = fuel e.config.maxIters ∧ f = .exhausted ∧ e' = e₁)) := by
  rw [run_drive] at h
  rcases Act.run_bind_eq_error.mp h with hprepare | ⟨_, e₀, hprepare, h₁⟩
  · exact .inl hprepare
  · obtain ⟨k, e₁, hk, hend⟩ := loop_eq_error h₁
    have hsettings : e₀.settings = (begun solver e).settings :=
      (keeps_settings_prepare solver).run_eq hprepare
    have hconfig : e₀.config = e.config := congrArg Prod.fst hsettings
    rw [hconfig] at hend
    exact .inr ⟨k, e₁, ⟨e₀, hprepare, hk⟩, hend⟩

/-! ### The end of a run -/

/-- The executor once its run is over, with a reason recorded unless one was before. -/
def closed (e : Executor R V M σ μ) (reason : Reason) : Executor R V M σ μ :=
  { e with
    status := .terminated
    stage := e.stage.withState
      { e.stage.state.terminateWith reason with time := some (.real e.stage.session.elapsed) } }

/-- A run is refused where it stands, or started and driven to its end. -/
theorem run_run (solver : Solver R V M σ μ) (e : Executor R V M σ μ) :
    (run solver).run e =
      if e.status ≠ .configured then (.error .runTwice, e)
      else match e.config.validate with
        | .error f => (.error f, e)
        | .ok () => ((drive solver).attempt >>= settle solver).run (begun solver e) := by
  unfold run
  rw [Act.run_bind_of_ok (Act.run_get e)]
  dsimp only
  split
  · rfl
  · rw [Act.run_bind, Act.run_lift]
    cases e.config.validate <;> rfl

/-- A run that was not started before and whose settings are valid is started and driven; what it
leaves is that of its drive, closed. -/
theorem run_eq {e : Executor R V M σ μ} (hstatus : e.status = .configured)
    (hvalid : e.config.validate = .ok ()) :
    (run solver).run e =
      match (drive solver).run (begun solver e) with
      | (.error f, u) =>
        if f.isInterrupt then (.error f, u) else (.error f, ((abort solver f).run u).2)
      | (.ok (), u) =>
        (.ok ⟨solver.name, (closed u .maxItersReached).stage.state, u.stage.session.counts⟩,
          ((report (.finished solver.name (closed u .maxItersReached).stage.state.curIter
            (closed u .maxItersReached).stage.state.reason
            (closed u .maxItersReached).stage.state.bestCost)).run
              (closed u .maxItersReached)).2) := by
  rw [run_run, if_neg fun hnot => hnot hstatus, hvalid]
  dsimp only
  rw [Act.run_bind_of_ok (Act.run_attempt _ _)]
  -- a fault that interrupts leaves the state unmarked
  rcases (drive solver).run (begun solver e) with ⟨f | _, u⟩
  · unfold settle
    dsimp only
    cases f.isInterrupt <;> rfl
  · rfl

/-- Once a run is driven nobody is notified any more, and the memory of the solver stays. -/
theorem record_of_run {e : Executor R V M σ μ} (hstatus : e.status = .configured)
    (hvalid : e.config.validate = .ok ()) :
    ((run solver).run e).2.notices = ((drive solver).run (begun solver e)).2.notices ∧
      ((run solver).run e).2.stage.memory =
        ((drive solver).run (begun solver e)).2.stage.memory := by
  rw [run_eq hstatus hvalid]
  rcases (drive solver).run (begun solver e) with ⟨f | _, u⟩
  · dsimp only
    cases f.isInterrupt <;> exact ⟨rfl, rfl⟩
  · exact ⟨rfl, rfl⟩

/-- A run whose drive fails is aborted, unless it is interrupted. -/
theorem run_of_drive_eq_error {e u : Executor R V M σ μ} {f : Fault R}
    (hstatus : e.status = .configured) (hvalid : e.config.validate = .ok ())
    (hf : f.isInterrupt = false) (h : (drive solver).run (begun solver e) = (.error f, u)) :
    (run solver).run e = (.error f, ((abort solver f).run u).2) := by
  rw [run_eq hstatus hvalid, h]
  dsimp only
  rw [hf, if_neg Bool.false_ne_true]

/-- A run whose drive completes leaves where that led, closed. -/
theorem run_of_drive_eq_ok {e u : Executor R V M σ μ} (hstatus : e.status = .configured)
    (hvalid : e.config.validate = .ok ()) (h : (drive solver).run (begun solver e) = (.ok (), u)) :
    ∃ u', (run solver).run e = (.ok ⟨solver.name, (closed u .maxItersReached).stage.state,
      u.stage.session.counts⟩, u') := by
  rw [run_eq hstatus hvalid, h]
  exact ⟨_, rfl⟩

/-- A run that completes was not started before, and its settings are valid. -/
theorem valid_of_run {e e' : Executor R V M σ μ} {outcome : Outcome R V M}
    (h : (run solver).run e = (.ok outcome, e')) :
    e.status = .configured ∧ e.config.validate = .ok () := by
  rw [run_run] at h
  by_cases hstatus : e.status = .configured
  · rw [if_neg fun hnot => hnot hstatus] at h
    cases hvalid : e.config.validate with
    | error f =>
      rw [hvalid] at h
      cases h
    | ok _ => exact ⟨hstatus, rfl⟩
  · rw [if_pos hstatus] at h
    cases h

/-- A run that completes came to where no iteration was due, and was closed there. -/
theorem ended_of_run {e e' : Executor R V M σ μ} {outcome : Outcome R V M}
    (h : (run solver).run e = (.ok outcome, e')) :
    ∃ k u, Reached solver e k u ∧ continues u.stage.state = .ok false ∧
      outcome = ⟨solver.name, (closed u .maxItersReached).stage.state, u.stage.session.counts⟩ ∧
      e'.untold = (closed u .maxItersReached).untold := by
  obtain ⟨hstatus, hvalid⟩ := valid_of_run h
  rw [run_eq hstatus hvalid] at h
  cases hdrive : (drive solver).run (begun solver e) with
  | mk r u =>
    rw [hdrive] at h
    cases r with
    | error f =>
      dsimp only at h
      split at h <;> cases h
    | ok _ =>
      obtain ⟨k, hreached, hend⟩ := drive_eq_ok hdrive
      cases h
      exact ⟨k, u, hreached, hend, rfl, keeps_untold_report _ _⟩

/-- A run that completes leaves the state that its iterations led to, closed, and the evaluations
charged by then. -/
theorem outcome_of_run {e e' : Executor R V M σ μ} {outcome : Outcome R V M}
    (h : (run solver).run e = (.ok outcome, e')) :
    ∃ k u, Reached solver e k u ∧ outcome =
      ⟨solver.name, (closed u .maxItersReached).stage.state, u.stage.session.counts⟩ := by
  obtain ⟨k, u, hreached, -, houtcome, -⟩ := ended_of_run h
  exact ⟨k, u, hreached, houtcome⟩

theorem run_eq_ok {e e' : Executor R V M σ μ} {outcome : Outcome R V M}
    (h : (run solver).run e = (.ok outcome, e')) :
    ∃ k u, Reached solver e k u ∧ outcome.state = (closed u .maxItersReached).stage.state := by
  obtain ⟨k, u, hreached, rfl⟩ := outcome_of_run h
  exact ⟨k, u, hreached, rfl⟩

/-- A run that completes leaves the state that its iterations led to: closing it records the reason
and the time, and nothing else. -/
theorem state_of_run {e e' : Executor R V M σ μ} {outcome : Outcome R V M}
    (h : (run solver).run e = (.ok outcome, e')) :
    ∃ k u r, Reached solver e k u ∧ outcome.state =
      { u.stage.state with reason := r, time := some (.real u.stage.session.elapsed) } := by
  obtain ⟨k, u, hreached, hstate⟩ := run_eq_ok h
  obtain ⟨r, hr⟩ := State.change_conclude u.stage.state .maxItersReached
  refine ⟨k, u, r, hreached, ?_⟩
  rw [hstate]
  exact congrArg
    (fun s : State R V M => { s with time := some (.real u.stage.session.elapsed) }) hr

end Descent.Executor
