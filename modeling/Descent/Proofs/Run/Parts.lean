import Descent.Proofs.Act.Keeps
import Descent.Run.Executor

/-!
# The parts of a run

What each part of `Executor.run` does to an executor, and what it leaves alone.  A part works on
the stage (`run_onStage`, `run_changeState`), or it tells something: reports and notifications
change the journal and the notices only (`untold`, `keeps_untold_conclude`).

The inversion lemmas (`iterate_eq_ok`, `verdict_eq_ok`, `step_eq_ok`) name everything an iteration
can do; what is proved of runs is proved from them.
-/

namespace Descent

namespace Stage

variable {R V M σ μ : Type} [Scalar R]

/-- The stage with another state. -/
def withState (t : Stage R V M σ μ) (s : State R V M) : Stage R V M σ μ := { t with state := s }

@[simp]
theorem state_withState (t : Stage R V M σ μ) (s : State R V M) : (t.withState s).state = s := rfl

@[simp]
theorem memory_withState (t : Stage R V M σ μ) (s : State R V M) :
    (t.withState s).memory = t.memory := rfl

@[simp]
theorem session_withState (t : Stage R V M σ μ) (s : State R V M) :
    (t.withState s).session = t.session := rfl

@[simp]
theorem withState_withState (t : Stage R V M σ μ) (s s' : State R V M) :
    (t.withState s).withState s' = t.withState s' := rfl

@[simp]
theorem withState_state (t : Stage R V M σ μ) : t.withState t.state = t := rfl

end Stage

namespace Executor

variable {R V M σ μ α : Type} [Scalar R]

/-- The executor with another stage. -/
def withStage (e : Executor R V M σ μ) (t : Stage R V M σ μ) : Executor R V M σ μ :=
  { e with stage := t }

/-- The executor with another state. -/
def withState (e : Executor R V M σ μ) (s : State R V M) : Executor R V M σ μ :=
  e.withStage (e.stage.withState s)

/-- The executor with nothing told: its journal and its notices are empty. -/
def untold (e : Executor R V M σ μ) : Executor R V M σ μ :=
  { e with
    notices := []
    stage := { e.stage with session := { e.stage.session with journal := [] } } }

@[simp]
theorem stage_withStage (e : Executor R V M σ μ) (t : Stage R V M σ μ) :
    (e.withStage t).stage = t := rfl

@[simp]
theorem config_withStage (e : Executor R V M σ μ) (t : Stage R V M σ μ) :
    (e.withStage t).config = e.config := rfl

@[simp]
theorem observers_withStage (e : Executor R V M σ μ) (t : Stage R V M σ μ) :
    (e.withStage t).observers = e.observers := rfl

@[simp]
theorem status_withStage (e : Executor R V M σ μ) (t : Stage R V M σ μ) :
    (e.withStage t).status = e.status := rfl

@[simp]
theorem withStage_withStage (e : Executor R V M σ μ) (t t' : Stage R V M σ μ) :
    (e.withStage t).withStage t' = e.withStage t' := rfl

@[simp]
theorem withStage_stage (e : Executor R V M σ μ) : e.withStage e.stage = e := rfl

@[simp]
theorem stage_withState (e : Executor R V M σ μ) (s : State R V M) :
    (e.withState s).stage = e.stage.withState s := rfl

@[simp]
theorem withStage_withState (e : Executor R V M σ μ) (t : Stage R V M σ μ) (s : State R V M) :
    (e.withStage t).withState s = e.withStage (t.withState s) := rfl

@[simp]
theorem config_withState (e : Executor R V M σ μ) (s : State R V M) :
    (e.withState s).config = e.config := rfl

@[simp]
theorem observers_withState (e : Executor R V M σ μ) (s : State R V M) :
    (e.withState s).observers = e.observers := rfl

@[simp]
theorem status_withState (e : Executor R V M σ μ) (s : State R V M) :
    (e.withState s).status = e.status := rfl

/-! ### Steps on the stage -/

@[simp]
theorem run_onStage (a : Act R (Stage R V M σ μ) α) (e : Executor R V M σ μ) :
    (onStage a).run e = ((a.run e.stage).1, e.withStage (a.run e.stage).2) := rfl

theorem onStage_eq {a : Act R (Stage R V M σ μ) α} {e e' : Executor R V M σ μ}
    {r : Except (Fault R) α} :
    (onStage a).run e = (r, e') ↔ ∃ t, a.run e.stage = (r, t) ∧ e' = e.withStage t :=
  Act.run_zoom_eq

@[simp]
theorem run_changeState (f : State R V M → State R V M) (e : Executor R V M σ μ) :
    (changeState f).run e = (.ok (), e.withState (f e.stage.state)) := rfl

@[simp]
theorem run_state (e : Executor R V M σ μ) :
    (state (σ := σ) (μ := μ)).run e = (.ok e.stage.state, e) := rfl

@[simp]
theorem run_merge (d : Delta R V M) (e : Executor R V M σ μ) :
    (merge d).run e = ((e.stage.state.merge d).1, e.withState (e.stage.state.merge d).2) := rfl

theorem merge_eq {d : Delta R V M} {e e' : Executor R V M σ μ} {r : Except (Fault R) Bool} :
    (merge d).run e = (r, e') ↔ ∃ s, e.stage.state.merge d = (r, s) ∧ e' = e.withState s := by
  rw [run_merge]
  rcases e.stage.state.merge d with ⟨r', s⟩
  constructor
  · intro h
    cases h
    exact ⟨s, rfl, rfl⟩
  · rintro ⟨s', h, rfl⟩
    cases h
    rfl

theorem run_advance (e : Executor R V M σ μ) :
    (advance).run e =
      match e.stage.state.incrementIter with
      | .ok s => (.ok (), e.withState s)
      | .error f => (.error f, e) := by
  unfold advance
  rw [Act.run_bind_of_ok (run_state e), Act.run_bind, Act.run_lift]
  cases e.stage.state.incrementIter <;> rfl

theorem advance_eq_ok {e e' : Executor R V M σ μ} :
    (advance).run e = (.ok (), e') ↔
      ∃ s, e.stage.state.incrementIter = .ok s ∧ e' = e.withState s := by
  rw [run_advance]
  cases e.stage.state.incrementIter with
  | error f => simp
  | ok s => simp [eq_comm]

/-! ### Telling -/

/-- What is told changes nothing of a stage but its journal. -/
theorem stage_eq_of_untold {e e' : Executor R V M σ μ} (h : e'.untold = e.untold) :
    ∃ journal, e'.stage =
      { e.stage with session := { e.stage.session with journal := journal } } := by
  have hstage : e'.untold.stage = e.untold.stage := congrArg Executor.stage h
  simp only [untold, Stage.mk.injEq, Session.mk.injEq] at hstage
  obtain ⟨hmemory, hstate, hcounts, hworld, -, hdebug, helapsed⟩ := hstage
  refine ⟨e'.stage.session.journal, ?_⟩
  dsimp only
  rw [← hmemory, ← hstate, ← hcounts, ← hworld, ← hdebug, ← helapsed]

theorem keeps_untold_report (event : Event R) :
    Act.Keeps untold (report event : Act R (Executor R V M σ μ) Unit) :=
  fun _ => rfl

theorem keeps_untold_notifyOne (snapshot : State R V M) (position : Nat)
    (entry : ObserverEntry R V M) :
    Act.Keeps untold
      (notifyOne snapshot position entry : Act R (Executor R V M σ μ) Unit) := by
  unfold notifyOne
  refine Act.Keeps.bind (Act.Keeps.modify ?_) fun _ => ?_
  · exact fun _ => rfl
  rcases entry.observer.notify snapshot snapshot.curIter with ⟨events, fault⟩
  refine (Act.Keeps.forIn events _ (fun event _ _ => ?_) ()).bind fun _ => ?_
  · exact (keeps_untold_report event).bind fun _ => Act.Keeps.pure _
  · cases fault with
    | none => exact Act.Keeps.pure _
    | some f => exact (Act.Keeps.throw f).ite (keeps_untold_report _)

theorem keeps_untold_notify (newBest : Bool) :
    Act.Keeps untold (notify newBest : Act R (Executor R V M σ μ) Unit) := by
  unfold notify
  refine Act.Keeps.bind (fun _ => rfl) fun snapshot => Act.Keeps.get.bind fun e => ?_
  refine (Act.Keeps.lift _).bind fun chosen => ?_
  refine (Act.Keeps.forIn chosen _ (fun entry _ _ => ?_) ()).bind fun _ => Act.Keeps.pure _
  exact (keeps_untold_notifyOne snapshot entry.1 entry.2).bind fun _ => Act.Keeps.pure _

/-- The invariants are checked of the state as it is, and only if they are to be. -/
theorem run_checkInvariants (before : State R V M) (e : Executor R V M σ μ) :
    (checkInvariants before).run e =
      (if e.stage.session.debug then e.stage.state.check before.curIter before.bestCost
        else .ok (), e) := by
  unfold checkInvariants
  rw [Act.run_bind_of_ok (Act.run_get e)]
  cases e.stage.session.debug <;> rfl

theorem keeps_untold_checkInvariants (before : State R V M) :
    Act.Keeps untold (checkInvariants before : Act R (Executor R V M σ μ) Unit) := by
  unfold checkInvariants
  exact Act.Keeps.get.bind fun e => (Act.Keeps.lift _).ite (Act.Keeps.pure _)

/-- The end of an iteration changes nothing but what was told. -/
theorem keeps_untold_conclude (before : State R V M) (newBest : Bool) :
    Act.Keeps untold (conclude before newBest : Act R (Executor R V M σ μ) Unit) := by
  unfold conclude
  refine (keeps_untold_checkInvariants before).bind fun _ => ?_
  refine Act.Keeps.bind (fun _ => rfl) fun s => ?_
  exact (keeps_untold_report _).bind fun _ => keeps_untold_notify newBest

theorem state_of_conclude {before : State R V M} {newBest : Bool} {e e' : Executor R V M σ μ}
    {r : Except (Fault R) Unit} (h : (conclude before newBest).run e = (r, e')) :
    e'.stage.state = e.stage.state :=
  ((keeps_untold_conclude before newBest).comp fun e => e.stage.state).run_eq h

/-! ### One iteration -/

omit [Scalar R] in
theorem given_eq_ok {o : Option (Delta R V M)} {d : Delta R V M} :
    given o = .ok d ↔ o = some d := by
  cases o <;> simp [given]

/-- A delta's own reason, where it is final, is the verdict, and the solver is not asked; else its
answer is, or that the target cost was reached. -/
theorem verdict_eq_ok {solver : Solver R V M σ μ} {d : Delta R V M}
    {e e' : Executor R V M σ μ} {reason : Reason} :
    (verdict solver d).run e = (.ok reason, e') ↔
      (d.termination.filter Reason.isTerminal = some reason ∧ e' = e) ∨
        d.termination.filter Reason.isTerminal = none ∧
          ∃ r t, solver.terminate.run e.stage = (.ok r, t) ∧ e' = e.withStage t ∧
            (r.isTerminal = true ∧ reason = r ∨
              r.isTerminal = false ∧
                ∃ met, t.state.targetReached = .ok met ∧
                  reason = if met then .targetCostReached else r) := by
  unfold verdict
  cases d.termination.filter Reason.isTerminal with
  | some r =>
    constructor
    · intro h
      cases h
      exact .inl ⟨rfl, rfl⟩
    · rintro (⟨h, rfl⟩ | ⟨h, -⟩) <;> cases h
      rfl
  | none =>
    -- the solver is asked; only an answer that is not final has the target looked at
    simp only [Act.run_bind_eq_ok, onStage_eq]
    constructor
    · rintro ⟨r, u, ⟨t, ht, rfl⟩, h⟩
      refine .inr ⟨trivial, r, t, ht, ?_⟩
      by_cases hr : r.isTerminal = true
      · rw [if_pos hr] at h
        cases h
        exact ⟨rfl, .inl ⟨hr, rfl⟩⟩
      · rw [if_neg hr, Act.run_bind_of_ok (run_state _)] at h
        obtain ⟨met, u, htarget, h⟩ := Act.run_bind_eq_ok.mp h
        obtain ⟨hmet, rfl⟩ := Act.run_lift_eq.mp htarget
        cases met <;> cases h <;>
          exact ⟨rfl, .inr ⟨Bool.eq_false_iff.mpr hr, _, hmet, rfl⟩⟩
    · rintro (⟨h, -⟩ | ⟨-, r, t, ht, rfl, ⟨hr, rfl⟩ | ⟨hr, met, hmet, rfl⟩⟩)
      · cases h
      · refine ⟨reason, _, ⟨t, ht, rfl⟩, ?_⟩
        rw [if_pos hr]
        rfl
      · refine ⟨r, _, ⟨t, ht, rfl⟩, ?_⟩
        rw [hr, if_neg Bool.false_ne_true, Act.run_bind_of_ok (run_state _), stage_withStage]
        rw [Act.run_bind, Act.run_lift, hmet]
        cases met <;> rfl

/-- An iteration up to its verdict: the solver answers with a delta, which is merged, the counter
is advanced, and the verdict is recorded. -/
theorem iterate_eq_ok {solver : Solver R V M σ μ} {e e' : Executor R V M σ μ} {newBest : Bool} :
    (iterate solver).run e = (.ok newBest, e') ↔
      ∃ d t s s' reason u,
        solver.next.run e.stage = (.ok (some d), t) ∧
        t.state.merge d = (.ok newBest, s) ∧
        s.incrementIter = .ok s' ∧
        (verdict solver d).run (e.withStage (t.withState s')) = (.ok reason, u) ∧
        e' = u.withState (u.stage.state.terminateWith reason) := by
  unfold iterate
  constructor
  · -- each part that succeeds says what it changed
    intro h
    obtain ⟨o, e₁, hnext, h₁⟩ := Act.run_bind_eq_ok.mp h
    obtain ⟨t, ht, rfl⟩ := onStage_eq.mp hnext
    obtain ⟨d, e₂, hgiven, h₂⟩ := Act.run_bind_eq_ok.mp h₁
    obtain ⟨hd, rfl⟩ := Act.run_lift_eq.mp hgiven
    obtain rfl := given_eq_ok.mp hd
    obtain ⟨b, e₃, hmerge, h₃⟩ := Act.run_bind_eq_ok.mp h₂
    obtain ⟨s, hs, rfl⟩ := merge_eq.mp hmerge
    obtain ⟨_, e₄, hadvance, h₄⟩ := Act.run_bind_eq_ok.mp h₃
    obtain ⟨s', hs', rfl⟩ := advance_eq_ok.mp hadvance
    obtain ⟨reason, u, hverdict, h₅⟩ := Act.run_bind_eq_ok.mp h₄
    cases h₅
    exact ⟨d, t, s, s', reason, u, ht, hs, hs', hverdict, rfl⟩
  · rintro ⟨d, t, s, s', reason, u, ht, hs, hs', hverdict, rfl⟩
    rw [Act.run_bind_of_ok (onStage_eq.mpr ⟨t, ht, rfl⟩), given]
    rw [Act.run_bind_of_ok (Act.run_lift _ _), Act.run_bind_of_ok (merge_eq.mpr ⟨s, hs, rfl⟩)]
    rw [Act.run_bind_of_ok (advance_eq_ok.mpr ⟨s', hs', rfl⟩)]
    rw [withStage_withState, withStage_withState, Stage.withState_withState]
    rw [Act.run_bind_of_ok hverdict]
    rfl

theorem step_eq_ok {solver : Solver R V M σ μ} {e e' : Executor R V M σ μ} :
    (step solver).run e = (.ok (), e') ↔
      ∃ newBest u, (iterate solver).run e = (.ok newBest, u) ∧
        (conclude e.stage.state newBest).run u = (.ok (), e') := by
  unfold step
  rw [Act.run_bind_of_ok (run_state e)]
  exact Act.run_bind_eq_ok

theorem step_eq_error {solver : Solver R V M σ μ} {e e' : Executor R V M σ μ} {f : Fault R} :
    (step solver).run e = (.error f, e') ↔
      (iterate solver).run e = (.error f, e') ∨
        ∃ newBest u, (iterate solver).run e = (.ok newBest, u) ∧
          (conclude e.stage.state newBest).run u = (.error f, e') := by
  unfold step
  rw [Act.run_bind_of_ok (run_state e)]
  exact Act.run_bind_eq_error

/-! ### Preparation -/

/-- What the solver answers before the first iteration is merged, and its reason recorded. -/
theorem prepare_eq_ok {solver : Solver R V M σ μ} {e e' : Executor R V M σ μ} :
    (prepare solver).run e = (.ok (), e') ↔
      ∃ o t, solver.init.run e.stage = (.ok o, t) ∧
        match o with
        | none => e' = e.withStage t
        | some d =>
          ∃ b s, t.state.merge d = (.ok b, s) ∧
            e' = e.withStage (t.withState (match d.termination with
              | none => s
              | some reason => s.terminateWith reason)) := by
  unfold prepare
  constructor
  · intro h
    obtain ⟨o, e₁, hinit, h₁⟩ := Act.run_bind_eq_ok.mp h
    obtain ⟨t, ht, rfl⟩ := onStage_eq.mp hinit
    refine ⟨o, t, ht, ?_⟩
    cases o with
    | none =>
      cases h₁
      rfl
    | some d =>
      obtain ⟨b, e₂, hmerge, h₂⟩ := Act.run_bind_eq_ok.mp h₁
      obtain ⟨s, hs, rfl⟩ := merge_eq.mp hmerge
      refine ⟨b, s, hs, ?_⟩
      cases hr : d.termination <;> rw [hr] at h₂ <;> cases h₂ <;> rfl
  · rintro ⟨o, t, ht, h⟩
    rw [Act.run_bind_of_ok (onStage_eq.mpr ⟨t, ht, rfl⟩)]
    cases o with
    | none => rw [h]; rfl
    | some d =>
      obtain ⟨b, s, hs, rfl⟩ := h
      dsimp only
      rw [Act.run_bind_of_ok (merge_eq.mpr ⟨s, hs, rfl⟩)]
      cases d.termination <;> rfl

/-! ### Settings -/

/-- What is beside the stage: the settings, where the executor stands and what was notified. -/
def frame (e : Executor R V M σ μ) :
    Config R V × List (ObserverEntry R V M) × Status × List (Notice R V M) :=
  (e.config, e.observers, e.status, e.notices)

theorem keeps_frame_onStage (a : Act R (Stage R V M σ μ) α) : Act.Keeps frame (onStage a) :=
  fun _ => rfl

theorem keeps_frame_advance : Act.Keeps frame (advance : Act R (Executor R V M σ μ) Unit) := by
  intro e
  rw [run_advance]
  cases e.stage.state.incrementIter <;> rfl

/-- A verdict leaves alone what asking the solver leaves alone. -/
theorem keeps_verdict {κ : Type} {f : Executor R V M σ μ → κ} {solver : Solver R V M σ μ}
    (h : Act.Keeps f (onStage solver.terminate)) (d : Delta R V M) :
    Act.Keeps f (verdict solver d) := by
  unfold verdict
  cases d.termination.filter Reason.isTerminal with
  | some r => exact Act.Keeps.pure r
  | none =>
    refine h.bind fun r => (Act.Keeps.pure r).ite ?_
    refine Act.Keeps.bind (fun _ => rfl) fun s => (Act.Keeps.lift _).bind fun met => ?_
    exact (Act.Keeps.pure _).ite (Act.Keeps.pure _)

/-- An iteration up to its verdict works on the stage. -/
theorem keeps_frame_iterate (solver : Solver R V M σ μ) : Act.Keeps frame (iterate solver) := by
  unfold iterate
  refine (keeps_frame_onStage _).bind fun o => (Act.Keeps.lift _).bind fun d => ?_
  refine (keeps_frame_onStage _).bind fun newBest => keeps_frame_advance.bind fun _ => ?_
  refine (keeps_verdict (keeps_frame_onStage _) d).bind fun r => ?_
  exact Act.Keeps.bind (fun _ => rfl) fun _ => Act.Keeps.pure _

/-- So does a preparation. -/
theorem keeps_frame_prepare (solver : Solver R V M σ μ) : Act.Keeps frame (prepare solver) := by
  unfold prepare
  refine (keeps_frame_onStage _).bind fun o => ?_
  cases o with
  | none => exact Act.Keeps.pure _
  | some d =>
    refine (keeps_frame_onStage _).bind fun _ => ?_
    cases d.termination with
    | none => exact Act.Keeps.pure _
    | some r => exact fun _ => rfl

/-- What a run is given and does not change: its configuration and its observers. -/
def settings (e : Executor R V M σ μ) : Config R V × List (ObserverEntry R V M) :=
  (e.config, e.observers)

theorem keeps_settings_iterate (solver : Solver R V M σ μ) :
    Act.Keeps settings (iterate solver) :=
  (keeps_frame_iterate solver).comp fun f => (f.1, f.2.1)

theorem keeps_settings_prepare (solver : Solver R V M σ μ) :
    Act.Keeps settings (prepare solver) :=
  (keeps_frame_prepare solver).comp fun f => (f.1, f.2.1)

theorem keeps_settings_step (solver : Solver R V M σ μ) : Act.Keeps settings (step solver) := by
  unfold step
  refine Act.Keeps.bind (fun _ => rfl) fun before => ?_
  refine (keeps_settings_iterate solver).bind fun newBest => ?_
  exact (keeps_untold_conclude before newBest).comp settings

end Executor

end Descent
