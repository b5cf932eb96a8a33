import Descent.Proofs.Run.Faults
import Descent.Proofs.Solver.Abstains
import Descent.Proofs.State.Merge

/-!
# Runs made of their iterations

Where a run has been tells how it goes on (`Iterated.run_loop`), so a run is known once its
iterations are: it completes where no further one is due (`drive_of_reached`) and fails where a due
one does (`drive_of_step_eq_error`).

Wherever a run has been, its counter says how often it iterated, and its notices say of which
iterations its observers were told: of the completed ones, and of all of those if they want to be
told always (`standsAt_of_reached`).
-/

namespace Descent

open Act

variable {R V M σ μ α : Type} [Scalar R]

namespace Executor

variable {solver : Solver R V M σ μ} {e e' u : Executor R V M σ μ} {k : Nat}

/-! ### Driving through iterations -/

/-- The loop goes on from where iterations have led. -/
theorem Iterated.run_loop (h : Iterated solver e k e') (fuel : Nat) :
    (loop solver (k + fuel)).run e = (loop solver fuel).run e' := by
  induction h generalizing fuel with
  | none => rw [Nat.zero_add]
  | more before due done ih =>
    rw [Nat.add_assoc, Nat.add_comm 1, ih, run_loop_succ, due]
    exact run_bind_of_ok done

theorem Reached.run_drive (h : Reached solver e k e') (hfuel : k ≤ fuel e.config.maxIters) :
    (drive solver).run (begun solver e) =
      (loop solver (fuel e.config.maxIters - k)).run e' := by
  obtain ⟨e₀, hprepare, hiterated⟩ := h
  have hsettings : e₀.settings = (begun solver e).settings :=
    (keeps_settings_prepare solver).run_eq hprepare
  have hconfig : e₀.config = e.config := congrArg Prod.fst hsettings
  rw [Executor.run_drive, run_bind_of_ok hprepare, run_bind_of_ok (run_get e₀), hconfig,
    ← hiterated.run_loop, Nat.add_sub_cancel' hfuel]

/-- A run completes where no iteration is due any more. -/
theorem drive_of_reached (h : Reached solver e k e') (hfuel : k ≤ fuel e.config.maxIters)
    (hend : continues e'.stage.state = .ok false) :
    (drive solver).run (begun solver e) = (.ok (), e') := by
  rw [h.run_drive hfuel]
  cases fuel e.config.maxIters - k with
  | zero => rw [run_loop_zero, hend]
  | succ n => rw [run_loop_succ, hend]

/-- To close a run in a state that has stopped records the time only. -/
theorem state_closed_of_terminated (hstopped : u.stage.state.terminated = true) (r : Reason) :
    (closed u r).stage.state =
      { u.stage.state with time := some (.real u.stage.session.elapsed) } := by
  have hkept : u.stage.state.terminateWith r = u.stage.state := if_pos hstopped
  unfold closed
  rw [hkept]
  rfl

/-- A run completes in a state that has stopped, and leaves it. -/
theorem run_of_terminated (hstatus : e.status = .configured) (hvalid : e.config.validate = .ok ())
    (h : Reached solver e k u) (hfuel : k ≤ fuel e.config.maxIters)
    (hstopped : u.stage.state.terminated = true) :
    ∃ outcome e', (run solver).run e = (.ok outcome, e') ∧
      outcome.state =
        { u.stage.state with time := some (.real u.stage.session.elapsed) } := by
  have hend : continues u.stage.state = .ok false := if_pos hstopped
  obtain ⟨e', hrun⟩ := run_of_drive_eq_ok hstatus hvalid (drive_of_reached h hfuel hend)
  exact ⟨_, e', hrun, state_closed_of_terminated hstopped _⟩

/-- A run fails where a due iteration does. -/
theorem drive_of_step_eq_error {f : Fault R} (h : Reached solver e k e')
    (hfuel : k < fuel e.config.maxIters) (hdue : continues e'.stage.state = .ok true)
    (hstep : (step solver).run e' = (.error f, u)) :
    (drive solver).run (begun solver e) = (.error f, u) := by
  obtain ⟨n, hn⟩ := Nat.exists_eq_add_of_lt hfuel
  have hleft : fuel e.config.maxIters - k = n + 1 := by omega
  rw [h.run_drive (Nat.le_of_lt hfuel), hleft, run_loop_succ, hdue]
  exact run_bind_of_error hstep

/-! ### The solver's step -/

/-- An iteration fails where the solver's step does. -/
theorem step_of_next_eq_error {f : Fault R} {t : Stage R V M σ μ}
    (h : solver.next.run e.stage = (.error f, t)) :
    (step solver).run e = (.error f, e.withStage t) := by
  refine step_eq_error.mpr (.inl ?_)
  unfold iterate
  exact run_bind_of_error (onStage_eq.mpr ⟨t, h, rfl⟩)

/-- Once the solver's step is made, an iteration calls the operator for nothing more. -/
theorem world_step (hd : solver.Decides) (e : Executor R V M σ μ) :
    ((step solver).run e).2.stage.session.world = (solver.next.run e.stage).2.session.world := by
  -- what follows the solver's step asks the solver whether to stop, which calls nothing
  have hrest : ∀ o : Option (Delta R V M), Act.Keeps (fun e : Executor R V M σ μ =>
      e.stage.session.world) (do
        let d ← Act.lift (given o)
        let newBest ← merge d
        advance
        let reason ← verdict solver d
        changeState (·.terminateWith reason)
        return newBest) := by
    intro o
    refine (Act.Keeps.lift _).bind fun d => Act.Keeps.bind (fun _ => rfl) fun newBest => ?_
    refine Act.Keeps.bind (fun e => ?_) fun _ => ?_
    · rw [run_advance]
      cases e.stage.state.incrementIter <;> rfl
    · refine (keeps_verdict (fun e => ?_) d).bind fun r => ?_
      · exact congrArg Session.world (hd e.stage)
      · exact Act.Keeps.bind (fun _ => rfl) fun _ => Act.Keeps.pure _
  have hiterate : ((iterate solver).run e).2.stage.session.world =
      (solver.next.run e.stage).2.session.world := by
    unfold iterate
    rw [run_bind, run_onStage]
    cases (solver.next.run e.stage).1 with
    | error f => rfl
    | ok o => exact hrest o (e.withStage _)
  unfold step
  rw [run_bind_of_ok (run_state e), run_bind, ← hiterate]
  rcases (iterate solver).run e with ⟨f | newBest, u⟩
  · rfl
  · exact ((keeps_untold_conclude _ newBest).comp fun e => e.stage.session.world) u

/-! ### What becomes of the state -/

theorem curIter_terminateWith (s : State R V M) (r : Reason) :
    (s.terminateWith r).curIter = s.curIter := by
  unfold State.terminateWith
  split <;> rfl

/-- An iteration merges one delta, advances the counter and records a reason. -/
theorem merged_of_iterate (ha : solver.Abstains) {newBest : Bool}
    (h : (iterate solver).run e = (.ok newBest, e')) :
    ∃ d s k r, e.stage.state.merge d = (.ok newBest, s) ∧ s.curIter.succ "+=" = .ok k ∧
      e'.stage.state = { s with curIter := k, reason := r } := by
  obtain ⟨d, t, s, s', reason, u, hnext, hmerge, hadvance, hverdict, rfl⟩ := iterate_eq_ok.mp h
  rw [ha.next.run_eq hnext] at hmerge
  have hkeeps : Act.Keeps (fun e => e.stage.state) (verdict solver d) :=
    keeps_verdict (fun e => ha.terminate e.stage) d
  have hu : u.stage.state = s' := hkeeps.run_eq hverdict
  obtain ⟨k, hk, rfl⟩ := State.incrementIter_eq_ok hadvance
  obtain ⟨r, hr⟩ := State.change_conclude { s with curIter := k } reason
  refine ⟨d, s, k, r, hmerge, hk, ?_⟩
  show u.stage.state.terminateWith reason = _
  rw [hu]
  exact hr

/-- A preparation leaves the state as it is, or it merges one delta and records a reason. -/
theorem state_of_prepare (ha : solver.Abstains) (h : (prepare solver).run e = (.ok (), e')) :
    e'.stage.state = e.stage.state ∨
      ∃ d newBest s r, e.stage.state.merge d = (.ok newBest, s) ∧
        e'.stage.state = { s with reason := r } := by
  obtain ⟨o, t, hinit, hmatch⟩ := prepare_eq_ok.mp h
  have ht : t.state = e.stage.state := ha.init.run_eq hinit
  cases o with
  | none =>
    obtain rfl := hmatch
    exact .inl ht
  | some d =>
    obtain ⟨newBest, s, hmerge, rfl⟩ := hmatch
    rw [ht] at hmerge
    cases hd : d.termination with
    | none => exact .inr ⟨d, newBest, s, s.reason, hmerge, rfl⟩
    | some reason =>
      obtain ⟨r, hr⟩ := s.change_conclude reason
      exact .inr ⟨d, newBest, s, r, hmerge, hr⟩

/-- An iteration counts itself. -/
theorem curIter_of_iterate (ha : solver.Abstains) {newBest : Bool} {i : Int}
    (h : (iterate solver).run e = (.ok newBest, e')) (hi : e.stage.state.curIter = .int i) :
    e'.stage.state.curIter = .int (i + 1) := by
  obtain ⟨d, s, k, r, hmerge, hk, hstate⟩ := merged_of_iterate ha h
  have hs : s.curIter = .int i :=
    (congrArg State.Standing.curIter (State.standing_of_merge hmerge)).trans hi
  rw [hs] at hk
  cases hk
  exact congrArg State.curIter hstate

/-- A preparation does not count. -/
theorem curIter_of_prepare (ha : solver.Abstains) {i : Value R}
    (h : (prepare solver).run e = (.ok (), e')) (hi : e.stage.state.curIter = i) :
    e'.stage.state.curIter = i := by
  rcases state_of_prepare ha h with hsame | ⟨d, newBest, s, r, hmerge, hstate⟩
  · rw [hsame, hi]
  · rw [hstate]
    exact (congrArg State.Standing.curIter (State.standing_of_merge hmerge)).trans hi

/-! ### Notices -/

theorem notices_eq_of_frame (h : e'.frame = e.frame) : e'.notices = e.notices :=
  congrArg (fun f => f.2.2.2) h

theorem keeps_frame_report (event : Event R) :
    Act.Keeps frame (report event : Act R (Executor R V M σ μ) Unit) :=
  keeps_frame_onStage _

/-- An observer is notified whatever comes of it. -/
theorem notices_notifyOne (snapshot : State R V M) (position : Nat)
    (entry : ObserverEntry R V M) (e : Executor R V M σ μ) :
    ((notifyOne snapshot position entry).run e).2.notices =
      ⟨position, snapshot.curIter, snapshot⟩ :: e.notices := by
  unfold notifyOne
  rw [run_bind_of_ok (run_modify _ _)]
  refine notices_eq_of_frame ((?_ : Act.Keeps frame _) _)
  rcases entry.observer.notify snapshot snapshot.curIter with ⟨events, fault⟩
  refine (Act.Keeps.forIn events _ (fun event _ _ => ?_) ()).bind fun _ => ?_
  · exact (keeps_frame_report event).bind fun _ => Act.Keeps.pure _
  · cases fault with
    | none => exact Act.Keeps.pure _
    | some f => exact (Act.Keeps.throw f).ite (keeps_frame_report _)

/-- The notices of an iteration: those who are told of it are told its number and its state. -/
theorem notices_of_forIn (snapshot : State R V M) (chosen : List (Nat × ObserverEntry R V M))
    (h : (forIn chosen PUnit.unit fun (entry : Nat × ObserverEntry R V M) _ => do
        notifyOne snapshot entry.1 entry.2
        pure (ForInStep.yield PUnit.unit) : Act R (Executor R V M σ μ) PUnit).run e =
      (.ok ⟨⟩, e')) :
    e'.notices = (chosen.map fun entry => ⟨entry.1, snapshot.curIter, snapshot⟩).reverse ++
      e.notices := by
  induction chosen generalizing e with
  | nil =>
    cases h
    rfl
  | cons entry rest ih =>
    rw [List.forIn_cons] at h
    obtain ⟨r, v, hone, hrest⟩ := run_bind_eq_ok.mp h
    obtain ⟨_, w, hnotify, hyield⟩ := run_bind_eq_ok.mp hone
    cases hyield
    -- the latest notice stands first
    have hnotices := notices_notifyOne snapshot entry.1 entry.2 e
    rw [hnotify] at hnotices
    rw [ih hrest, hnotices, List.map_cons, List.reverse_cons, List.append_assoc]
    rfl

theorem notices_of_notify {newBest : Bool} (h : (notify newBest).run e = (.ok (), e')) :
    ∃ chosen, wanted e.stage.state.curIter newBest
        ((List.range e.observers.length).zip e.observers) = .ok chosen ∧
      e'.notices = (chosen.map fun entry =>
        ⟨entry.1, e.stage.state.curIter, e.stage.state⟩).reverse ++ e.notices := by
  unfold notify at h
  rw [run_bind_of_ok (run_state e), run_bind_of_ok (run_get e)] at h
  obtain ⟨chosen, v, hwanted, hloop⟩ := run_bind_eq_ok.mp h
  obtain ⟨hchosen, rfl⟩ := run_lift_eq.mp hwanted
  obtain ⟨_, w, hforIn, hend⟩ := run_bind_eq_ok.mp hloop
  cases hend
  exact ⟨chosen, hchosen, notices_of_forIn _ chosen hforIn⟩

/-- The check and the report come before the notifications and leave the notices alone. -/
theorem notices_of_conclude {before : State R V M} {newBest : Bool}
    (h : (conclude before newBest).run e = (.ok (), e')) :
    ∃ chosen, wanted e.stage.state.curIter newBest
        ((List.range e.observers.length).zip e.observers) = .ok chosen ∧
      e'.notices = (chosen.map fun entry =>
        ⟨entry.1, e.stage.state.curIter, e.stage.state⟩).reverse ++ e.notices := by
  unfold conclude at h
  obtain ⟨_, v, hcheck, h₁⟩ := run_bind_eq_ok.mp h
  rw [run_checkInvariants, Prod.mk.injEq] at hcheck
  obtain ⟨-, rfl⟩ := hcheck
  rw [run_bind_of_ok (run_state e)] at h₁
  obtain ⟨_, w, hreport, hnotify⟩ := run_bind_eq_ok.mp h₁
  cases hreport
  obtain ⟨chosen, hchosen, hnotices⟩ := notices_of_notify hnotify
  exact ⟨chosen, hchosen, hnotices⟩

/-- An observer that wants to be told always is among those that are told. -/
theorem mem_of_wanted {iteration : Value R} {newBest : Bool} {i : Nat}
    {entry : ObserverEntry R V M} (hmode : entry.mode = .always) :
    ∀ {entries chosen : List (Nat × ObserverEntry R V M)},
      wanted iteration newBest entries = .ok chosen → (i, entry) ∈ entries → (i, entry) ∈ chosen
  | [], _, _, h => nomatch h
  | (j, other) :: rest, chosen, h, hmem => by
    unfold wanted at h
    obtain ⟨first, hfirst, h⟩ := bind_eq_ok.mp h
    obtain ⟨others, hothers, h⟩ := bind_eq_ok.mp h
    cases h
    rcases List.mem_cons.mp hmem with heq | hmem
    · -- an observer of every iteration is wanted, whatever the others are
      cases heq
      unfold ObserverMode.wants at hfirst
      rw [hmode] at hfirst
      cases hfirst
      exact List.mem_cons_self
    · have hothers := mem_of_wanted hmode hothers hmem
      split
      · exact List.mem_cons_of_mem _ hothers
      · exact hothers

/-- The observers were told of the first `k` iterations and of no other one: who wants to be told
always was told of each. -/
structure Told (observers : List (ObserverEntry R V M)) (k : Nat)
    (notices : List (Notice R V M)) : Prop where
  only : ∀ notice ∈ notices, ∃ i : Nat, 1 ≤ i ∧ i ≤ k ∧ notice.iteration = .int i
  all : ∀ (i position : Nat) (entry : ObserverEntry R V M), 1 ≤ i → i ≤ k →
    observers[position]? = some entry → entry.mode = .always →
      ∃ notice ∈ notices, notice.position = position ∧ notice.iteration = .int i

/-- One more iteration adds its own notices. -/
theorem Told.more {observers : List (ObserverEntry R V M)} {notices : List (Notice R V M)}
    (h : Told observers k notices) {chosen : List (Nat × ObserverEntry R V M)} {newBest : Bool}
    {s : State R V M} (hs : s.curIter = .int ((k : Int) + 1))
    (hchosen : wanted s.curIter newBest ((List.range observers.length).zip observers) =
      .ok chosen) :
    Told observers (k + 1)
      ((chosen.map fun entry => ⟨entry.1, s.curIter, s⟩).reverse ++ notices) where
  only notice hnotice := by
    rcases List.mem_append.mp hnotice with hnew | hold
    · obtain ⟨entry, -, rfl⟩ := List.mem_map.mp (List.mem_reverse.mp hnew)
      exact ⟨k + 1, by omega, by omega, hs⟩
    · obtain ⟨i, hi, hik, hiteration⟩ := h.only notice hold
      exact ⟨i, hi, by omega, hiteration⟩
  all i position entry hi hik hposition hmode := by
    rcases Nat.lt_or_eq_of_le hik with hlt | rfl
    · obtain ⟨notice, hmem, hnotice⟩ := h.all i position entry hi (by omega) hposition hmode
      exact ⟨notice, List.mem_append_right _ hmem, hnotice⟩
    · obtain ⟨hlt, -⟩ := List.getElem?_eq_some_iff.mp hposition
      -- the new iteration is told to whom it is due, and that one always is
      have hzip : ((List.range observers.length).zip observers)[position]? =
          some (position, entry) := by
        rw [List.getElem?_zip_eq_some]
        exact ⟨List.getElem?_range hlt, hposition⟩
      have hmem := mem_of_wanted hmode hchosen (List.mem_of_getElem? hzip)
      refine ⟨⟨position, s.curIter, s⟩, List.mem_append_left _ ?_, rfl, hs⟩
      exact List.mem_reverse.mpr (List.mem_map.mpr ⟨_, hmem, rfl⟩)

/-! ### Wherever a run has been -/

/-- The executor has made `k` iterations and told its observers of them. -/
structure StandsAt (observers : List (ObserverEntry R V M)) (k : Nat) (e : Executor R V M σ μ) :
    Prop where
  counter : e.stage.state.curIter = .int k
  observed : e.observers = observers
  told : Told observers k e.notices

theorem StandsAt.step {observers : List (ObserverEntry R V M)} (ha : solver.Abstains)
    (he : StandsAt observers k e) (h : (step solver).run e = (.ok (), e')) :
    StandsAt observers (k + 1) e' := by
  obtain ⟨newBest, u, hiterate, hconclude⟩ := step_eq_ok.mp h
  -- the iteration itself notifies nobody
  have hframe : u.frame = e.frame := (keeps_frame_iterate solver).run_eq hiterate
  have hobserved : u.observers = observers :=
    (congrArg (fun f => f.2.1) hframe).trans he.observed
  have hcounter : u.stage.state.curIter = .int ((k : Int) + 1) :=
    curIter_of_iterate ha hiterate he.counter
  have huntold : e'.untold = u.untold := (keeps_untold_conclude _ _).run_eq hconclude
  refine ⟨?_, ?_, ?_⟩
  · exact (congrArg (fun e => e.stage.state.curIter) huntold).trans hcounter
  · exact (congrArg Executor.observers huntold).trans hobserved
  · obtain ⟨chosen, hchosen, hnotices⟩ := notices_of_conclude hconclude
    have htold : Told observers k u.notices := by
      rw [notices_eq_of_frame hframe]
      exact he.told
    rw [hnotices]
    exact htold.more hcounter (hobserved ▸ hchosen)

/-- Wherever a run of a solver that does not assign to the state has been, it stands at its
iteration. -/
theorem standsAt_of_reached (ha : solver.Abstains) {memory : μ} {session : Session R σ}
    {config : Config R V} {observers : List (ObserverEntry R V M)}
    (h : Reached solver (ready memory session config observers) k e) : StandsAt observers k e := by
  obtain ⟨e₀, hprepare, hiterated⟩ := h
  have hframe := (keeps_frame_prepare solver).run_eq hprepare
  have h₀ : StandsAt observers 0 e₀ := by
    refine ⟨curIter_of_prepare ha hprepare rfl, congrArg (fun f => f.2.1) hframe, ?_⟩
    rw [notices_eq_of_frame hframe]
    exact ⟨nofun, fun _ _ _ hi hi' => by omega⟩
  induction hiterated with
  | none => exact h₀
  | more _ _ done ih => exact ih.step ha done

/-! ### Concluding beside observers that do not interrupt -/

/-- The observer does not interrupt, and when it is told can be decided. -/
structure Quiet (entry : ObserverEntry R V M) : Prop where
  decided : ∀ (i : Int) newBest, ∃ b, entry.mode.wants entry.period (.int i) newBest = .ok b
  calm : ∀ s k f, (entry.observer.notify s k).2 = some f → f.isInterrupt = false

theorem wanted_of_quiet (i : Int) (newBest : Bool) :
    ∀ {entries : List (Nat × ObserverEntry R V M)}, (∀ entry ∈ entries, Quiet entry.2) →
      ∃ chosen, wanted (.int i) newBest entries = .ok chosen
  | [], _ => ⟨[], rfl⟩
  | (j, entry) :: rest, h => by
    obtain ⟨b, hb⟩ := (h (j, entry) List.mem_cons_self).decided i newBest
    obtain ⟨others, hothers⟩ := wanted_of_quiet i newBest fun entry hentry =>
      h entry (List.mem_cons_of_mem _ hentry)
    refine ⟨if b then (j, entry) :: others else others, ?_⟩
    unfold wanted
    rw [hb, hothers]
    rfl

/-- Notifying an observer that does not interrupt does not fail. -/
theorem faultsIn_notifyOne_of_quiet (snapshot : State R V M) (position : Nat)
    {entry : ObserverEntry R V M} (h : Quiet entry) :
    Act.FaultsIn (fun _ => False)
      (notifyOne snapshot position entry : Act R (Executor R V M σ μ) Unit) := by
  unfold notifyOne
  refine Act.FaultsIn.bind (.modify _) fun _ => ?_
  rcases hnotify : entry.observer.notify snapshot snapshot.curIter with ⟨events, fault⟩
  refine (Act.FaultsIn.forIn events _ (fun event _ _ => ?_) ()).bind fun _ => ?_
  · exact (faultsIn_report event).bind fun _ => .pure _
  · cases fault with
    | none => exact .pure _
    | some f =>
      dsimp only
      rw [h.calm snapshot snapshot.curIter f (by rw [hnotify]), if_neg Bool.false_ne_true]
      exact faultsIn_report _

theorem notify_ne_error_of_quiet {newBest : Bool} {i : Int} {f : Fault R}
    (hcounter : e.stage.state.curIter = .int i) (hquiet : ∀ entry ∈ e.observers, Quiet entry) :
    (notify newBest).run e ≠ (.error f, e') := by
  intro h
  unfold notify at h
  rw [run_bind_of_ok (run_state e), run_bind_of_ok (run_get e), hcounter] at h
  have hentries : ∀ entry ∈ (List.range e.observers.length).zip e.observers, Quiet entry.2 :=
    fun entry hentry => hquiet _ (List.of_mem_zip hentry).2
  rcases run_bind_eq_error.mp h with hwanted | ⟨chosen, u, hwanted, hloop⟩
  · obtain ⟨chosen, hchosen⟩ := wanted_of_quiet i newBest hentries
    rw [(run_lift_eq.mp hwanted).1] at hchosen
    cases hchosen
  · have hsub := subset_of_wanted (run_lift_eq.mp hwanted).1
    refine Act.FaultsIn.bind (p := fun _ => False)
      (Act.FaultsIn.forIn chosen _ (fun entry hentry _ => ?_) ()) (fun _ => .pure _) u f e' hloop
    exact (faultsIn_notifyOne_of_quiet _ _ (hentries entry (hsub hentry))).bind fun _ => .pure _

/-- The end of an iteration does not fail on a state that is as it should be. -/
theorem conclude_of_quiet {before : State R V M} {newBest : Bool} {i : Int}
    (hcounter : e.stage.state.curIter = .int i) (hquiet : ∀ entry ∈ e.observers, Quiet entry)
    (hcheck : e.stage.session.debug = true →
      e.stage.state.check before.curIter before.bestCost = .ok ()) :
    ∃ e', (conclude before newBest).run e = (.ok (), e') := by
  have hchecked : (checkInvariants before).run e = (.ok (), e) := by
    rw [run_checkInvariants]
    cases hdebug : e.stage.session.debug with
    | true => rw [if_pos rfl, hcheck hdebug]
    | false => rfl
  rcases h : (conclude before newBest).run e with ⟨f | _, e'⟩
  · unfold conclude at h
    rw [run_bind_of_ok hchecked, run_bind_of_ok (run_state e)] at h
    rcases run_bind_eq_error.mp h with hreport | ⟨_, u, hreport, hnotify⟩
    · cases hreport
    · cases hreport
      exact absurd hnotify (notify_ne_error_of_quiet hcounter hquiet)
  · exact ⟨e', rfl⟩

/-- An iteration is completed once its verdict is recorded; what is told then changes nothing
else. -/
theorem step_of_iterate {newBest : Bool} {i : Int} (h : (iterate solver).run e = (.ok newBest, u))
    (hcounter : u.stage.state.curIter = .int i) (hquiet : ∀ entry ∈ u.observers, Quiet entry)
    (hcheck : u.stage.session.debug = true →
      u.stage.state.check e.stage.state.curIter e.stage.state.bestCost = .ok ()) :
    ∃ e', (step solver).run e = (.ok (), e') ∧ e'.untold = u.untold := by
  obtain ⟨e', hconclude⟩ : ∃ e', (conclude e.stage.state newBest).run u = (.ok (), e') :=
    conclude_of_quiet hcounter hquiet hcheck
  refine ⟨e', step_eq_ok.mpr ⟨newBest, u, h, hconclude⟩, ?_⟩
  exact (keeps_untold_conclude _ newBest).run_eq hconclude

end Executor

end Descent
