import Descent.Proofs.Run.Accounted
import Descent.Proofs.Run.Faithful
import Descent.Proofs.Run.Unobserved

/-!
# What the observers of a run are told

An observer hears of an iteration that leads from one state to another always, never, where its
period divides the counter, or where the best cost dropped (`ObserverEntry.hears`).  A run tells of
an iteration once it is completed: in the order of the observers it gives each one that hears of it
the counter and the state (`noticesOf`), whether or not others fail.  So what a run has told is told
by the states that it was in (`Executor.Chronicle`), and observers have no part in these
(`run_observed`).
-/

namespace Descent

open Act

variable {R V M σ μ : Type} [Scalar R]

/-! ### Who hears of an iteration -/

/-- The best cost lies strictly below the one before. -/
def State.improvesOn (after before : State R V M) : Bool :=
  match after.bestCost.lt before.bestCost with
  | .ok below => below
  | .error _ => false

/-- Whether an observer hears of the iteration that leads from one state to another. -/
def ObserverEntry.hears (entry : ObserverEntry R V M) (before after : State R V M) : Bool :=
  match entry.mode with
  | .always => true
  | .never => false
  | .every =>
    match entry.period.number?, after.curIter with
    | some (.int period), .int i => decide (period ∣ i)
    | _, _ => false
  | .newBest => after.improvesOn before

/-- The notices of the iteration that leads from one state to another, in the order in which the
observers were added. -/
def noticesOf (observers : List (ObserverEntry R V M)) (before after : State R V M) :
    List (Notice R V M) :=
  (((List.range observers.length).zip observers).filter fun entry =>
    entry.2.hears before after).map fun entry => ⟨entry.1, after.curIter, after⟩

/-- The observer was added with a whole period from one on, and may fail but does not interrupt. -/
structure ObserverEntry.Proper (entry : ObserverEntry R V M) : Prop where
  period : ∃ n : Int, entry.period.number? = some (.int n) ∧ 1 ≤ n
  calm : ∀ s k f, (entry.observer.notify s k).2 = some f → f.isInterrupt = false

/-- A counter is a whole multiple of what divides it. -/
theorem Value.isMultipleOf_int {period : Value R} {n : Int} (hn : period.number? = some (.int n))
    (hpos : 1 ≤ n) (i : Int) : (Value.int i).isMultipleOf period = .ok (decide (n ∣ i)) := by
  unfold isMultipleOf
  rw [hn]
  show (if n = 0 then Except.error Fault.divisionByZero else Except.ok (i % n == 0)) = _
  have hdvd : (i % n == 0) = decide (n ∣ i) := by
    rw [Bool.eq_iff_iff, beq_iff_eq, decide_eq_true_eq, Int.dvd_iff_emod_eq_zero]
  rw [if_neg (by omega), hdvd]

namespace Executor

/-- An observer wants to be told of just what it hears of. -/
theorem wants_eq_hears {entry : ObserverEntry R V M} (h : entry.Proper) (before : State R V M)
    {after : State R V M} {i : Int} (hi : after.curIter = .int i) :
    entry.mode.wants entry.period after.curIter (after.improvesOn before) =
      .ok (entry.hears before after) := by
  unfold ObserverMode.wants ObserverEntry.hears
  cases entry.mode with
  | always | never | newBest => rfl
  | every =>
    obtain ⟨n, hn, hpos⟩ := h.period
    rw [hi, hn]
    exact Value.isMultipleOf_int hn hpos i

theorem quiet_of_proper {entry : ObserverEntry R V M} (h : entry.Proper) : Quiet entry where
  decided i newBest := by
    unfold ObserverMode.wants
    cases entry.mode with
    | always | never | newBest => exact ⟨_, rfl⟩
    | every =>
      obtain ⟨n, hn, hpos⟩ := h.period
      exact ⟨_, Value.isMultipleOf_int hn hpos i⟩
  calm := h.calm

/-- Those are told who hear of the iteration. -/
theorem wanted_eq_filter (before : State R V M) {after : State R V M} {i : Int}
    (hi : after.curIter = .int i) :
    ∀ {entries : List (Nat × ObserverEntry R V M)}, (∀ entry ∈ entries, entry.2.Proper) →
      wanted after.curIter (after.improvesOn before) entries =
        .ok (entries.filter fun entry => entry.2.hears before after)
  | [], _ => rfl
  | (j, entry) :: rest, h => by
    have hfirst := wants_eq_hears (h (j, entry) List.mem_cons_self) before hi
    have hothers := wanted_eq_filter before hi fun other hother =>
      h other (List.mem_cons_of_mem (j, entry) hother)
    unfold wanted
    rw [hfirst, hothers, List.filter_cons]
    rfl

end Executor

/-! ### Whether the best cost dropped -/

theorem Value.lt_self_ne_true [OrderedScalar R] (v : Value R) : v.lt v ≠ .ok true := by
  intro h
  unfold Value.lt Value.compareBy at h
  split at h
  · rename_i s
    rw [Except.ok.injEq, decide_eq_true_eq] at h
    exact String.lt_irrefl s h
  · cases hv : v.number? with
    | none =>
      rw [hv] at h
      cases h
    | some n =>
      rw [hv, Except.ok.injEq] at h
      cases n with
      | int n => exact lt_irrefl n (of_decide_eq_true h)
      | real x => exact OrderedScalar.lt_irrefl x (of_decide_eq_true h)

namespace State

theorem improvesOn_of_bestCost_eq [OrderedScalar R] {s s' : State R V M}
    (h : s'.bestCost = s.bestCost) : s'.improvesOn s = false := by
  unfold improvesOn
  rw [h]
  cases hlt : s.bestCost.lt s.bestCost with
  | error f => rfl
  | ok b =>
    cases b with
    | false => rfl
    | true => exact absurd hlt (Value.lt_self_ne_true _)

/-- A merge tells whether the best cost dropped. -/
theorem improvesOn_of_merge [OrderedScalar R] {s s' : State R V M} {d : Delta R V M} {b : Bool}
    (h : s.merge d = (.ok b, s')) : s'.improvesOn s = b := by
  cases hd : d.cost with
  | none =>
    rw [merge_of_none hd] at h
    cases h
    exact improvesOn_of_bestCost_eq rfl
  | some c =>
    cases hc : c.toReal with
    | error f =>
      rw [merge_of_error hd hc] at h
      cases h
    | ok x =>
      rw [merge_of_ok hd hc] at h
      -- what the merge answers is the comparison that decides on the best cost
      have hfst := (s.facing d).mergeCost_fst x
      rw [h] at hfst
      unfold mergeCost at h
      have hlt : (Value.real x).lt (s.facing d).bestCost = .ok b := hfst.symm
      dsimp only at h
      rw [hlt] at h
      cases b with
      | false =>
        cases h
        exact improvesOn_of_bestCost_eq rfl
      | true =>
        cases h
        unfold improvesOn
        exact congrArg (fun r : Except (Fault R) Bool => match r with
          | .ok below => below
          | .error _ => false) hlt

end State

namespace Executor

variable {solver : Solver R V M σ μ} {e e' u : Executor R V M σ μ}

theorem bestCost_of_iterate (ha : solver.Abstains) [OrderedScalar R] {newBest : Bool}
    (h : (iterate solver).run e = (.ok newBest, e')) :
    e'.stage.state.improvesOn e.stage.state = newBest := by
  obtain ⟨d, s, k, r, hmerge, -, hstate⟩ := merged_of_iterate ha h
  have hnew : s.improvesOn e.stage.state = newBest := State.improvesOn_of_merge hmerge
  rw [hstate]
  exact hnew

/-! ### The notices of an iteration -/

/-- A completed iteration adds the notices of those who hear of it. -/
theorem notices_of_step [OrderedScalar R] (ha : solver.Abstains)
    (hproper : ∀ entry ∈ e.observers, entry.Proper) {i : Int}
    (hi : e.stage.state.curIter = .int i) (h : (step solver).run e = (.ok (), e')) :
    e'.notices =
      (noticesOf e.observers e.stage.state e'.stage.state).reverse ++ e.notices := by
  obtain ⟨newBest, u, hiterate, hconclude⟩ := step_eq_ok.mp h
  have hframe : u.frame = e.frame := (keeps_frame_iterate solver).run_eq hiterate
  have hobserved : u.observers = e.observers := congrArg (fun f => f.2.1) hframe
  have hcounter : u.stage.state.curIter = .int (i + 1) := curIter_of_iterate ha hiterate hi
  have hstate : e'.stage.state = u.stage.state := state_of_conclude hconclude
  obtain ⟨chosen, hchosen, hnotices⟩ := notices_of_conclude hconclude
  have hentries : ∀ entry ∈ (List.range u.observers.length).zip u.observers, entry.2.Proper :=
    fun entry hentry => hproper _ (hobserved ▸ (List.of_mem_zip hentry).2)
  have hfilter := wanted_eq_filter e.stage.state hcounter hentries
  rw [bestCost_of_iterate ha hiterate] at hfilter
  have hchosen' : chosen = ((List.range u.observers.length).zip u.observers).filter fun entry =>
      entry.2.hears e.stage.state u.stage.state :=
    Except.ok.inj (hchosen.symm.trans hfilter)
  rw [hnotices, hstate, hchosen', hobserved]
  exact congrArg (_ ++ ·) (notices_eq_of_frame hframe)

/-- An iteration that fails is told to nobody. -/
theorem notices_of_step_error (hproper : ∀ entry ∈ e.observers, entry.Proper)
    (ha : solver.Abstains) {i : Int} (hi : e.stage.state.curIter = .int i) {f : Fault R}
    (h : (step solver).run e = (.error f, e')) : e'.notices = e.notices := by
  rcases step_eq_error.mp h with hiterate | ⟨newBest, u, hiterate, hconclude⟩
  · exact notices_eq_of_frame ((keeps_frame_iterate solver).run_eq hiterate)
  · have hframe : u.frame = e.frame := (keeps_frame_iterate solver).run_eq hiterate
    have hobserved : u.observers = e.observers := congrArg (fun f => f.2.1) hframe
    have hquiet : ∀ entry ∈ u.observers, Quiet entry := fun entry hentry =>
      quiet_of_proper (hproper entry (hobserved ▸ hentry))
    -- the notifications do not fail, so the check did
    have hresult := run_conclude_of_quiet e.stage.state newBest
      (curIter_of_iterate ha hiterate hi) hquiet
    rw [hconclude] at hresult
    have hfailed : (checkInvariants e.stage.state).run u = (.error f, u) := by
      refine Prod.ext hresult.symm ?_
      rw [run_checkInvariants]
    unfold conclude at hconclude
    rw [run_bind_of_error hfailed] at hconclude
    cases hconclude
    exact notices_eq_of_frame hframe

/-! ### The ceiling -/

/-- What merging, counting and deciding leave alone, iterations leave alone. -/
theorem state_keeps_of_reached {κ : Type} {f : State R V M → κ} (ha : solver.Abstains)
    (hmerge : ∀ s d, f (s.merge d).2 = f s) (hcount : ∀ s k, f { s with curIter := k } = f s)
    (hdecide : ∀ s r, f { s with reason := r } = f s) {k : Nat} (h : Reached solver e k u) :
    f u.stage.state = f (begun solver e).stage.state := by
  have hmerged : ∀ {s s' : State R V M} {d newBest}, s.merge d = (.ok newBest, s') → f s' = f s :=
    fun {s s' d newBest} h => by rw [← hmerge s d, h]
  refine h.induct (P := fun u => f u.stage.state = f (begun solver e).stage.state) ?_ ?_
  · intro e₀ hprepare
    rcases state_of_prepare ha hprepare with hsame | ⟨d, newBest, s, r, hs, hstate⟩
    · rw [hsame]
    · rw [hstate, hdecide, hmerged hs]
  · intro v w hv _ hstep
    obtain ⟨newBest, x, hiterate, hconclude⟩ := step_eq_ok.mp hstep
    obtain ⟨d, s, k, r, hs, -, hstate⟩ := merged_of_iterate ha hiterate
    calc f w.stage.state = f { { s with curIter := k } with reason := r } := by
          rw [state_of_conclude hconclude, hstate]
      _ = f v.stage.state := by rw [hdecide, hcount, hmerged hs]
      _ = f (begun solver e).stage.state := hv

theorem maxIters_of_reached (ha : solver.Abstains) {k : Nat} (h : Reached solver e k u) :
    u.stage.state.maxIters = e.config.maxIters :=
  state_keeps_of_reached ha
    (fun s d => congrArg State.Standing.maxIters (s.merge_standing d)) (fun _ _ => rfl)
    (fun _ _ => rfl) h

/-- An iteration is due below the ceiling only. -/
theorem lt_of_due {s : State R V M} {i n : Int} (hi : s.curIter = .int i)
    (hn : s.maxIters.number? = some (.int n)) (hdue : continues s = .ok true) : i < n := by
  unfold continues at hdue
  split at hdue
  · cases hdue
  · rw [hi, Value.lt_of_number? (v := .int i) rfl hn, Except.ok.injEq] at hdue
    exact of_decide_eq_true hdue

/-- An iteration that is due below an integer ceiling has fuel. -/
theorem lt_fuel_of_due (ha : solver.Abstains) {memory : μ} {session : Session R σ}
    {config : Config R V} {observers : List (ObserverEntry R V M)} {ceiling : Int}
    (hceiling : config.maxIters.number? = some (.int ceiling)) {k : Nat}
    (h : Reached solver (ready memory session config observers) k u)
    (hdue : continues u.stage.state = .ok true) : k < fuel config.maxIters := by
  have hmax : u.stage.state.maxIters = config.maxIters := maxIters_of_reached ha h
  have hlt := lt_of_due (standsAt_of_reached ha h).counter (hmax ▸ hceiling) hdue
  have hfuel : ceiling < fuel config.maxIters := lt_fuel hceiling
  omega

/-! ### The states of a run -/

/-- Where no further iteration is completed, those before are all that a run makes. -/
theorem exists_reached_iff {k : Nat} (h : Reached solver e k u)
    (hlast : ∀ v, continues u.stage.state = .ok true → (step solver).run u ≠ (.ok (), v))
    (j : Nat) : (∃ v, Reached solver e j v) ↔ j < k + 1 := by
  constructor
  · rintro ⟨v, hv⟩
    by_contra hlt
    obtain ⟨w, hw⟩ := hv.of_le (Nat.not_lt.mp hlt)
    obtain ⟨u', hu', hdue, hstep⟩ := hw.before
    obtain rfl := h.unique hu'
    exact hlast w hdue hstep
  · intro hlt
    exact h.of_le (Nat.le_of_lt_succ hlt)

/-- The state of a run after a number of iterations, where it has one. -/
noncomputable def trail (solver : Solver R V M σ μ) (e : Executor R V M σ μ) (k : Nat) :
    State R V M :=
  Classical.epsilon (Visits solver e k)

/-- A run is in `n` states, one after the preparation and after each iteration, and the notices are
those of the iterations between them, in their order. -/
structure Chronicle (solver : Solver R V M σ μ) (e : Executor R V M σ μ)
    (notices : List (Notice R V M)) (n : Nat) (states : Nat → State R V M) : Prop where
  visits : ∀ k s, Visits solver e k s ↔ k < n ∧ s = states k
  counted : ∀ k < n, (states k).curIter = .int k
  told : notices.reverse =
    (List.range (n - 1)).flatMap fun k => noticesOf e.observers (states k) (states (k + 1))

theorem visits_iff_trail {k : Nat} {s : State R V M} :
    Visits solver e k s ↔ (∃ u, Reached solver e k u) ∧ s = trail solver e k := by
  have htrail : ∀ {u : Executor R V M σ μ}, Reached solver e k u →
      u.stage.state = trail solver e k := by
    intro u hu
    have hspec : Visits solver e k (trail solver e k) :=
      Classical.epsilon_spec (p := Visits solver e k) ⟨_, u, hu, rfl⟩
    obtain ⟨v, hv, hs⟩ := hspec
    rw [← hs, hu.unique hv]
  constructor
  · rintro ⟨u, hu, rfl⟩
    exact ⟨⟨u, hu⟩, htrail hu⟩
  · rintro ⟨⟨u, hu⟩, rfl⟩
    exact ⟨u, hu, htrail hu⟩

theorem Reached.state_eq_trail {k : Nat} (h : Reached solver e k u) :
    u.stage.state = trail solver e k :=
  (visits_iff_trail.mp ⟨u, h, rfl⟩).2

section

variable [OrderedScalar R] (ha : solver.Abstains) {memory : μ} {session : Session R σ}
  {config : Config R V} {observers : List (ObserverEntry R V M)}
  (hproper : ∀ entry ∈ observers, entry.Proper)

include ha hproper

/-- Wherever a run has been, it has told of its iterations. -/
theorem notices_of_reached {k : Nat}
    (h : Reached solver (ready memory session config observers) k u) :
    u.notices.reverse = (List.range k).flatMap fun j =>
      noticesOf observers (trail solver (ready memory session config observers) j)
        (trail solver (ready memory session config observers) (j + 1)) := by
  induction k generalizing u with
  | zero =>
    have hframe := (keeps_frame_prepare solver).run_eq (reached_zero.mp h)
    rw [notices_eq_of_frame hframe]
    rfl
  | succ k ih =>
    obtain ⟨v, hv, -, hstep⟩ := h.before
    have hstands := standsAt_of_reached ha hv
    have hnotices := notices_of_step ha (hstands.observed ▸ hproper) hstands.counter hstep
    rw [hnotices, List.reverse_append, List.reverse_reverse, ih hv, List.range_succ,
      List.flatMap_append, List.flatMap_singleton, hstands.observed, hv.state_eq_trail,
      h.state_eq_trail]

/-- A run that makes no further iteration has a chronicle. -/
theorem chronicle_of_last {k : Nat}
    (h : Reached solver (ready memory session config observers) k u)
    (hlast : ∀ v, continues u.stage.state = .ok true → (step solver).run u ≠ (.ok (), v)) :
    Chronicle solver (ready memory session config observers) u.notices (k + 1)
      (trail solver (ready memory session config observers)) where
  visits j s := by rw [visits_iff_trail, exists_reached_iff h hlast]
  counted j hj := by
    obtain ⟨v, hv⟩ := h.of_le (Nat.le_of_lt_succ hj)
    rw [← hv.state_eq_trail]
    exact (standsAt_of_reached ha hv).counter
  told := notices_of_reached ha hproper h

variable (memory session)

/-- A run is driven through finitely many states, and tells of the iterations between them. -/
theorem chronicle_of_drive {ceiling : Int}
    (hceiling : config.maxIters.number? = some (.int ceiling)) :
    ∃ n, Chronicle solver (ready memory session config observers)
      ((drive solver).run (begun solver (ready memory session config observers))).2.notices n
      (trail solver (ready memory session config observers)) := by
  rcases hdrive : (drive solver).run (begun solver (ready memory session config observers)) with
    ⟨f | _, u⟩
  · rcases drive_eq_error hdrive with hprepare | ⟨k, v, hv, hend⟩
    · -- the preparation fails
      have hnone : ∀ j v, ¬ Reached solver (ready memory session config observers) j v := by
        intro j v hv
        obtain ⟨w, hw⟩ := hv.of_le (Nat.zero_le j)
        -- an iteration that was reached has a preparation that succeeded
        have hsame := reached_zero.mp hw
        rw [hprepare] at hsame
        cases hsame
      refine ⟨0, fun k s => ⟨?_, fun h => absurd h.1 (Nat.not_lt_zero k)⟩, nofun, ?_⟩
      · rintro ⟨v, hv, -⟩
        exact absurd hv (hnone k v)
      · exact congrArg List.reverse
          (notices_eq_of_frame ((keeps_frame_prepare solver).run_eq hprepare))
    · have hstands := standsAt_of_reached ha hv
      rcases hend with ⟨hcontinues, rfl⟩ | ⟨hdue, hstep | ⟨hk, -, -⟩⟩
      · refine ⟨k + 1, chronicle_of_last ha hproper hv fun w hdue _ => ?_⟩
        rw [hcontinues] at hdue
        cases hdue
      · have hnotices := notices_of_step_error (hstands.observed ▸ hproper) ha hstands.counter hstep
        refine ⟨k + 1, hnotices ▸ chronicle_of_last ha hproper hv fun w _ hok => ?_⟩
        rw [hstep] at hok
        cases hok
      · -- there is fuel for more iterations than are due below the ceiling
        exact absurd hk (Nat.ne_of_lt (lt_fuel_of_due ha hceiling hv hdue))
  · -- the run ends where no iteration is due
    obtain ⟨k, hu, hcontinues⟩ := drive_eq_ok hdrive
    refine ⟨k + 1, chronicle_of_last ha hproper hu fun w hdue _ => ?_⟩
    rw [hcontinues] at hdue
    cases hdue

/-- So does a run that is started. -/
theorem chronicle_of_run {ceiling : Int}
    (hceiling : config.maxIters.number? = some (.int ceiling)) (hvalid : config.validate = .ok ()) :
    ∃ n, Chronicle solver (ready memory session config observers)
      ((run solver).run (ready memory session config observers)).2.notices n
      (trail solver (ready memory session config observers)) := by
  obtain ⟨n, hn⟩ := chronicle_of_drive ha memory session hproper hceiling
  refine ⟨n, ?_⟩
  rw [(record_of_run (e := ready memory session config observers) rfl hvalid).1]
  exact hn

end

/-- **Observers have no part in a run and are told of just its iterations.**  A solver that does not
assign to the state and does not read what was reported is run with two lists of observers that may
fail but do not interrupt.  Both runs are at the same point after each iteration, with the same
calls charged and made, and have the same outcome and status.  If the configuration is refused,
nobody is told anything; else the notices are those of the iterations between the states of the run:
for each iteration, and each observer that hears of it in the order in which they were added, the
counter and the state after that iteration. -/
theorem run_observed [OrderedScalar R] (solver : Solver R V M σ μ) (ha : solver.Abstains)
    (hdeaf : solver.Deaf) (memory : μ) (session : Session R σ) (config : Config R V) (ceiling : Int)
    (hceiling : config.maxIters.number? = some (.int ceiling))
    (observers observers' : List (ObserverEntry R V M))
    (hproper : ∀ entry ∈ observers, entry.Proper)
    (hproper' : ∀ entry ∈ observers', entry.Proper) :
    Undisturbed solver (ready memory session config observers)
        (ready memory session config observers') ∧
      (∀ f, config.validate = .error f →
        ((run solver).run (ready memory session config observers)).2.notices = []) ∧
      (config.validate = .ok () → ∃ n states,
        Chronicle solver (ready memory session config observers)
          ((run solver).run (ready memory session config observers)).2.notices n states) := by
  refine ⟨?_, fun f hf => ?_, fun hvalid => ?_⟩
  · exact undisturbed_of_quiet hdeaf ha (fun entry h => quiet_of_proper (hproper entry h))
      fun entry h => quiet_of_proper (hproper' entry h)
  · rw [run_of_invalid (e := ready memory session config observers) rfl hf]
    rfl
  · obtain ⟨n, hn⟩ := chronicle_of_run ha memory session hproper hceiling hvalid
    exact ⟨n, _, hn⟩

/-- Observers of a run down the bowl: one that fails whatever it is told, one that keeps the states
in which the best cost dropped, and one that keeps every second state. -/
def bowlObservers : List (ObserverEntry Float (Tensor Float) (Curvature Float)) :=
  [⟨⟨"Broken", fun _ _ => ([], some (.raised "RuntimeError" "broke"))⟩, .always, .int 1⟩,
    ⟨.history, .newBest, .int 1⟩, ⟨.history, .every, .int 2⟩]

theorem proper_bowlObservers : ∀ entry ∈ bowlObservers, entry.Proper := by
  have hhistory : ∀ s k f, ((Observer.history (R := Float) (V := Tensor Float)
      (M := Curvature Float)).notify s k).2 = some f → f.isInterrupt = false := by
    intro s k f h
    exact absurd h (Option.some_ne_none f).symm
  unfold bowlObservers
  rw [List.forall_mem_cons, List.forall_mem_cons, List.forall_mem_singleton]
  refine ⟨⟨⟨1, rfl, by decide⟩, fun s k f hf => ?_⟩, ⟨⟨1, rfl, by decide⟩, hhistory⟩,
    ⟨⟨2, rfl, by decide⟩, hhistory⟩⟩
  cases hf
  decide

/-- The trust-region method with Cauchy points, on the bowl with its calls recorded. -/
def recordedCauchy : Solver Float (Tensor Float) (Curvature Float)
    (Unit × List (Evaluation Float (Tensor Float) (Curvature Float)))
    (Memory Float (Tensor Float) (Curvature Float)) :=
  Method.widen (Memory.trusted 1.0) (fun m => .trust m.working m.sub)
    (TrustRegion.algorithm bowl.recorded (Method.subproblem .cauchy) cauchyTrust).toSolver

/-- A trust-region run down the bowl makes the same calls whether or not it is observed, and tells
its observers of its two iterations. -/
theorem run_observed_bowl :
    let session : Session Float (Unit × List (Evaluation Float (Tensor Float) (Curvature Float))) :=
      ⟨{}, ((), []), [], true, 0.0⟩
    let config : Config Float (Tensor Float) := { param := some (.vector .numpy [2.0]) }
    Undisturbed recordedCauchy (ready .plain session config bowlObservers)
        (ready .plain session config []) ∧
      (∃ n states, Chronicle recordedCauchy (ready .plain session config bowlObservers)
        ((run recordedCauchy).run (ready .plain session config bowlObservers)).2.notices n
          states) ∧
      ((run recordedCauchy).run (ready .plain session config bowlObservers)).2.notices.reverse.map
        Notice.position = [0, 1, 0, 1, 2] := by
  intro session config
  have hsolver : (Method.trustRegion .cauchy cauchyTrust).solver bowl.recorded =
      some recordedCauchy := rfl
  have hdescends : (Method.trustRegion .cauchy cauchyTrust :
      Method Float (Tensor Float) (Curvature Float)).Descends := .trustRegion _ _
  have hvalid : config.validate = .ok () := Act.toOption_eq_some.mp (by decide +kernel)
  obtain ⟨hundisturbed, -, hchronicle⟩ := run_observed recordedCauchy (hdescends.abstains hsolver)
    (hdescends.deaf hsolver session) .plain session config unlimited rfl bowlObservers []
    proper_bowlObservers nofun
  refine ⟨hundisturbed, hchronicle hvalid, ?_⟩
  decide +kernel

end Executor

end Descent
