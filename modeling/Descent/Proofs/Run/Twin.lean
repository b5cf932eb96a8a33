import Descent.Proofs.Run.Beside
import Descent.Proofs.Run.Unobserved
import Descent.Proofs.State.Twin

/-!
# Runs on Hessians that stand for one map

Two solvers are twins if, on stages that differ in their Hessians only, their steps answer with
deltas that do, or fail alike (`Solver.Twin`).  Nothing that a run does with a state looks at the
Hessian there: not the merge, the counter, the verdict, the check of the invariants, nor which
observers are told.  So twins are at twin states after every iteration, and end alike
(`Executor.counterparts`).

Observers are shown the state, the Hessian included, and may report it.  So the runs are compared
but for what was reported, and an observer must not let the Hessian decide whether it interrupts
(`Observer.Unswayed`).
-/

namespace Descent

open Act LinearAction

variable {R V M σ μ ν α β : Type} [Scalar R] [LinearAction R V M] {mem : μ → ν → Prop}

/-! ### Stages -/

/-- Two stages at a point that differ in their Hessians and their memories only, which are related,
and in what was reported. -/
structure Stage.Twin (mem : μ → ν → Prop) (t : Stage R V M σ μ) (u : Stage R V M σ ν) : Prop where
  memory : mem t.memory u.memory
  state : State.Placed State.Twin t.state u.state
  session : t.session.untold = u.session.untold

/-- Two solvers whose steps answer with twins. -/
structure Solver.Twin (mem : μ → ν → Prop) (a : Solver R V M σ μ) (b : Solver R V M σ ν) :
    Prop where
  name : a.name = b.name
  init : Related (Stage.Twin mem) (Option.Rel Delta.Twin) a.init b.init
  next : Related (Stage.Twin mem) (Option.Rel Delta.Twin) a.next b.next
  terminate : Related (Stage.Twin mem) Eq a.terminate b.terminate

/-! ### Observers -/

/-- The fault with which an observer that is told of a state interrupts the run, if it does. -/
def Observer.interruption (o : Observer R V M) (s : State R V M) : Option (Fault R) :=
  (o.notify s s.curIter).2.filter Fault.isInterrupt

/-- Whether the observer interrupts does not depend on the Hessian. -/
def Observer.Unswayed (o : Observer R V M) : Prop :=
  ∀ s s' : State R V M, s.Twin s' → o.interruption s = o.interruption s'

namespace Executor

omit [LinearAction R V M] in
/-- Notifying an observer fails if the observer interrupts, and only then. -/
theorem fault_of_notifyOne (snapshot : State R V M) (position : Nat)
    (entry : ObserverEntry R V M) (e : Executor R V M σ μ) :
    ((notifyOne snapshot position entry).run e).1 =
      (entry.observer.interruption snapshot).elim (.ok ()) .error := by
  unfold notifyOne Observer.interruption
  rw [run_bind_of_ok (run_modify _ _)]
  rcases entry.observer.notify snapshot snapshot.curIter with ⟨events, fault⟩
  -- the reports of an observer raise nothing
  have hreports : Act.FaultsIn (fun _ => False)
      (forIn events PUnit.unit fun event _ => (do
        report event
        pure (.yield PUnit.unit) : Act R (Executor R V M σ μ) (ForInStep PUnit))) :=
    Act.FaultsIn.forIn events _ (fun event _ _ => (faultsIn_report event).bind fun _ => .pure _)
      ()
  dsimp only
  rw [run_bind]
  rcases hrun : Act.run _ _ with ⟨f | _, u⟩
  · exact (hreports _ f u hrun).elim
  · cases fault with
    | none => rfl
    | some f =>
      dsimp only
      cases hf : f.isInterrupt with
      | true =>
        rw [Option.filter_some_pos hf]
        rfl
      | false =>
        rw [Option.filter_some_neg hf]
        rfl

/-! ### Executors -/

/-- Two executors whose states are `like` each other, and that differ besides in their memories,
which are related, in what was reported and in the Hessians that their observers were shown. -/
structure Likened (mem : μ → ν → Prop) (like : State R V M → State R V M → Prop)
    (e : Executor R V M σ μ) (e' : Executor R V M σ ν) : Prop where
  config : e.config = e'.config
  observers : e.observers = e'.observers
  unswayed : ∀ entry ∈ e.observers, entry.observer.Unswayed
  status : e.status = e'.status
  memory : mem e.stage.memory e'.stage.memory
  state : like e.stage.state e'.stage.state
  session : e.stage.session.untold = e'.stage.session.untold
  notices : List.Forall₂ (Notice.Alike State.Twin) e.notices e'.notices

/-- Two executors in the middle of their runs that are twins. -/
abbrev Twins (mem : μ → ν → Prop) : Executor R V M σ μ → Executor R V M σ ν → Prop :=
  Likened mem (State.Placed State.Twin)

section

variable {like like' : State R V M → State R V M → Prop} {e e₁ : Executor R V M σ μ}
  {e' e₁' : Executor R V M σ ν}

theorem Likened.withStage (h : Likened mem like e e') {t : Stage R V M σ μ} {u : Stage R V M σ ν}
    (hmemory : mem t.memory u.memory) (hstate : like' t.state u.state)
    (hsession : t.session.untold = u.session.untold) :
    Likened mem like' (e.withStage t) (e'.withStage u) :=
  ⟨h.config, h.observers, h.unswayed, h.status, hmemory, hstate, hsession, h.notices⟩

/-- What is told changes nothing that twins have in common but their notices. -/
theorem Likened.of_untold (h : Likened mem like e e') (he : e₁.untold = e.untold)
    (he' : e₁'.untold = e'.untold)
    (hnotices : List.Forall₂ (Notice.Alike State.Twin) e₁.notices e₁'.notices) :
    Likened mem like e₁ e₁' := by
  -- whatever does not depend on what was told is unchanged
  have hsame {κ : Type} (f : Executor R V M σ μ → κ) : f e₁.untold = f e.untold := congrArg f he
  have hsame' {κ : Type} (f : Executor R V M σ ν → κ) : f e₁'.untold = f e'.untold :=
    congrArg f he'
  have hobservers : e₁.observers = e.observers := hsame Executor.observers
  refine ⟨?_, ?_, ?_, ?_, ?_, ?_, ?_, hnotices⟩
  · exact (hsame Executor.config).trans (h.config.trans (hsame' Executor.config).symm)
  · exact hobservers.trans (h.observers.trans (hsame' Executor.observers).symm)
  · rw [hobservers]
    exact h.unswayed
  · exact (hsame Executor.status).trans (h.status.trans (hsame' Executor.status).symm)
  · have hmemory : e₁.stage.memory = e.stage.memory := hsame fun u => u.stage.memory
    have hmemory' : e₁'.stage.memory = e'.stage.memory := hsame' fun u => u.stage.memory
    rw [hmemory, hmemory']
    exact h.memory
  · have hstate : e₁.stage.state = e.stage.state := hsame fun u => u.stage.state
    have hstate' : e₁'.stage.state = e'.stage.state := hsame' fun u => u.stage.state
    rw [hstate, hstate']
    exact h.state
  · exact (hsame fun u => u.stage.session).trans
      (h.session.trans (hsame' fun u => u.stage.session).symm)

theorem Likened.mono (h : Likened mem like e e') (hlike : ∀ s s', like s s' → like' s s') :
    Likened mem like' e e' :=
  ⟨h.config, h.observers, h.unswayed, h.status, h.memory, hlike _ _ h.state, h.session, h.notices⟩

end

variable {a : Solver R V M σ μ} {b : Solver R V M σ ν}

/-! ### Iterations -/

theorem onStage_twin {Q : α → β → Prop} {x : Act R (Stage R V M σ μ) α}
    {y : Act R (Stage R V M σ ν) β} (h : Related (Stage.Twin mem) Q x y) :
    Related (Twins mem) Q (onStage x) (onStage y) := by
  intro e e' he
  obtain ⟨ht, hr⟩ := h e.stage e'.stage ⟨he.memory, he.state, he.session⟩
  exact ⟨he.withStage ht.memory ht.state ht.session, hr⟩

theorem changeState_twin {f g : State R V M → State R V M}
    (h : ∀ s s', State.Placed State.Twin s s' → State.Placed State.Twin (f s) (g s')) :
    Related (Twins mem) Eq (changeState f : Act R (Executor R V M σ μ) Unit)
      (changeState g : Act R (Executor R V M σ ν) Unit) :=
  .modify fun _ _ he => he.withStage he.memory (h _ _ he.state) he.session

theorem state_twin :
    Related (Twins mem) (State.Placed State.Twin)
      (state : Act R (Executor R V M σ μ) (State R V M))
      (state : Act R (Executor R V M σ ν) (State R V M)) :=
  fun _ _ he => ⟨he, .ok he.state⟩

theorem report_twin (event event' : Event R) :
    Related (Twins mem) Eq (report event : Act R (Executor R V M σ μ) Unit)
      (report event' : Act R (Executor R V M σ ν) Unit) :=
  fun _ _ he => ⟨he.of_untold rfl rfl he.notices, .ok rfl⟩

theorem merge_twin {d d' : Delta R V M} (hd : d.Twin d') :
    Related (Twins mem) Eq (merge d : Act R (Executor R V M σ μ) Bool)
      (merge d' : Act R (Executor R V M σ ν) Bool) := by
  intro e e' he
  obtain ⟨hfst, hsnd⟩ := he.state.merge_twin hd
  rw [run_merge, run_merge, hfst]
  exact ⟨he.withStage he.memory hsnd he.session, .refl _⟩

theorem advance_twin :
    Related (Twins mem) Eq (advance : Act R (Executor R V M σ μ) Unit)
      (advance : Act R (Executor R V M σ ν) Unit) := by
  intro e e' he
  rw [run_advance, run_advance]
  generalize hr : e.stage.state.incrementIter = r
  generalize hr' : e'.stage.state.incrementIter = r'
  have hagree : Agree (State.Placed State.Twin) r r' := by
    rw [← hr, ← hr']
    exact he.state.incrementIter_twin
  cases hagree with
  | error f => exact ⟨he, .error f⟩
  | ok hs => exact ⟨he.withStage he.memory hs he.session, .ok rfl⟩

theorem verdict_twin (h : Solver.Twin mem a b) {d d' : Delta R V M} (hd : d.Twin d') :
    Related (Twins mem) Eq (verdict a d) (verdict b d') := by
  unfold verdict
  rw [hd.termination]
  cases d.termination.filter Reason.isTerminal with
  | some r => exact .pure rfl
  | none =>
    refine (onStage_twin h.terminate).bind_eq fun r => (Related.pure rfl).ite ?_
    refine state_twin.bind fun s s' hs => ?_
    rw [hs.2.same (f := State.targetReached) fun _ _ => rfl]
    exact (Related.lift _).bind_eq fun met => (Related.pure rfl).ite (.pure rfl)

theorem iterate_twin (h : Solver.Twin mem a b) :
    Related (Twins mem) Eq (iterate a) (iterate b) := by
  unfold iterate
  refine (onStage_twin h.next).bind fun o o' ho => ?_
  have hgiven : Agree Delta.Twin (given o) (given o') := by
    cases ho with
    | none => exact .error _
    | some hd => exact .ok hd
  refine (Related.lift_agree hgiven).bind fun d d' hd => ?_
  refine (merge_twin hd).bind_eq fun newBest => advance_twin.bind_eq fun _ => ?_
  refine (verdict_twin h hd).bind_eq fun r => ?_
  exact (changeState_twin fun s s' hs => hs.terminateWith_twin r).bind_eq fun _ => .pure rfl

theorem prepare_twin (h : Solver.Twin mem a b) :
    Related (Twins mem) Eq (prepare a) (prepare b) := by
  unfold prepare
  refine (onStage_twin h.init).bind fun o o' ho => ?_
  cases ho with
  | none => exact .pure rfl
  | @some d d' hd =>
    refine (merge_twin hd).bind_eq fun _ => ?_
    rw [hd.termination]
    cases d.termination with
    | none => exact .pure rfl
    | some r => exact changeState_twin fun s s' hs => hs.terminateWith_twin r

/-! ### Telling -/

theorem notifyOne_twin {s s' : State R V M} (hs : s.Twin s') (position : Nat)
    {entry : ObserverEntry R V M} (hentry : entry.observer.Unswayed) :
    Related (Twins mem) Eq
      (notifyOne s position entry : Act R (Executor R V M σ μ) Unit)
      (notifyOne s' position entry : Act R (Executor R V M σ ν) Unit) := by
  intro e e' he
  have hcur : s'.curIter = s.curIter := hs.same fun _ _ => rfl
  refine ⟨he.of_untold (keeps_untold_notifyOne s position entry e)
    (keeps_untold_notifyOne s' position entry e') ?_, ?_⟩
  · rw [notices_notifyOne, notices_notifyOne]
    exact .cons ⟨rfl, hcur.symm, hs⟩ he.notices
  · rw [fault_of_notifyOne, fault_of_notifyOne, hentry s s' hs]
    exact .refl _

theorem notify_twin (newBest : Bool) :
    Related (Twins mem) Eq (notify newBest : Act R (Executor R V M σ μ) Unit)
      (notify newBest : Act R (Executor R V M σ ν) Unit) := by
  unfold notify
  refine state_twin.bind fun s s' hs => Related.get.bind fun e e' he => ?_
  have hcur : s'.curIter = s.curIter := hs.2.same fun _ _ => rfl
  rw [hcur, ← he.observers]
  -- those that are notified were chosen among the executor's observers
  refine Related.bind (Q := fun chosen chosen' => chosen = chosen' ∧
    ∀ entry ∈ chosen, entry.2 ∈ e.observers) (.lift_agree ?_) ?_
  · cases hchosen : wanted s.curIter newBest ((List.range e.observers.length).zip e.observers) with
    | error f => exact .error f
    | ok chosen =>
      exact .ok ⟨rfl, fun entry hentry => (List.of_mem_zip (subset_of_wanted hchosen hentry)).2⟩
  · rintro chosen _ ⟨rfl, hmem⟩
    refine (Related.forIn chosen (fun entry hentry _ => ?_) ()).bind_eq fun _ => .pure rfl
    exact (notifyOne_twin hs.2 entry.1 (he.unswayed _ (hmem entry hentry))).bind_eq
      fun _ => .pure rfl

theorem checkInvariants_twin {before before' : State R V M} (hbefore : before.Twin before') :
    Related (Twins mem) Eq (checkInvariants before : Act R (Executor R V M σ μ) Unit)
      (checkInvariants before' : Act R (Executor R V M σ ν) Unit) := by
  intro e e' he
  have hdebug : e.stage.session.debug = e'.stage.session.debug :=
    (Session.untold_eq_iff.mp he.session).2.2.1
  rw [run_checkInvariants, run_checkInvariants, he.state.2.check hbefore, hdebug]
  exact ⟨he, .refl _⟩

theorem conclude_twin {before before' : State R V M} (hbefore : before.Twin before')
    (newBest : Bool) :
    Related (Twins mem) Eq (conclude before newBest : Act R (Executor R V M σ μ) Unit)
      (conclude before' newBest : Act R (Executor R V M σ ν) Unit) := by
  unfold conclude
  refine (checkInvariants_twin hbefore).bind_eq fun _ => state_twin.bind fun s s' _ => ?_
  exact (report_twin _ _).bind_eq fun _ => notify_twin newBest

/-! ### The loop -/

theorem step_twin (h : Solver.Twin mem a b) : Related (Twins mem) Eq (step a) (step b) := by
  unfold step
  refine state_twin.bind fun before before' hbefore => (iterate_twin h).bind_eq fun newBest => ?_
  exact conclude_twin hbefore.2 newBest

theorem continues_of_twin {s s' : State R V M} (h : s.Twin s') : continues s' = continues s :=
  h.same fun _ _ => rfl

theorem loop_twin (h : Solver.Twin mem a b) (fuel : Nat) :
    Related (Twins mem) Eq (loop a fuel) (loop b fuel) := by
  induction fuel with
  | zero =>
    unfold loop
    refine state_twin.bind fun s s' hs => ?_
    rw [continues_of_twin hs.2]
    exact (Related.lift _).bind_eq fun due => (Related.throw _).ite (.pure rfl)
  | succ fuel ih =>
    unfold loop
    refine state_twin.bind fun s s' hs => ?_
    rw [continues_of_twin hs.2]
    refine (Related.lift _).bind_eq fun due => ?_
    exact ((step_twin h).bind_eq fun _ => ih).ite (.pure rfl)

theorem drive_twin (h : Solver.Twin mem a b) : Related (Twins mem) Eq (drive a) (drive b) := by
  unfold drive
  refine (prepare_twin h).bind_eq fun _ => Related.get.bind fun e e' he => ?_
  rw [he.config]
  exact loop_twin h _

/-! ### Whole runs -/

theorem close_twin :
    Related (Twins mem) Eq (close : Act R (Executor R V M σ μ) Unit)
      (close : Act R (Executor R V M σ ν) Unit) := by
  refine .modify fun e e' he => ?_
  have helapsed : e.stage.session.elapsed = e'.stage.session.elapsed :=
    (Session.untold_eq_iff.mp he.session).2.2.2
  refine ⟨he.config, he.observers, he.unswayed, rfl, he.memory, ⟨he.state.1, ?_⟩, he.session,
    he.notices⟩
  rw [helapsed]
  exact he.state.2.change
    (f := fun s : State R V M => { s with time := some (.real e'.stage.session.elapsed) })
    (fun _ _ => rfl) fun _ => rfl

theorem settle_twin (h : Solver.Twin mem a b) (driven : Except (Fault R) Unit) :
    Related (Twins mem) (Outcome.Alike State.Twin) (settle a driven) (settle b driven) := by
  -- the reason is decided alike on both sides
  have hdecide (r : Reason) : Related (Twins mem) Eq
      (changeState (·.terminateWith r) : Act R (Executor R V M σ μ) Unit)
      (changeState (·.terminateWith r) : Act R (Executor R V M σ ν) Unit) :=
    changeState_twin fun s s' hs => hs.terminateWith_twin r
  cases driven with
  | ok _ =>
    unfold settle finish
    refine (hdecide _).bind_eq fun _ => close_twin.bind_eq fun _ => ?_
    refine state_twin.bind fun s s' hs => (report_twin _ _).bind_eq fun _ => ?_
    refine Related.get.bind fun e e' he => .pure ⟨h.name, hs.2, ?_⟩
    exact (Session.untold_eq_iff.mp he.session).1
  | error f =>
    have habort : Related (Twins mem) Eq (abort a f) (abort b f) := by
      unfold abort
      refine (hdecide _).bind_eq fun _ => close_twin.bind_eq fun _ => ?_
      exact state_twin.bind fun s s' _ => report_twin _ _
    unfold settle
    refine Related.ite ((Related.throw f).bind_eq fun _ => ?_) ?_
    all_goals exact habort.bind_eq fun _ => .throw f

theorem Likened.begun {e : Executor R V M σ μ} {e' : Executor R V M σ ν}
    (he : Likened mem State.Twin e e') (hvalid : e.config.validate = .ok ()) :
    Twins mem (begun a e) (begun b e') := by
  refine ⟨he.config, he.observers, he.unswayed, rfl, he.memory, ⟨?_, ?_⟩, he.session, he.notices⟩
  · exact Config.isSome_of_validate hvalid
  · show State.Twin _ { e'.stage.state with
      param := e'.config.param
      maxIters := e'.config.maxIters
      targetCost := e'.config.targetCost }
    rw [← he.config]
    exact he.state.change (f := fun s : State R V M => { s with
      param := e.config.param
      maxIters := e.config.maxIters
      targetCost := e.config.targetCost }) (fun _ _ => rfl) fun _ => rfl

/-- The runs of twins end alike. -/
theorem run_twin (h : Solver.Twin mem a b) :
    Related (Likened mem State.Twin) (Outcome.Alike State.Twin) (run a) (run b) := by
  intro e e' he
  rw [run_run, run_run, ← he.status, ← he.config]
  split
  · exact ⟨he, .error _⟩
  · cases hvalid : e.config.validate with
    | error f => exact ⟨he, .error f⟩
    | ok _ =>
      have hdriven : Related (Twins mem) (Outcome.Alike State.Twin)
          ((drive a).attempt >>= settle a) ((drive b).attempt >>= settle b) := by
        refine (drive_twin h).attempt.bind fun r r' hr => ?_
        rw [hr.eq]
        exact settle_twin h r'
      obtain ⟨hleft, hend⟩ := hdriven _ _ (he.begun hvalid)
      exact ⟨hleft.mono fun _ _ hs => hs.2, hend⟩

/-! ### Where two runs have been -/

/-- The runs of two solvers from two executors stand at twins after each iteration, and end
alike. -/
structure Counterparts (mem : μ → ν → Prop) (a : Solver R V M σ μ) (b : Solver R V M σ ν)
    (e : Executor R V M σ μ) (e' : Executor R V M σ ν) : Prop where
  reached : e.config.validate = .ok () → ∀ k u, Reached a e k u →
    ∃ u', Reached b e' k u' ∧ Likened mem State.Twin u u'
  reached' : e'.config.validate = .ok () → ∀ k u', Reached b e' k u' →
    ∃ u, Reached a e k u ∧ Likened mem State.Twin u u'
  outcome : Agree (Outcome.Alike State.Twin) ((run a).run e).1 ((run b).run e').1
  left : Likened mem State.Twin ((run a).run e).2 ((run b).run e').2

/-- Solvers that are twins, run on executors that are, stay so to the end. -/
theorem counterparts (h : Solver.Twin mem a b) {e : Executor R V M σ μ} {e' : Executor R V M σ ν}
    (he : Likened mem State.Twin e e') : Counterparts mem a b e e' where
  reached hvalid k u hu := by
    obtain ⟨u', hu', htwin⟩ := reached_of_related (prepare_twin h) (step_twin h)
      (fun _ _ hu => continues_of_twin hu.state.2) (he.begun hvalid) hu
    exact ⟨u', hu', htwin.mono fun _ _ hs => hs.2⟩
  reached' hvalid k u' hu' := by
    have hvalid' : e.config.validate = .ok () := he.config ▸ hvalid
    have heq : ∀ x y : Unit, y = x → x = y := fun _ _ hxy => hxy.symm
    obtain ⟨u, hu, htwin⟩ := reached_of_related ((prepare_twin h).symm.imp heq)
      ((step_twin h).symm.imp heq) (fun _ _ hu => (continues_of_twin hu.state.2).symm)
      (he.begun hvalid') hu'
    exact ⟨u, hu, htwin.mono fun _ _ hs => hs.2⟩
  outcome := (run_twin h e e' he).2
  left := (run_twin h e e' he).1

end Executor

end Descent
