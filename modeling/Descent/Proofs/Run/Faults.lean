import Descent.Proofs.Act.Triple
import Descent.Proofs.Quantity
import Descent.Proofs.Run.Reached

/-!
# The faults of a run

What a run computes itself it refuses with ordinary faults.  So if every ordinary fault is in `p`,
and so are the faults of the solver and the interrupts of the observers, then every fault of a due
iteration is in `p` (`triple_step`), and every fault of the run, which may also use up its fuel
(`triple_run`).

How a solver fails can depend on what it keeps and on the Hessian of the state, which are not its
own: `Solver.Guarded mem P p` says that its faults are in `p` as long as its memory has `mem` and
the state's Hessian is in `P`, and that it sees to both itself.  A run then sees to them too.
-/

namespace Descent

open Act

variable {R V M σ μ α τ : Type} [Scalar R] {p : Fault R → Prop}

/-- Every fault of the solver's steps is in `p`. -/
structure Solver.FaultsIn (p : Fault R → Prop) (solver : Solver R V M σ μ) : Prop where
  init : Act.FaultsIn p solver.init
  next : Act.FaultsIn p solver.next
  terminate : Act.FaultsIn p solver.terminate

/-- The Hessian of a state, if there is one, is in `P`. -/
def State.CurvedIn (P : M → Prop) (s : State R V M) : Prop := ∀ h, s.hessian = some h → P h

omit [Scalar R] in
/-- The Hessian of a delta, if there is one, is in `P`. -/
def Delta.CurvedIn (P : M → Prop) (d : Delta R V M) : Prop := ∀ h, d.hessian = some h → P h

namespace State.CurvedIn

variable {P : M → Prop} {s : State R V M}

theorem merge (hs : s.CurvedIn P) {d : Delta R V M} (hd : d.CurvedIn P) :
    (s.merge d).2.CurvedIn P := by
  intro h hh
  rw [s.merge_hessian d] at hh
  rcases Option.or_eq_some_iff.mp hh with hnew | ⟨-, hold⟩
  · exact hd h hnew
  · exact hs h hold

theorem terminateWith (hs : s.CurvedIn P) (reason : Reason) :
    (s.terminateWith reason).CurvedIn P := by
  unfold State.terminateWith
  split
  · exact hs
  · exact hs

end State.CurvedIn

/-- The memory has `mem`, and the Hessian of the state is in `P`. -/
def Stage.Holds (mem : μ → Prop) (P : M → Prop) (t : Stage R V M σ μ) : Prop :=
  mem t.memory ∧ t.state.CurvedIn P

/-- Where the memory has `mem` and the Hessian of the state is in `P` every fault of the solver is
in `p`, and it leaves and answers the like. -/
structure Solver.Guarded (mem : μ → Prop) (P : M → Prop) (p : Fault R → Prop)
    (solver : Solver R V M σ μ) : Prop where
  init : Triple (Stage.Holds mem P) p solver.init fun o t =>
    (∀ d, o = some d → d.CurvedIn P) ∧ t.Holds mem P
  next : Triple (Stage.Holds mem P) p solver.next fun o t =>
    (∀ d, o = some d → d.CurvedIn P) ∧ t.Holds mem P
  terminate : Triple (Stage.Holds mem P) p solver.terminate fun _ t => t.Holds mem P

/-- A solver whose faults are in `p` whatever there is. -/
theorem Solver.FaultsIn.guarded {solver : Solver R V M σ μ} (h : solver.FaultsIn p) :
    solver.Guarded (fun _ => True) (fun _ => True) p := by
  have hall (t : Stage R V M σ μ) : t.Holds (fun _ => True) fun _ => True :=
    ⟨trivial, fun _ _ => trivial⟩
  refine ⟨h.init.triple_true.imp (fun _ _ => trivial) fun _ t _ => ?_,
    h.next.triple_true.imp (fun _ _ => trivial) fun _ t _ => ?_,
    h.terminate.triple_true.imp (fun _ _ => trivial) fun _ t _ => hall t⟩
  all_goals exact ⟨fun _ _ _ _ => trivial, hall t⟩

/-- Every fault of the observer is in `p`. -/
def Observer.FaultsIn (p : Fault R → Prop) (o : Observer R V M) : Prop :=
  ∀ s k f, (o.notify s k).2 = some f → p f

/-- Every interrupt of the observer is in `p`; its other faults go no further. -/
def Observer.InterruptsIn (p : Fault R → Prop) (o : Observer R V M) : Prop :=
  ∀ s k f, (o.notify s k).2 = some f → f.isInterrupt = true → p f

theorem Observer.FaultsIn.interruptsIn {o : Observer R V M} (h : o.FaultsIn p) :
    o.InterruptsIn p :=
  fun s k f hf _ => h s k f hf

theorem Config.calm_validate (c : Config R V) : Calm c.validate := by
  unfold validate
  refine .guard trivial ?_
  refine (Value.calm_lt _ _).bind fun _ _ => .guard trivial ?_
  exact (Value.calm_isNaN _).bind fun _ _ => (Raises.error trivial).ite (.ok _)

namespace Executor

variable {solver : Solver R V M σ μ}

/-! ### Notifications -/

theorem calm_wants (mode : ObserverMode) (period iteration : Value R) (newBest : Bool) :
    Calm (mode.wants period iteration newBest) := by
  cases mode with
  | every => exact Value.calm_isMultipleOf _ _
  | _ => exact .ok _

theorem calm_wanted (iteration : Value R) (newBest : Bool) :
    ∀ entries : List (Nat × ObserverEntry R V M), Calm (wanted iteration newBest entries)
  | [] => .ok _
  | (_, entry) :: rest =>
    (calm_wants entry.mode entry.period iteration newBest).bind fun _ _ =>
      (calm_wanted iteration newBest rest).bind fun _ _ => .ok _

/-- The observers chosen for an iteration are among those there are. -/
theorem subset_of_wanted {iteration : Value R} {newBest : Bool} :
    ∀ {entries chosen : List (Nat × ObserverEntry R V M)},
      wanted iteration newBest entries = .ok chosen → chosen ⊆ entries
  | [], chosen, h => by
    cases h
    exact List.Subset.refl _
  | (i, entry) :: rest, chosen, h => by
    unfold wanted at h
    cases hw : entry.mode.wants entry.period iteration newBest with
    | error f => rw [hw] at h; cases h
    | ok first =>
      cases hr : wanted iteration newBest rest with
      | error f => rw [hw, hr] at h; cases h
      | ok others =>
        have hsub := subset_of_wanted hr
        rw [hw, hr] at h
        cases first <;> cases h
        · exact List.subset_cons_of_subset _ hsub
        · exact List.cons_subset_cons _ hsub

theorem faultsIn_report (event : Event R) :
    Act.FaultsIn p (report event : Act R (Executor R V M σ μ) Unit) := by
  intro e f e' h
  cases h

theorem faultsIn_notifyOne (snapshot : State R V M) (position : Nat)
    {entry : ObserverEntry R V M} (h : entry.observer.InterruptsIn p) :
    Act.FaultsIn p
      (notifyOne snapshot position entry : Act R (Executor R V M σ μ) Unit) := by
  unfold notifyOne
  refine Act.FaultsIn.bind (.modify _) fun _ => ?_
  rcases hn : entry.observer.notify snapshot snapshot.curIter with ⟨events, fault⟩
  refine (Act.FaultsIn.forIn events _ (fun event _ _ => ?_) ()).bind fun _ => ?_
  · exact (faultsIn_report event).bind fun _ => .pure _
  · cases fault with
    | none => exact .pure _
    | some f =>
      dsimp only
      split
      · next hinterrupt =>
        exact .throw (h snapshot snapshot.curIter f (by rw [hn]) hinterrupt)
      · exact faultsIn_report _

theorem fault_of_notify (hp : ∀ f, f.Ordinary → p f) {newBest : Bool}
    {e e' : Executor R V M σ μ} {f : Fault R}
    (hobs : ∀ entry ∈ e.observers, entry.observer.InterruptsIn p)
    (h : (notify newBest).run e = (.error f, e')) : p f := by
  unfold notify at h
  rw [Act.run_bind_of_ok (run_state e), Act.run_bind_of_ok (Act.run_get e)] at h
  rcases Act.run_bind_eq_error.mp h with hwanted | ⟨chosen, u, hwanted, hloop⟩
  · have hc := (Act.run_lift_eq.mp hwanted).1
    exact hp f (calm_wanted _ _ _ f hc)
  · have hsub := subset_of_wanted (Act.run_lift_eq.mp hwanted).1
    refine Act.FaultsIn.bind (Act.FaultsIn.forIn chosen _ (fun entry hentry _ => ?_) ())
      (fun _ => .pure _) u f e' hloop
    -- those that are notified were chosen among the executor's
    have hmem : entry.2 ∈ e.observers := (List.of_mem_zip (hsub hentry)).2
    exact (faultsIn_notifyOne _ _ (hobs entry.2 hmem)).bind fun _ => .pure _

/-! ### Iterations -/

section

variable (hp : ∀ f : Fault R, f.Ordinary → p f) {mem : μ → Prop} {P : M → Prop}

/-- What a solver is guarded by holds of the executor, and its observers interrupt with faults in
`p`. -/
def Holds (mem : μ → Prop) (P : M → Prop) (p : Fault R → Prop) (e : Executor R V M σ μ) : Prop :=
  e.stage.Holds mem P ∧ ∀ entry ∈ e.observers, entry.observer.InterruptsIn p

/-- A step on the stage leaves the observers as they are. -/
theorem triple_onStage {a : Act R (Stage R V M σ μ) α} {Q : α → Prop}
    (h : Triple (Stage.Holds mem P) p a fun x t => Q x ∧ t.Holds mem P) :
    Triple (Holds mem P p) p (onStage a) fun x e => Q x ∧ e.Holds mem P p :=
  h.zoom (fun _ he => he.1) fun _ _ _ he hx => ⟨hx.1, hx.2, he.2⟩

theorem triple_state :
    Triple (Holds mem P p) p (state : Act R (Executor R V M σ μ) (State R V M)) fun s e =>
      s = e.stage.state ∧ e.Holds mem P p := by
  refine Triple.get.bind fun u => .pure fun e he => ?_
  obtain ⟨rfl, he⟩ := he
  exact ⟨rfl, he⟩

/-- Changing the state so that its Hessian stays. -/
theorem triple_changeState {I : Executor R V M σ μ → Prop} {g : State R V M → State R V M}
    (hI : ∀ e, I e → e.Holds mem P p)
    (hg : ∀ e, I e → e.stage.state.CurvedIn P → (g e.stage.state).CurvedIn P) :
    Triple I p (changeState g : Act R (Executor R V M σ μ) Unit) fun _ => Holds mem P p :=
  .modify fun e he => ⟨⟨(hI e he).1.1, hg e he (hI e he).1.2⟩, (hI e he).2⟩

include hp

theorem triple_merge {d : Delta R V M} (hd : d.CurvedIn P) :
    Triple (Holds mem P p) p (merge d : Act R (Executor R V M σ μ) Bool) fun _ =>
      Holds mem P p := by
  intro e he
  refine ⟨fun b e' h => ?_, fun f e' h => ?_⟩
  · obtain ⟨s, hs, rfl⟩ := merge_eq.mp h
    have hcurved : (e.stage.state.merge d).2.CurvedIn P := he.1.2.merge hd
    rw [hs] at hcurved
    exact ⟨⟨he.1.1, hcurved⟩, he.2⟩
  · exact hp f (State.calm_merge _ _ f (congrArg Prod.fst h))

theorem triple_advance :
    Triple (Holds mem P p) p (advance : Act R (Executor R V M σ μ) Unit) fun _ =>
      Holds mem P p := by
  refine triple_state.bind fun s => ?_
  refine Triple.bind (.lift ((State.calm_incrementIter s).mono hp)) fun s' => ?_
  refine triple_changeState (fun e he => he.2.2) fun e he hcurved => ?_
  obtain ⟨hs', rfl, -⟩ := he
  obtain ⟨k, -, rfl⟩ := State.incrementIter_eq_ok hs'
  exact hcurved

variable (hs : solver.Guarded mem P p)

include hs

theorem triple_verdict (d : Delta R V M) :
    Triple (Holds mem P p) p (verdict solver d) fun _ => Holds mem P p := by
  unfold verdict
  cases d.termination.filter Reason.isTerminal with
  | some r => exact .pure fun _ he => he
  | none =>
    have hask : Triple (Stage.Holds mem P) p solver.terminate fun _ t =>
        True ∧ t.Holds mem P := hs.terminate.post fun _ _ ht => ⟨trivial, ht⟩
    refine ((triple_onStage hask).post fun _ _ he => he.2).bind fun r => ?_
    refine .ite (fun _ => .pure fun _ he => he) fun _ => ?_
    refine (triple_state.post fun _ _ he => he.2).bind fun s => ?_
    refine Triple.bind (.lift ((State.calm_targetReached s).mono hp)) fun met => ?_
    exact .ite (fun _ => .pure fun _ he => he.2) fun _ => .pure fun _ he => he.2

theorem triple_iterate :
    Triple (Holds mem P p) p (iterate solver) fun _ => Holds mem P p := by
  unfold iterate
  refine (triple_onStage hs.next).bind fun o => ?_
  refine Triple.assume fun hanswer => ?_
  have hgiven : Act.Raises p (given o) := by
    cases o with
    | none => exact .error (hp _ trivial)
    | some d => exact .ok d
  refine Triple.bind (.lift hgiven) fun d => Triple.assume fun hd => ?_
  refine (triple_merge hp (hanswer d (given_eq_ok.mp hd))).bind fun newBest => ?_
  refine (triple_advance hp).bind fun _ => (triple_verdict hp hs d).bind fun reason => ?_
  refine Triple.bind (Q := fun _ => Holds mem P p) ?_ fun _ => .pure fun _ he => he
  exact triple_changeState (fun _ he => he) fun _ _ hcurved => hcurved.terminateWith reason

/-- Every fault of a preparation is in `p`. -/
theorem triple_prepare :
    Triple (Holds mem P p) p (prepare solver) fun _ => Holds mem P p := by
  unfold prepare
  refine (triple_onStage hs.init).bind fun o => Triple.assume fun hanswer => ?_
  cases o with
  | none => exact .pure fun _ he => he
  | some d =>
    refine (triple_merge hp (hanswer d rfl)).bind fun _ => ?_
    cases d.termination with
    | none => exact .pure fun _ he => he
    | some reason =>
      exact triple_changeState (fun _ he => he) fun _ _ hcurved => hcurved.terminateWith reason

end

theorem faultsIn_checkInvariants (hp : ∀ f, f.Ordinary → p f)
    (before : State R V M) :
    Act.FaultsIn p (checkInvariants before : Act R (Executor R V M σ μ) Unit) := by
  unfold checkInvariants
  refine Act.FaultsIn.get.bind fun e => ?_
  split
  · exact .lift_calm hp (State.calm_check _ _ _)
  · exact .pure _

theorem fault_of_conclude (hp : ∀ f, f.Ordinary → p f) {before : State R V M}
    {newBest : Bool} {e e' : Executor R V M σ μ} {f : Fault R}
    (hobs : ∀ entry ∈ e.observers, entry.observer.InterruptsIn p)
    (h : (conclude before newBest).run e = (.error f, e')) : p f := by
  unfold conclude at h
  rcases Act.run_bind_eq_error.mp h with hcheck | ⟨_, u, hcheck, h₁⟩
  · exact faultsIn_checkInvariants hp before e f e' hcheck
  · -- neither checking nor reporting changes who observes
    have hu : u.untold = e.untold := (keeps_untold_checkInvariants before).run_eq hcheck
    have hobserversu : u.untold.observers = e.untold.observers := congrArg observers hu
    rw [Act.run_bind_of_ok (run_state u)] at h₁
    rcases Act.run_bind_eq_error.mp h₁ with hreport | ⟨_, w, hreport, hnotify⟩
    · cases hreport
    · have hw : w.untold = u.untold := (keeps_untold_report _).run_eq hreport
      have hobserversw : w.untold.observers = u.untold.observers := congrArg observers hw
      refine fault_of_notify hp (fun entry hentry => hobs entry ?_) hnotify
      exact (hobserversw.trans hobserversu) ▸ hentry

theorem calm_continues (s : State R V M) : Calm (continues s) :=
  (Raises.ok _).ite (Value.calm_lt _ _)

section

variable (hp : ∀ f : Fault R, f.Ordinary → p f) {mem : μ → Prop} {P : M → Prop}

include hp

theorem triple_conclude (before : State R V M) (newBest : Bool) :
    Triple (Holds mem P p) p (conclude before newBest : Act R (Executor R V M σ μ) Unit) fun _ =>
      Holds mem P p := by
  intro e he
  refine ⟨fun _ e' h => ?_, fun f e' h => fault_of_conclude hp he.2 h⟩
  have huntold : e'.untold = e.untold := (keeps_untold_conclude before newBest).run_eq h
  have hobservers : e'.untold.observers = e.untold.observers := congrArg observers huntold
  obtain ⟨journal, hstage⟩ := stage_eq_of_untold huntold
  refine ⟨?_, fun entry hentry => he.2 entry (hobservers ▸ hentry)⟩
  rw [hstage]
  exact he.1

variable (hs : solver.Guarded mem P p)

include hs

/-- Every fault of an iteration is in `p`. -/
theorem triple_step : Triple (Holds mem P p) p (step solver) fun _ => Holds mem P p := by
  refine (triple_state.post fun _ _ he => he.2).bind fun before => ?_
  exact (triple_iterate hp hs).bind fun newBest => triple_conclude hp before newBest

/-! ### Runs -/

variable (hexhausted : p .exhausted)

include hexhausted

theorem triple_loop (fuel : Nat) :
    Triple (Holds mem P p) p (loop solver fuel) fun _ => Holds mem P p := by
  induction fuel with
  | zero =>
    refine (triple_state.post fun _ _ he => he.2).bind fun s => ?_
    refine Triple.bind (.lift ((calm_continues s).mono hp)) fun due => ?_
    exact .ite (fun _ => .throw hexhausted) fun _ => .pure fun _ he => he.2
  | succ fuel ih =>
    refine (triple_state.post fun _ _ he => he.2).bind fun s => ?_
    refine Triple.bind (.lift ((calm_continues s).mono hp)) fun due => ?_
    refine .ite (fun _ => ?_) fun _ => .pure fun _ he => he.2
    exact ((triple_step hp hs).imp (fun _ he => he.2) fun _ _ he => he).bind fun _ => ih

theorem triple_drive : Triple (Holds mem P p) p (drive solver) fun _ => Holds mem P p := by
  refine (triple_prepare hp hs).bind fun _ => (Triple.get.post fun _ _ he => he.2).bind fun e => ?_
  exact triple_loop hp hs hexhausted _

/-- Every fault of a run is in `p`. -/
theorem triple_run : Triple (Holds mem P p) p (run solver) fun _ _ => True := by
  intro e he
  refine ⟨fun _ _ _ => trivial, fun f e' h => ?_⟩
  by_cases hstatus : e.status = .configured
  · cases hvalid : e.config.validate with
    | error g =>
      rw [run_run, if_neg fun hnot => hnot hstatus, hvalid] at h
      cases h
      exact hp f (Config.calm_validate _ f hvalid)
    | ok _ =>
      -- the run fails as its drive does
      rw [run_eq hstatus hvalid] at h
      have hbegun : (begun solver e).Holds mem P p := he
      rcases hdrive : (drive solver).run (begun solver e) with ⟨g | _, u⟩
      · rw [hdrive] at h
        have hfault : g = f := by
          dsimp only at h
          split at h <;> cases h <;> rfl
        rw [← hfault]
        exact (triple_drive hp hs hexhausted _ hbegun).2 g u hdrive
      · rw [hdrive] at h
        cases h
  · rw [run_run, if_pos hstatus] at h
    cases h
    exact hp _ trivial

end

end Executor

end Descent
