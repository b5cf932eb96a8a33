import Descent.Proofs.Run.Forward
import Descent.Proofs.Run.Reached
import Descent.Proofs.Run.Restart

/-!
# Runs whose observers differ

Two executors that differ in something a solver takes no notice of stay paired from one iteration
to the next: the iteration ends the same on both, and leads to executors that are paired again
(`Executor.Pairing`).  So their runs are at the same points, one after the other
(`Pairing.reached`), and end the same (`Pairing.drive`, `Pairing.run`).

A solver that does not read what was reported (`Solver.Deaf`) goes on the same whatever its
observers report.  So two runs of one whose observers differ, and of which no observer interrupts,
are in the same states, call the operator for the same and end alike (`Executor.Undisturbed`): all
that they leave different are the observers and what these were told and reported
(`Executor.unobserved`).
-/

namespace Descent.Executor

open Act

variable {R V M σ μ : Type} [Scalar R]

/-! ### Paired executors -/

/-- Two steps end the same, at executors that are alike, and at paired ones if they complete. -/
structure Ends (pair alike : Executor R V M σ μ → Executor R V M σ μ → Prop)
    (x y : Except (Fault R) Unit × Executor R V M σ μ) : Prop where
  same : x.1 = y.1
  alike : alike x.2 y.2
  paired : x.1 = .ok () → pair x.2 y.2

/-- The iterations of the solver keep executors paired.  Those that are alike have the same settings
and the same state; whether a pair stays one may depend on more. -/
structure Pairing (solver : Solver R V M σ μ)
    (pair alike : Executor R V M σ μ → Executor R V M σ μ → Prop) : Prop where
  config : ∀ {u u'}, alike u u' → u'.config = u.config
  status : ∀ {u u'}, alike u u' → u'.status = u.status
  state : ∀ {u u'}, alike u u' → u'.stage.state = u.stage.state
  alike_of_pair : ∀ {u u'}, pair u u' → alike u u'
  step : ∀ {u u'}, pair u u' → continues u.stage.state = .ok true →
    Ends pair alike ((step solver).run u) ((step solver).run u')

/-- What does the same on an executor as on what a mask leaves of it does not tell apart those of
which the mask leaves the same. -/
theorem agree_of_mask {α : Type} {a : Act R (Executor R V M σ μ) α}
    (mask : Executor R V M σ μ → Executor R V M σ μ)
    (hmask : ∀ u, (a.run u).1 = (a.run (mask u)).1 ∧ mask (a.run u).2 = mask (a.run (mask u)).2)
    {u u' : Executor R V M σ μ} (h : mask u' = mask u) :
    (a.run u).1 = (a.run u').1 ∧ mask (a.run u').2 = mask (a.run u).2 := by
  obtain ⟨hr, hu⟩ := hmask u
  obtain ⟨hr', hu'⟩ := hmask u'
  rw [hr, hr', hu, hu', h]
  exact ⟨rfl, rfl⟩

namespace Pairing

variable {solver : Solver R V M σ μ} {pair alike : Executor R V M σ μ → Executor R V M σ μ → Prop}
  {e e' u u' : Executor R V M σ μ} (h : Pairing solver pair alike)

include h

/-- The loops from a pair end the same, by induction on their fuel. -/
theorem loop (hu : pair u u') (fuel : Nat) :
    ((loop solver fuel).run u).1 = ((loop solver fuel).run u').1 ∧
      alike ((loop solver fuel).run u).2 ((loop solver fuel).run u').2 := by
  induction fuel generalizing u u' with
  | zero =>
    rw [run_loop_zero, run_loop_zero, h.state (h.alike_of_pair hu)]
    rcases continues u.stage.state with _ | ⟨_ | _⟩ <;> exact ⟨rfl, h.alike_of_pair hu⟩
  | succ fuel ih =>
    rw [run_loop_succ, run_loop_succ, h.state (h.alike_of_pair hu)]
    rcases hdue : continues u.stage.state with _ | ⟨_ | _⟩
    · exact ⟨rfl, h.alike_of_pair hu⟩
    · exact ⟨rfl, h.alike_of_pair hu⟩
    · -- an iteration is due on both sides, and ends alike
      obtain ⟨hsame, halike, hpaired⟩ := h.step hu hdue
      dsimp only
      rw [run_bind, run_bind]
      rcases hrun : (Executor.step solver).run u with ⟨r, v⟩
      rcases hrun' : (Executor.step solver).run u' with ⟨r', v'⟩
      rw [hrun, hrun'] at hsame halike hpaired
      dsimp only at hsame
      subst hsame
      cases r with
      | error f => exact ⟨rfl, halike⟩
      | ok _ => exact ih (hpaired rfl)

variable (hstart : Ends pair alike ((prepare solver).run (begun solver e))
  ((prepare solver).run (begun solver e')))

include hstart

/-- Wherever one of two runs has been, the other one has been, too. -/
theorem reached {k : Nat} (hu : Reached solver e k u) :
    ∃ u', Reached solver e' k u' ∧ pair u u' := by
  obtain ⟨e₀, hprepare, hiterated⟩ := hu
  have hpaired : pair e₀ ((prepare solver).run (begun solver e')).2 := by
    have hended := hstart.paired
    rw [hprepare] at hended
    exact hended rfl
  have hprepare' : (prepare solver).run (begun solver e') =
      (.ok (), ((prepare solver).run (begun solver e')).2) := by
    refine Prod.ext ?_ rfl
    rw [← hstart.same, hprepare]
  induction hiterated with
  | none => exact ⟨_, reached_zero.mpr hprepare', hpaired⟩
  | more _ due done ih =>
    obtain ⟨v, hv, hpaired⟩ := ih
    obtain ⟨hsame, -, hgoes⟩ := h.step hpaired due
    rw [done] at hsame hgoes
    have hdue : continues v.stage.state = .ok true := by
      rw [h.state (h.alike_of_pair hpaired)]
      exact due
    exact ⟨((Executor.step solver).run v).2, hv.more hdue (Prod.ext hsame.symm rfl), hgoes rfl⟩

/-- The drives of two runs end the same. -/
theorem drive :
    ((drive solver).run (begun solver e)).1 = ((drive solver).run (begun solver e')).1 ∧
      alike ((drive solver).run (begun solver e)).2 ((drive solver).run (begun solver e')).2 := by
  obtain ⟨hsame, halike, hpaired⟩ := hstart
  rw [run_drive, run_drive, run_bind, run_bind]
  rcases hu : (prepare solver).run (begun solver e) with ⟨r, u⟩
  rcases hu' : (prepare solver).run (begun solver e') with ⟨r', u'⟩
  rw [hu, hu'] at hsame halike hpaired
  dsimp only at hsame halike
  subst hsame
  cases r with
  | error f => exact ⟨rfl, halike⟩
  | ok _ =>
    dsimp only
    rw [run_bind_of_ok (run_get u), run_bind_of_ok (run_get u'), h.config halike]
    exact h.loop (hpaired rfl) _

omit hstart in
/-- Whole runs end the same if their preparations do, and if what a run does last takes no notice of
what the executors differ in. -/
theorem run (he : alike e e')
    (hstart : e.config.validate = .ok () → Ends pair alike
      ((prepare solver).run (begun solver e)) ((prepare solver).run (begun solver e')))
    (hsettle : ∀ driven u u', alike u u' →
      ((settle solver driven).run u).1 = ((settle solver driven).run u').1 ∧
        alike ((settle solver driven).run u).2 ((settle solver driven).run u').2) :
    ((run solver).run e).1 = ((run solver).run e').1 ∧
      alike ((run solver).run e).2 ((run solver).run e').2 := by
  rw [run_run, run_run, h.status he, h.config he]
  split
  · exact ⟨rfl, he⟩
  · cases hvalid : e.config.validate with
    | error f => exact ⟨rfl, he⟩
    | ok _ =>
      obtain ⟨hsame, hdriven⟩ := h.drive (hstart hvalid)
      dsimp only
      rw [run_bind_of_ok (run_attempt _ _), run_bind_of_ok (run_attempt _ _), hsame]
      exact hsettle _ _ _ hdriven

end Pairing

end Descent.Executor

namespace Descent

open Act

variable {R V M σ μ : Type}

/-! ### Solvers that do not read what was reported -/

/-- The session with nothing reported. -/
def Session.untold (s : Session R σ) : Session R σ := { s with journal := [] }

theorem Session.untold_eq_iff {s u : Session R σ} : s.untold = u.untold ↔
    s.counts = u.counts ∧ s.world = u.world ∧ s.debug = u.debug ∧ s.elapsed = u.elapsed := by
  unfold untold
  rw [Session.mk.injEq]
  simp only [true_and]

/-- Sessions that differ in what was reported go on alike, and never part. -/
def Session.unheard (R σ : Type) : Course R (Session R σ) (Session R σ) where
  together s u := s.untold = u.untold
  broken _ _ := False
  astray _ := False

namespace Session

theorem bears_unheard : (unheard R σ).Bears Eq where
  counts h := (untold_eq_iff.mp h).1
  debug h := (untold_eq_iff.mp h).2.2.1
  elapsed h := (untold_eq_iff.mp h).2.2.2
  told h _ := h
  broken_told h _ := h
  astray_told h _ := h

theorem serves_unheard (op : Operator R V M σ) (cap : Capability) :
    (unheard R σ).Serves op op cap := by
  refine serves_self (fun h => (untold_eq_iff.mp h).2.1) (fun h cap w => ?_) (fun _ h => h) op cap
  obtain ⟨hcounts, -, hrest⟩ := untold_eq_iff.mp h
  exact untold_eq_iff.mpr ⟨congrArg (·.charge cap) hcounts, rfl, hrest⟩

end Session

variable [Scalar R]

/-- The solver's steps at a point do the same whatever was reported before. -/
def Solver.Deaf (solver : Solver R V M σ μ) : Prop :=
  Solver.Beside (Session.unheard R σ) Eq (State.Placed Eq) solver solver

/-- The methods that minimise do not read what was reported. -/
theorem Method.Descends.deaf [Space R V] [LinearAction R V M] {op : Operator R V M σ}
    {m : Method R V M} (hm : m.Descends) {solver : Solver R V M σ (Memory R V M)}
    (h : m.solver op = some solver) (s : Session R σ) : solver.Deaf :=
  have : Nonempty (Session R σ) := ⟨s⟩
  hm.beside h h (fun cap _ => Session.serves_unheard op cap) Session.bears_unheard.timeless
    State.steady_eq

namespace Executor

variable {solver : Solver R V M σ μ} {e e' u u' : Executor R V M σ μ}

/-! ### Executors whose observers differ -/

/-- The executor without its observers and with nothing told. -/
def unobserved (e : Executor R V M σ μ) : Executor R V M σ μ := { e.untold with observers := [] }

theorem unobserved_eq_iff : u'.unobserved = u.unobserved ↔
    u'.config = u.config ∧ u'.status = u.status ∧ u'.stage.memory = u.stage.memory ∧
      u'.stage.state = u.stage.state ∧ u'.stage.session.untold = u.stage.session.untold := by
  unfold unobserved untold Session.untold
  rw [Executor.mk.injEq, Stage.mk.injEq]
  simp only [true_and, and_true]

theorem state_eq_of_unobserved (h : u'.unobserved = u.unobserved) :
    u'.stage.state = u.stage.state :=
  (unobserved_eq_iff.mp h).2.2.2.1

theorem unobserved_eq_of_untold (h : u'.untold = u.untold) : u'.unobserved = u.unobserved :=
  congrArg (fun e : Executor R V M σ μ => { e with observers := [] }) h

/-- Executors at one point that differ in their observers and in what was told. -/
structure Apart (observers observers' : List (ObserverEntry R V M)) (u u' : Executor R V M σ μ) :
    Prop where
  observed : u.observers = observers
  observed' : u'.observers = observers'
  placed : u.stage.state.param.isSome
  counted : ∃ i : Int, u.stage.state.curIter = .int i
  same : u'.unobserved = u.unobserved

/-- The course of executors with the same settings whose sessions differ in what was reported. -/
def unheard (R V M σ μ : Type) [Scalar R] :
    Course R (Executor R V M σ μ) (Executor R V M σ μ) :=
  course (Session.unheard R σ) Eq (State.Placed Eq) fun e e' =>
    e.config = e'.config ∧ e.status = e'.status

theorem unheard_together_iff :
    (unheard R V M σ μ).together u u' ↔
      u.stage.state.param.isSome ∧ u'.unobserved = u.unobserved := by
  rw [unobserved_eq_iff]
  constructor
  · rintro ⟨⟨hconfig, hstatus⟩, ⟨hmemory, hplaced, hstate⟩, hsession⟩
    exact ⟨hplaced, hconfig.symm, hstatus.symm, hmemory.symm, hstate.symm, Eq.symm hsession⟩
  · rintro ⟨hplaced, hconfig, hstatus, hmemory, hstate, hsession⟩
    exact ⟨⟨hconfig.symm, hstatus.symm⟩, ⟨hmemory.symm, hplaced, hstate.symm⟩, hsession.symm⟩

/-- What goes along the course ends alike, and at executors that go on along it. -/
theorem eq_of_unheard {α : Type} {a b : Act R (Executor R V M σ μ) α}
    (hab : (unheard R V M σ μ).Beside Eq a b) (hplaced : u.stage.state.param.isSome)
    (h : u'.unobserved = u.unobserved) :
    (a.run u).1 = (b.run u').1 ∧ (a.run u).2.stage.state.param.isSome ∧
      (b.run u').2.unobserved = (a.run u).2.unobserved := by
  obtain ⟨hr, htogether⟩ := hab.together (fun _ _ h => h) (fun _ h => h.2.2)
    (unheard_together_iff.mpr ⟨hplaced, h⟩)
  exact ⟨hr.eq, unheard_together_iff.mp htogether⟩

/-! ### Iterations -/

/-- The end of an iteration that no observer interrupts fails if the state is not as it should be
only. -/
theorem run_conclude_of_quiet (before : State R V M) (newBest : Bool) {i : Int}
    (hcounter : e.stage.state.curIter = .int i) (hquiet : ∀ entry ∈ e.observers, Quiet entry) :
    ((conclude before newBest).run e).1 = ((checkInvariants before).run e).1 := by
  rcases hcheck : (checkInvariants before).run e with ⟨f | _, v⟩
  · unfold conclude
    rw [run_bind_of_error hcheck]
  · have hchecked := run_checkInvariants before e
    rw [hcheck, Prod.mk.injEq] at hchecked
    have hconclude : ∃ e', (conclude before newBest).run e = (.ok (), e') := by
      refine conclude_of_quiet hcounter hquiet fun hdebug => ?_
      have hok := hchecked.1
      rw [hdebug, if_pos rfl] at hok
      exact hok.symm
    obtain ⟨e', he'⟩ := hconclude
    rw [he']

section

variable {observers observers' : List (ObserverEntry R V M)}
  (ha : solver.Abstains) (hdeaf : solver.Deaf)
  (hquiet : ∀ entry ∈ observers, Quiet entry) (hquiet' : ∀ entry ∈ observers', Quiet entry)

include ha hdeaf hquiet hquiet'

/-- An iteration ends alike whoever is told of it, and one that completes leads to executors that
go on alike. -/
theorem Apart.step (h : Apart observers observers' u u') :
    Ends (Apart observers observers') (fun u u' => u'.unobserved = u.unobserved)
      ((step solver).run u) ((step solver).run u') := by
  obtain ⟨hobserved, hobserved', hplaced, ⟨i, hi⟩, hsame⟩ := h
  have hiterate := eq_of_unheard (iterate_beside (fun _ _ _ _ h => h) State.steady_eq.placed hdeaf)
    hplaced hsame
  have hframe := keeps_frame_iterate solver u
  have hframe' := keeps_frame_iterate solver u'
  unfold Executor.step
  rw [run_bind_of_ok (run_state u), run_bind_of_ok (run_state u'), run_bind, run_bind,
    state_eq_of_unobserved hsame]
  rcases hrun : (iterate solver).run u with ⟨r, v⟩
  rcases hrun' : (iterate solver).run u' with ⟨r', v'⟩
  rw [hrun, hrun'] at hiterate
  rw [hrun] at hframe
  rw [hrun'] at hframe'
  obtain ⟨hr, hplaced, hsame⟩ := hiterate
  dsimp only at hr hplaced hsame hframe hframe'
  subst hr
  cases r with
  | error f => exact ⟨rfl, hsame, nofun⟩
  | ok newBest =>
    have hobserved : v.observers = observers :=
      (congrArg (fun f => f.2.1) hframe).trans hobserved
    have hobserved' : v'.observers = observers' :=
      (congrArg (fun f => f.2.1) hframe').trans hobserved'
    have hcounter : v.stage.state.curIter = .int (i + 1) := curIter_of_iterate ha hrun hi
    have hcounter' : v'.stage.state.curIter = .int (i + 1) := by
      rw [state_eq_of_unobserved hsame]
      exact hcounter
    -- the state and whether it is checked are the same on both sides
    have hcheck : ((checkInvariants u.stage.state).run v).1 =
        ((checkInvariants u.stage.state).run v').1 := by
      have hdebug : v'.stage.session.debug = v.stage.session.debug :=
        (Session.untold_eq_iff.mp (unobserved_eq_iff.mp hsame).2.2.2.2).2.2.1
      rw [run_checkInvariants, run_checkInvariants, state_eq_of_unobserved hsame, hdebug]
    have huntold := keeps_untold_conclude u.stage.state newBest v
    have huntold' := keeps_untold_conclude u.stage.state newBest v'
    have hend : ((conclude u.stage.state newBest).run v').2.unobserved =
        ((conclude u.stage.state newBest).run v).2.unobserved := by
      rw [unobserved_eq_of_untold huntold', hsame, unobserved_eq_of_untold huntold]
    refine ⟨?_, hend, fun _ => ?_⟩
    · dsimp only
      rw [run_conclude_of_quiet _ _ hcounter (hobserved ▸ hquiet),
        run_conclude_of_quiet _ _ hcounter' (hobserved' ▸ hquiet'), hcheck]
    · have hstate := congrArg (fun e : Executor R V M σ μ => e.stage.state) huntold
      refine ⟨(congrArg Executor.observers huntold).trans hobserved,
        (congrArg Executor.observers huntold').trans hobserved', ?_, ⟨i + 1, ?_⟩, hend⟩
      · exact (congrArg (fun s : State R V M => s.param.isSome) hstate).trans hplaced
      · exact (congrArg State.curIter hstate).trans hcounter

/-- So executors that are apart stay so. -/
theorem pairing_apart :
    Pairing solver (Apart observers observers') fun u u' => u'.unobserved = u.unobserved where
  config hu := (unobserved_eq_iff.mp hu).1
  status hu := (unobserved_eq_iff.mp hu).2.1
  state hu := state_eq_of_unobserved hu
  alike_of_pair hu := hu.same
  step hu _ := hu.step ha hdeaf hquiet hquiet'

end

/-! ### Whole runs -/

/-- Runs of a solver from two executors stand at the same point after each iteration, have the same
outcome and leave the same, but for who observed them and what was told. -/
structure Undisturbed (solver : Solver R V M σ μ) (e e' : Executor R V M σ μ) : Prop where
  reached : e.config.validate = .ok () → ∀ k u, Reached solver e k u →
    ∃ u', Reached solver e' k u' ∧ u'.unobserved = u.unobserved
  visits : e.config.validate = .ok () → ∀ k s, Visits solver e k s ↔ Visits solver e' k s
  outcome : ((run solver).run e).1 = ((run solver).run e').1
  left : ((run solver).run e').2.unobserved = ((run solver).run e).2.unobserved

/-- The end of a run does not depend on who observed it. -/
theorem settle_unobserved (driven : Except (Fault R) Unit) (h : u'.unobserved = u.unobserved) :
    ((settle solver driven).run u).1 = ((settle solver driven).run u').1 ∧
      ((settle solver driven).run u').2.unobserved =
        ((settle solver driven).run u).2.unobserved := by
  refine agree_of_mask unobserved (fun u => ?_) h
  cases driven with
  | ok _ => exact ⟨rfl, rfl⟩
  | error f =>
    unfold settle
    dsimp only
    cases f.isInterrupt <;> exact ⟨rfl, rfl⟩

section

variable {observers observers' : List (ObserverEntry R V M)} {memory : μ} {session : Session R σ}
  {config : Config R V} (hdeaf : solver.Deaf) (ha : solver.Abstains)

include hdeaf ha

/-- The preparation ends alike whoever observes the run, and leads to executors that are apart. -/
theorem ends_of_prepare (hvalid : config.validate = .ok ()) :
    Ends (Apart observers observers') (fun u u' => u'.unobserved = u.unobserved)
      ((prepare solver).run (begun solver (ready memory session config observers)))
      ((prepare solver).run (begun solver (ready memory session config observers'))) := by
  have hplaced : (begun solver (ready memory session config observers)).stage.state.param.isSome :=
    Config.isSome_of_validate hvalid
  have hsame : (begun solver (ready memory session config observers')).unobserved =
      (begun solver (ready memory session config observers)).unobserved := rfl
  obtain ⟨hr, hplaced, hsame⟩ := eq_of_unheard
    (prepare_beside (fun _ _ _ _ h => h) State.steady_eq.placed hdeaf) hplaced hsame
  have hframe := keeps_frame_prepare solver (begun solver (ready memory session config observers))
  have hframe' := keeps_frame_prepare solver (begun solver (ready memory session config observers'))
  refine ⟨hr, hsame, fun hok => ⟨?_, ?_, hplaced, ⟨0, ?_⟩, hsame⟩⟩
  · exact congrArg (fun f => f.2.1) hframe
  · exact congrArg (fun f => f.2.1) hframe'
  · exact curIter_of_prepare ha (Prod.ext hok rfl) rfl

variable (hquiet : ∀ entry ∈ observers, Quiet entry)
  (hquiet' : ∀ entry ∈ observers', Quiet entry)

include hquiet hquiet'

/-- Who observes a run does not disturb it. -/
theorem undisturbed_of_quiet :
    Undisturbed solver (ready memory session config observers)
      (ready memory session config observers') := by
  have hreached : config.validate = .ok () → ∀ k u,
      Reached solver (ready memory session config observers) k u →
        ∃ u', Reached solver (ready memory session config observers') k u' ∧
          u'.unobserved = u.unobserved := by
    intro hvalid k u hu
    obtain ⟨u', hu', hapart⟩ := (pairing_apart ha hdeaf hquiet hquiet').reached
      (ends_of_prepare hdeaf ha hvalid) hu
    exact ⟨u', hu', hapart.same⟩
  have hsame : (ready memory session config observers' : Executor R V M σ μ).unobserved =
      (ready memory session config observers).unobserved := rfl
  obtain ⟨houtcome, hleft⟩ := (pairing_apart ha hdeaf hquiet hquiet').run hsame
    (ends_of_prepare hdeaf ha) fun driven u u' h => settle_unobserved driven h
  refine ⟨hreached, fun hvalid k s => ⟨?_, ?_⟩, houtcome, hleft⟩
  · rintro ⟨u, hu, rfl⟩
    obtain ⟨u', hu', hsame⟩ := hreached hvalid k u hu
    exact ⟨u', hu', state_eq_of_unobserved hsame⟩
  · -- the other way round with the observers exchanged
    rintro ⟨u', hu', rfl⟩
    obtain ⟨u, hu, hapart⟩ := (pairing_apart ha hdeaf hquiet' hquiet).reached
      (ends_of_prepare hdeaf ha hvalid) hu'
    exact ⟨u, hu, state_eq_of_unobserved hapart.same⟩

end

end Executor

end Descent
