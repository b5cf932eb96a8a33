import Descent.Proofs.Run.Observed
import Descent.Proofs.Solver.Forgets

/-!
# Runs on what came before

Two things come into a run from before it: what the solver kept, and the state of the operator's
own. What the solver kept is not read before it is replaced (`Method.Forgets.same`), and a
deterministic operator answers the same whatever its state (`Session.serves_twins`).  So the runs of
a method that minimises repeat each other, whatever came before (`Executor.run_fresh`): they are in
the same states, charge the same evaluations, report the same and end alike, be it with an outcome
or with a fault.
-/

namespace Descent

open Act

variable {R V M σ μ : Type} [Scalar R]

/-! ### Sessions with a deterministic operator -/

namespace Session

omit [Scalar R] in
/-- The sessions differ in the state of the operator at most. -/
structure Twin (s u : Session R σ) : Prop where
  counts : s.counts = u.counts
  journal : s.journal = u.journal
  debug : s.debug = u.debug
  elapsed : s.elapsed = u.elapsed

/-- Sessions that differ in the state of the operator go on alike, and never part. -/
def twins (R σ : Type) : Course R (Session R σ) (Session R σ) where
  together := Twin
  broken _ _ := False
  astray _ := False

omit [Scalar R] in
theorem Twin.symm {s u : Session R σ} (h : s.Twin u) : u.Twin s :=
  ⟨h.counts.symm, h.journal.symm, h.debug.symm, h.elapsed.symm⟩

omit [Scalar R] in
theorem bears_twins : (twins R σ).Bears Eq where
  counts h := h.counts
  debug h := h.debug
  elapsed h := h.elapsed
  told h event := ⟨h.counts, congrArg (event :: ·) h.journal, h.debug, h.elapsed⟩
  broken_told h _ := h
  astray_told h _ := h

omit [Scalar R] in
/-- Whatever the states of the operator, a deterministic one serves sessions alike that differ in
nothing else that an evaluation depends on. -/
theorem serves_of_follows {ses : Course R (Session R σ) (Session R σ)}
    (hcharged : ∀ {s u}, ses.together s u → ∀ cap w w',
      ses.together (s.charged cap w) (u.charged cap w'))
    (hastray : ∀ s, ¬ ses.astray s) {op : Operator R V M σ} {l : Landscape R V M}
    (hop : op.Follows l) (cap : Capability) : ses.Serves op op cap where
  provides := rfl
  evaluates := by
    -- what a deterministic operator answers does not depend on its state
    have hevaluate : ∀ {α : Type} (cap : Capability) {method : Option (V → Act R σ α)}
        {answer : V → Except (Fault R) α},
        (∀ f, method = some f → ∀ x w, ((f x).run w).1 = answer x) → ∀ x,
          ses.Beside Eq (evaluate op cap method (some x)) (evaluate op cap method (some x)) := by
      intro α cap method answer h x
      refine ⟨fun s u hs => ?_, fun s hs => absurd hs (hastray s)⟩
      cases hcap : op.provides cap with
      | false =>
        rw [run_evaluate_refused hcap, run_evaluate_refused hcap]
        exact .together hs (.error _)
      | true =>
        have hanswer : ((op.evaluate cap method x).run s.world).1 =
            ((op.evaluate cap method x).run u.world).1 := by
          cases hmethod : method with
          | none => rfl
          | some f => exact (h f hmethod x s.world).trans (h f hmethod x u.world).symm
        rw [run_evaluate hcap, run_evaluate hcap, hanswer]
        exact .together (hcharged hs cap _ _) (.refl _)
    cases cap with
    | cost => exact hevaluate .cost hop.cost
    | gradient => exact hevaluate .gradient hop.gradient
    | hessian => exact hevaluate .hessian hop.hessian

omit [Scalar R] in
theorem serves_twins {op : Operator R V M σ} {l : Landscape R V M} (hop : op.Follows l)
    (cap : Capability) : (twins R σ).Serves op op cap := by
  refine serves_of_follows ?_ (fun _ h => h) hop cap
  intro s u h cap w w'
  exact ⟨congrArg (·.charge cap) h.counts, h.journal, h.debug, h.elapsed⟩

end Session

namespace Executor

/-- The executors differ in what the solver keeps and in the state of the operator at most. -/
structure Twin (u u' : Executor R V M σ μ) : Prop where
  config : u.config = u'.config
  observers : u.observers = u'.observers
  status : u.status = u'.status
  state : u.stage.state = u'.stage.state
  session : u.stage.session.Twin u'.stage.session
  notices : u.notices = u'.notices

/-- Runs of a solver from two executors are in the same states, have the same outcome or raise the
same fault, and leave executors that differ in what the solver keeps and in the state of the
operator at most. -/
structure Repeats (solver : Solver R V M σ μ) (e e' : Executor R V M σ μ) : Prop where
  visits : e.config.validate = .ok () → ∀ k s, Visits solver e k s ↔ Visits solver e' k s
  outcome : ((run solver).run e).1 = ((run solver).run e').1
  left : Twin ((run solver).run e).2 ((run solver).run e').2

theorem Repeats.of_same {solver : Solver R V M σ μ} {e e₁ e₂ : Executor R V M σ μ}
    (h : Same solver e e₁) (hconfig : e.config = e₁.config) (h' : Repeats solver e₁ e₂) :
    Repeats solver e e₂ where
  visits hvalid k s := (h.visits k s).trans (h'.visits (hconfig ▸ hvalid) k s)
  outcome := h.outcome.trans h'.outcome
  left := by
    obtain ⟨hconfig, hobservers, hstatus, ⟨-, hstate, hsession⟩, hnotices⟩ := h.left
    have hleft := h'.left
    refine ⟨hconfig.trans hleft.config, hobservers.trans hleft.observers,
      hstatus.trans hleft.status, hstate.trans hleft.state, ?_, hnotices.trans hleft.notices⟩
    rw [hsession]
    exact hleft.session

/-! ### Runs on one operator in two states -/

/-- The course of executors that differ in the state of the operator. -/
def twins (R V M σ μ : Type) [Scalar R] :
    Course R (Executor R V M σ μ) (Executor R V M σ μ) :=
  course (Session.twins R σ) Eq (State.Placed Eq) (Fellows (State.Placed Eq))

theorem twin_of_together {u u' : Executor R V M σ μ} (h : (twins R V M σ μ).together u u') :
    Twin u u' := by
  obtain ⟨hfellows, ⟨-, -, hstate⟩, hsession⟩ := h
  exact ⟨hfellows.config, hfellows.observers, hfellows.status, hstate, hsession,
    hfellows.notices_eq fun _ _ hs => hs.2⟩

/-- What goes along the course ends on executors that go on along it, and alike. -/
theorem together_of_beside {α β : Type} {Q : α → β → Prop} {a : Act R (Executor R V M σ μ) α}
    {b : Act R (Executor R V M σ μ) β} (hab : (twins R V M σ μ).Beside Q a b)
    {u u' : Executor R V M σ μ} (h : (twins R V M σ μ).together u u') :
    (twins R V M σ μ).together (a.run u).2 (b.run u').2 ∧ Agree Q (a.run u).1 (b.run u').1 := by
  have hgoes := hab.goes u u' h
  rcases ha : a.run u with ⟨r, v⟩
  rcases hb : b.run u' with ⟨r', v'⟩
  rw [ha, hb] at hgoes
  cases hgoes with
  | together hv hr => exact ⟨hv, hr⟩
  | broken hv => exact hv.elim
  | astray hv _ => exact hv.2.2.elim

section

variable {solver : Solver R V M σ μ} {e e' u : Executor R V M σ μ}
  (hsolver : Solver.Beside (Session.twins R σ) Eq (State.Placed Eq) solver solver)

include hsolver

/-- Wherever the one run has been, the other one has been, too. -/
theorem reached_twins
    (hbegun : (twins R V M σ μ).together (begun solver e) (begun solver e')) {k : Nat}
    (h : Reached solver e k u) :
    ∃ u', Reached solver e' k u' ∧ (twins R V M σ μ).together u u' := by
  have hlike := (State.lasting_eq (R := R) (V := V) (M := M)).placed
  -- an action that the twins take together succeeds for both or for neither
  have hgo {a : Act R (Executor R V M σ μ) Unit} (ha : (twins R V M σ μ).Beside Eq a a)
      {v v' w : Executor R V M σ μ} (hv : (twins R V M σ μ).together v v')
      (hw : a.run v = (.ok (), w)) :
      ∃ w', a.run v' = (.ok (), w') ∧ (twins R V M σ μ).together w w' := by
    obtain ⟨hend, hr⟩ := together_of_beside ha hv
    rw [hw] at hend hr
    exact ⟨(a.run v').2, Prod.ext hr.eq.symm rfl, hend⟩
  obtain ⟨e₀, hprepare, hiterated⟩ := h
  obtain ⟨e₀', hprepare', he₀⟩ :=
    hgo (prepare_beside unstaged_fellows hlike.toSteady hsolver) hbegun hprepare
  induction hiterated with
  | none => exact ⟨e₀', reached_zero.mpr hprepare', he₀⟩
  | more _ due done ih =>
    obtain ⟨v', hv', htogether⟩ := ih
    obtain ⟨w', hdone, htogether'⟩ :=
      hgo (step_beside Session.bears_twins hlike hsolver) htogether done
    have hstate := (twin_of_together htogether).state
    exact ⟨w', hv'.more (hstate ▸ due) hdone, htogether'⟩

omit hsolver in
theorem begun_twins {memory : μ} {session session' : Session R σ} {config : Config R V}
    {observers : List (ObserverEntry R V M)} (hvalid : config.validate = .ok ())
    (h : session.Twin session') :
    (twins R V M σ μ).together (begun solver (ready memory session config observers))
      (begun solver (ready memory session' config observers)) := by
  refine ⟨⟨rfl, rfl, rfl, .nil, fun _ _ s s' hs k => by rw [hs.2]⟩,
    ⟨rfl, Config.isSome_of_validate hvalid, rfl⟩, ?_⟩
  exact Session.bears_twins.told h _

/-- Runs on an operator in two states repeat each other. -/
theorem repeats_of_twin (memory : μ) {session session' : Session R σ} (config : Config R V)
    (observers : List (ObserverEntry R V M)) (h : session.Twin session') :
    Repeats solver (ready memory session config observers)
      (ready memory session' config observers) := by
  cases hvalid : config.validate with
  | error f =>
    refine ⟨fun hvalid' => ?_, ?_, ?_⟩
    · have hrefused : config.validate = .ok () := hvalid'
      rw [hvalid] at hrefused
      cases hrefused
    all_goals rw [run_of_invalid (e := ready memory session config observers) rfl hvalid,
      run_of_invalid (e := ready memory session' config observers) rfl hvalid]
    exact ⟨rfl, rfl, rfl, rfl, h, rfl⟩
  | ok _ =>
    have hlike := (State.lasting_eq (R := R) (V := V) (M := M)).placed
    have hdriven := driven_beside Session.bears_twins hlike hsolver fun _ => rfl
    obtain ⟨hleft, hr⟩ := together_of_beside hdriven (begun_twins hvalid h)
    -- whatever the session, the run is started, driven and settled
    have hstarted (session : Session R σ) :
        (run solver).run (ready memory session config observers) =
          ((drive solver).attempt >>= settle solver).run
            (begun solver (ready memory session config observers)) := by
      have hvalid' : (ready memory session config observers).config.validate = .ok () := hvalid
      rw [run_run, if_neg (fun hnot => hnot rfl), hvalid']
    refine ⟨fun _ k s => ⟨?_, ?_⟩, ?_, ?_⟩
    · rintro ⟨u, hu, rfl⟩
      obtain ⟨u', hu', htogether⟩ := reached_twins hsolver (begun_twins hvalid h) hu
      exact ⟨u', hu', (twin_of_together htogether).state.symm⟩
    · rintro ⟨u, hu, rfl⟩
      obtain ⟨u', hu', htogether⟩ := reached_twins hsolver (begun_twins hvalid h.symm) hu
      exact ⟨u', hu', (twin_of_together htogether).state.symm⟩
    · rw [hstarted, hstarted]
      refine hr.eq_of ?_
      rintro ⟨_, _, _⟩ ⟨_, _, _⟩ ⟨hname, ⟨-, hstate⟩, hcounts⟩
      cases hname
      cases hstate
      cases hcounts
      rfl
    · rw [hstarted, hstarted]
      exact twin_of_together hleft

end

variable [Space R V] [LinearAction R V M]

/-- **A solver carries nothing from one run into the next.**  The runs of a method that minimises,
by a line search or by a trust region around one of the two subproblem solvers, on a deterministic
operator repeat each other whatever the method kept before and whatever state the operator was left
in: begun with the same evaluations charged, they are in the same states after each iteration, have
the same outcome or raise the same fault, and leave the same counts, reports and notices. -/
theorem run_fresh {op : Operator R V M σ} {l : Landscape R V M} (hop : op.Follows l)
    {m : Method R V M} (hm : m.Forgets) {solver : Solver R V M σ (Memory R V M)}
    (hsolver : m.solver op = some solver) (memory memory' : Memory R V M)
    {session session' : Session R σ} (hsession : session.Twin session') (config : Config R V)
    (observers : List (ObserverEntry R V M)) :
    Repeats solver (ready memory session config observers)
      (ready memory' session' config observers) := by
  have hsame : Same solver (ready memory session config observers)
      (ready memory' session config observers) :=
    hm.same hsolver memory memory' session config observers
  have : Nonempty (Session R σ) := ⟨session⟩
  have hbeside : Solver.Beside (Session.twins R σ) Eq (State.Placed Eq) solver solver :=
    hm.descends.beside hsolver hsolver (fun cap _ => Session.serves_twins hop cap)
      Session.bears_twins.timeless State.steady_eq
  exact .of_same hsame rfl (repeats_of_twin hbeside memory' config observers hsession)

/-- A trust-region run down the bowl, which leaves a wider working radius, the last model and the
calls that were made. -/
def usedCauchy : Stage Float (Tensor Float) (Curvature Float)
    (Unit × List (Evaluation Float (Tensor Float) (Curvature Float)))
    (Memory Float (Tensor Float) (Curvature Float)) :=
  ((run recordedCauchy).run (ready .plain ⟨{}, ((), []), [], false, 0.0⟩
    { param := some (.vector .numpy [8.0]) } [])).2.stage

/-- The next run repeats the one that is made with a new method and a new operator. -/
theorem run_fresh_bowl :
    (1.0 : Float) < (usedCauchy.memory.trusted 1.0).working ∧
      usedCauchy.session.world.2.length = 15 ∧
      Repeats recordedCauchy
        (ready usedCauchy.memory ⟨{}, usedCauchy.session.world, [], false, 0.0⟩
          { param := some (.vector .numpy [2.0]) } [])
        (ready (.trust 1.0 (.region Region.unset)) ⟨{}, ((), []), [], false, 0.0⟩
          { param := some (.vector .numpy [2.0]) } []) := by
  have hfollows : bowl.recorded.Follows bowlLandscape := by
    constructor <;> intro f hf x w <;> cases hf <;> rfl
  have hsolver : (Method.trustRegion .cauchy cauchyTrust).solver bowl.recorded =
      some recordedCauchy := rfl
  have hforgets : (Method.trustRegion .cauchy cauchyTrust :
      Method Float (Tensor Float) (Curvature Float)).Forgets := .cauchy cauchyTrust
  refine ⟨by decide +kernel, by decide +kernel, ?_⟩
  -- whatever was left
  generalize usedCauchy.memory = memory
  generalize usedCauchy.session.world = world
  have hsession : (⟨{}, world, [], false, 0.0⟩ : Session Float
      (Unit × List (Evaluation Float (Tensor Float) (Curvature Float)))).Twin
        ⟨{}, ((), []), [], false, 0.0⟩ := ⟨rfl, rfl, rfl, rfl⟩
  exact run_fresh hfollows hforgets hsolver memory _ hsession _ []

end Executor

end Descent
