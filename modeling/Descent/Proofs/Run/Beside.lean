import Descent.Proofs.Act.Course
import Descent.Proofs.Run.Faults
import Descent.Proofs.State.Alike
import Mathlib.Data.List.Forall2

/-!
# Runs side by side

Two solvers whose steps go side by side along a course of their sessions (`Solver.Beside`) are run
side by side, too.  The preparation and an iteration up to its verdict change the stage only, so
they do whatever else differs between the executors (`prepare_beside`, `iterate_beside`).  A whole
run does if the executors are alike in what is read of them (`Executor.Fellows`, `run_beside`).
-/

namespace Descent

open Act

variable {R V M σ υ μ ν α β : Type} [Scalar R]

/-! ### Stages -/

/-- Stages follow a course if their sessions do, and their memories and states are alike. -/
def Stage.course (ses : Course R (Session R σ) (Session R υ)) (mem : μ → ν → Prop)
    (like : State R V M → State R V M → Prop) : Course R (Stage R V M σ μ) (Stage R V M υ ν) :=
  ses.on Stage.session Stage.session fun t u => mem t.memory u.memory ∧ like t.state u.state

/-- Two solvers with a name and steps that go side by side. -/
structure Solver.Beside (ses : Course R (Session R σ) (Session R υ)) (mem : μ → ν → Prop)
    (like : State R V M → State R V M → Prop) (a : Solver R V M σ μ) (b : Solver R V M υ ν) :
    Prop where
  name : a.name = b.name
  init : (Stage.course ses mem like).Beside Eq a.init b.init
  next : (Stage.course ses mem like).Beside Eq a.next b.next
  terminate : (Stage.course ses mem like).Beside Eq a.terminate b.terminate

namespace Executor

variable {ses : Course R (Session R σ) (Session R υ)} {mem : μ → ν → Prop}
  {like : State R V M → State R V M → Prop}
  {rest : Executor R V M σ μ → Executor R V M υ ν → Prop}
  {a : Solver R V M σ μ} {b : Solver R V M υ ν} {Q : α → β → Prop}

/-- Executors follow a course if their stages do, and what is beside the stages is related. -/
def course (ses : Course R (Session R σ) (Session R υ)) (mem : μ → ν → Prop)
    (like : State R V M → State R V M → Prop)
    (rest : Executor R V M σ μ → Executor R V M υ ν → Prop) :
    Course R (Executor R V M σ μ) (Executor R V M υ ν) :=
  (Stage.course ses mem like).on Executor.stage Executor.stage rest

/-- The relation does not look at the stages. -/
def Unstaged (rest : Executor R V M σ μ → Executor R V M υ ν → Prop) : Prop :=
  ∀ e e' t t', rest e e' → rest (e.withStage t) (e'.withStage t')

/-! ### Iterations -/

section

variable (hrest : Unstaged rest)

include hrest

theorem onStage_beside {x : Act R (Stage R V M σ μ) α} {y : Act R (Stage R V M υ ν) β}
    (h : (Stage.course ses mem like).Beside Q x y) :
    (course ses mem like rest).Beside Q (onStage x) (onStage y) :=
  h.zoom (Course.frames_on (fun _ _ => rfl) (fun _ _ => rfl) fun e e' t t' => hrest e e' t t')

theorem changeState_beside {f g : State R V M → State R V M}
    (h : ∀ s s', like s s' → like (f s) (g s')) :
    (course ses mem like rest).Beside Eq (changeState f) (changeState g) := by
  refine .modify (fun e e' he => ?_) fun e he => ?_
  · obtain ⟨hbeside, ⟨hmemory, hstate⟩, hsession⟩ := he
    exact ⟨hrest _ _ _ _ hbeside, ⟨hmemory, h _ _ hstate⟩, hsession⟩
  · obtain ⟨⟨e', hbeside⟩, ⟨u, hmemory, hstate⟩, hsession⟩ := he
    exact ⟨⟨_, hrest _ _ _ e'.stage hbeside⟩, ⟨u.withState (g u.state), hmemory, h _ _ hstate⟩,
      hsession⟩

omit hrest in
theorem state_beside : (course ses mem like rest).Beside like state state := by
  refine .read (fun _ => rfl) (fun _ => rfl) (fun e e' he => .ok he.2.1.2) fun e he s hs => ?_
  obtain ⟨-, ⟨u, -, hstate⟩, -⟩ := he
  cases hs
  exact ⟨u.state, hstate⟩

variable (hlike : State.Steady like)

include hlike

theorem merge_beside (d : Delta R V M) :
    (course ses mem like rest).Beside Eq (merge d) (merge d) := by
  refine onStage_beside hrest ⟨fun t u ht => ?_, fun t ht => ?_⟩
  · obtain ⟨⟨hmemory, hstate⟩, hsession⟩ := ht
    have hfst : (u.state.merge d).1 = (t.state.merge d).1 := hlike.merge_fst hstate d
    refine .together ⟨⟨hmemory, hlike.merge hstate d⟩, hsession⟩ ?_
    exact hfst ▸ .refl _
  · obtain ⟨⟨u, hmemory, hstate⟩, hsession⟩ := ht
    refine ⟨⟨⟨u.withState (u.state.merge d).2, hmemory, ?_⟩, hsession⟩, fun x _ => ⟨x, rfl⟩⟩
    exact hlike.merge hstate d

theorem advance_beside : (course ses mem like rest).Beside Eq advance advance := by
  unfold advance
  refine state_beside.bind fun s s' hs => ?_
  refine (Course.Beside.lift_agree (hlike.incrementIter hs)).bind fun s s' hs => ?_
  exact changeState_beside hrest fun _ _ _ => hs

theorem verdict_beside (h : Solver.Beside ses mem like a b) (d : Delta R V M) :
    (course ses mem like rest).Beside Eq (verdict a d) (verdict b d) := by
  unfold verdict
  cases d.termination.filter Reason.isTerminal with
  | some r => exact .pure rfl
  | none =>
    refine (onStage_beside hrest h.terminate).bind_eq fun r => ?_
    refine Course.Beside.ite (.pure rfl) (state_beside.bind fun s s' hs => ?_)
    rw [hlike.targetReached hs]
    exact (Course.Beside.lift _).bind_eq fun met => .ite (.pure rfl) (.pure rfl)

theorem iterate_beside (h : Solver.Beside ses mem like a b) :
    (course ses mem like rest).Beside Eq (iterate a) (iterate b) := by
  unfold iterate
  refine (onStage_beside hrest h.next).bind_eq fun o => (Course.Beside.lift _).bind_eq fun d => ?_
  refine (merge_beside hrest hlike d).bind_eq fun newBest => ?_
  refine (advance_beside hrest hlike).bind_eq fun _ => ?_
  refine (verdict_beside hrest hlike h d).bind_eq fun r => ?_
  refine (changeState_beside hrest fun s s' hs => hlike.terminateWith hs r).bind_eq fun _ => ?_
  exact .pure rfl

theorem prepare_beside (h : Solver.Beside ses mem like a b) :
    (course ses mem like rest).Beside Eq (prepare a) (prepare b) := by
  unfold prepare
  refine (onStage_beside hrest h.init).bind_eq fun o => ?_
  cases o with
  | none => exact .pure rfl
  | some d =>
    refine (merge_beside hrest hlike d).bind_eq fun _ => ?_
    cases d.termination with
    | none => exact .pure rfl
    | some r => exact changeState_beside hrest fun s s' hs => hlike.terminateWith hs r

end

end Executor

/-! ### What whole runs ask for -/

/-- A run that may start has a start. -/
theorem Config.isSome_of_validate {c : Config R V} (h : c.validate = .ok ()) :
    c.param.isSome := by
  unfold validate at h
  cases hparam : c.param with
  | some x => rfl
  | none =>
    rw [hparam] at h
    cases h

/-- The session once an event was reported. -/
def Session.told (s : Session R σ) (event : Event R) : Session R σ :=
  { s with journal := event :: s.journal }

/-- The course goes on over what is reported. -/
structure Course.Hears (ses : Course R (Session R σ) (Session R υ)) : Prop where
  told : ∀ {s u}, ses.together s u → ∀ event, ses.together (s.told event) (u.told event)
  broken_told : ∀ {s f}, ses.broken s f → ∀ event, ses.broken (s.told event) f
  astray_told : ∀ {s}, ses.astray s → ∀ event, ses.astray (s.told event)

/-- The course looks at nothing of the sessions that a run changes besides evaluating, and sees
what a run looks at. -/
structure Course.Bears (ses : Course R (Session R σ) (Session R υ)) (clock : R → R → Prop) :
    Prop extends ses.Hears where
  counts : ∀ {s u}, ses.together s u → s.counts = u.counts
  debug : ∀ {s u}, ses.together s u → s.debug = u.debug
  elapsed : ∀ {s u}, ses.together s u → clock s.elapsed u.elapsed

omit [Scalar R] in
/-- One that looks at the clock need not. -/
theorem Course.Bears.timeless {ses : Course R (Session R σ) (Session R υ)} {clock : R → R → Prop}
    (h : ses.Bears clock) : ses.Bears fun _ _ => True where
  toHears := h.toHears
  counts := h.counts
  debug := h.debug
  elapsed _ := trivial

/-- The relation is kept by whatever a run does to the state, and tells the ceiling. -/
structure State.Lasting (like : State R V M → State R V M → Prop) (clock : R → R → Prop) : Prop
    extends State.Steady like where
  ceiling : ∀ {s s'}, like s s' → s.maxIters = s'.maxIters
  start : ∀ {s s'}, like s s' → ∀ {x : Option V}, x.isSome → ∀ ceiling target,
    like { s with param := x, maxIters := ceiling, targetCost := target }
      { s' with param := x, maxIters := ceiling, targetCost := target }
  close : ∀ {s s'}, like s s' → ∀ {x y}, clock x y →
    like { s with time := some (.real x) } { s' with time := some (.real y) }

theorem State.lasting_abreast :
    State.Lasting (State.Abreast Eq : State R V M → State R V M → Prop) fun _ _ => True where
  toSteady := State.steady_abreast Eq
  ceiling h := h.ceiling
  start := by
    intro s s' h x _ ceiling target
    refine ⟨rfl, ?_⟩
    exact congrArg (fun t : State R V M =>
      { t with param := x, maxIters := ceiling, targetCost := target }) h.eq_under
  close h _ y _ :=
    ⟨h.ceiling, congrArg (fun t : State R V M => { t with time := some (.real y) }) h.eq_under⟩

theorem State.lasting_eq : State.Lasting (Eq : State R V M → State R V M → Prop) Eq where
  toSteady := State.steady_eq
  ceiling h := by rw [h]
  start h _ _ _ _ := by rw [h]
  close h _ _ hxy := by rw [h, hxy]

theorem State.Lasting.placed {like : State R V M → State R V M → Prop} {clock : R → R → Prop}
    (h : State.Lasting like clock) : State.Lasting (State.Placed like) clock where
  toSteady := h.toSteady.placed
  ceiling hs := h.ceiling hs.2
  start hs _ hx ceiling target := ⟨hx, h.start hs.2 hx ceiling target⟩
  close hs _ _ hxy := ⟨hs.1, h.close hs.2 hxy⟩

/-- The observer does not tell states apart that are alike. -/
def Observer.Blind (like : State R V M → State R V M → Prop) (o : Observer R V M) : Prop :=
  ∀ s s', like s s' → ∀ k, o.notify s k = o.notify s' k

/-- Two notifications of states that are alike. -/
structure Notice.Alike (like : State R V M → State R V M → Prop) (n n' : Notice R V M) : Prop where
  position : n.position = n'.position
  iteration : n.iteration = n'.iteration
  snapshot : like n.snapshot n'.snapshot

/-- Two outcomes with states that are alike. -/
structure Outcome.Alike (like : State R V M → State R V M → Prop) (o o' : Outcome R V M) :
    Prop where
  solver : o.solver = o'.solver
  state : like o.state o'.state
  counts : o.counts = o'.counts

namespace Executor

/-- Two executors that are alike beside their stages, and whose observers are blind to what the
states differ in. -/
structure Fellows (like : State R V M → State R V M → Prop) (e : Executor R V M σ μ)
    (e' : Executor R V M υ ν) : Prop where
  config : e.config = e'.config
  observers : e.observers = e'.observers
  status : e.status = e'.status
  notices : List.Forall₂ (Notice.Alike like) e.notices e'.notices
  blind : ∀ entry ∈ e.observers, entry.observer.Blind like

/-- Where states that are alike are the same, so are the notices. -/
theorem Fellows.notices_eq {like : State R V M → State R V M → Prop} {e : Executor R V M σ μ}
    {e' : Executor R V M υ ν} (h : Fellows like e e') (hlike : ∀ s s', like s s' → s = s') :
    e.notices = e'.notices := by
  have hsame : List.Forall₂ Eq e.notices e'.notices := by
    refine h.notices.imp fun n n' hn => ?_
    obtain ⟨position, iteration, s⟩ := n
    obtain ⟨position', iteration', s'⟩ := n'
    obtain ⟨hposition, hiteration, hs⟩ := hn
    dsimp only at hposition hiteration hs
    rw [hposition, hiteration, hlike s s' hs]
  rwa [List.forall₂_eq_eq_eq] at hsame

variable {ses : Course R (Session R σ) (Session R υ)} {mem : μ → ν → Prop}
  {like : State R V M → State R V M → Prop} {clock : R → R → Prop}
  {a : Solver R V M σ μ} {b : Solver R V M υ ν}

theorem unstaged_fellows :
    Unstaged (Fellows like : Executor R V M σ μ → Executor R V M υ ν → Prop) :=
  fun _ _ _ _ h => ⟨h.config, h.observers, h.status, h.notices, h.blind⟩

theorem check_eq_of_like (hlike : State.Lasting like clock) {s s' before before' : State R V M}
    (hs : like s s') (hbefore : like before before') :
    s'.check before'.curIter before'.bestCost = s.check before.curIter before.bestCost := by
  rw [hlike.eq_under hs, hlike.eq_under hbefore, ← hlike.ceiling hs]
  rfl

theorem continues_eq_of_like (hlike : State.Lasting like clock) {s s' : State R V M}
    (hs : like s s') : continues s' = continues s := by
  rw [hlike.eq_under hs, ← hlike.ceiling hs]
  rfl

/-- A fault that breaks the course off is passed on, and the course stays broken. -/
theorem settle_broken (hbears : ses.Bears clock) {f : Fault R} {e : Executor R V M σ μ}
    (he : (course (υ := υ) (ν := ν) ses mem like (Fellows like)).broken e f) :
    ∃ e', (settle a (.error f)).run e = (.error f, e') ∧
      (course (υ := υ) (ν := ν) ses mem like (Fellows like)).broken e' f := by
  cases hf : f.isInterrupt with
  | true =>
    refine ⟨e, ?_, he⟩
    unfold settle
    dsimp only
    rw [hf]
    rfl
  | false =>
    refine ⟨((abort a f).run e).2, ?_, hbears.broken_told he _⟩
    unfold settle
    dsimp only
    rw [hf]
    rfl

/-! ### The end of an iteration -/

/-- What the end of an iteration tells: the report, and the notifications. -/
def tell (newBest : Bool) : Act R (Executor R V M σ μ) Unit := do
  let s ← state
  report (.iterated s.curIter s.cost s.bestCost s.reason)
  notify newBest

/-- An iteration ends with a check of its state and what is told of it. -/
theorem conclude_eq (before : State R V M) (newBest : Bool) :
    (conclude before newBest : Act R (Executor R V M σ μ) Unit) =
      checkInvariants before >>= fun _ => tell newBest :=
  rfl

section

variable (hhears : ses.Hears)

include hhears

theorem report_beside (event : Event R) :
    (course (μ := μ) (ν := ν) ses mem like (Fellows like)).Beside Eq (report event)
      (report event) where
  goes e e' he := by
    obtain ⟨hbeside, hstage, hsession⟩ := he
    exact .together ⟨unstaged_fellows _ _ _ _ hbeside, hstage, hhears.told hsession event⟩ (.ok rfl)
  stays e he := by
    obtain ⟨⟨e', hbeside⟩, hstage, hsession⟩ := he
    exact ⟨⟨⟨_, unstaged_fellows _ _ _ e'.stage hbeside⟩, hstage,
      hhears.astray_told hsession event⟩, fun x _ => ⟨x, rfl⟩⟩

variable (hlike : State.Lasting like clock)

include hlike

theorem notifyOne_beside {s s' : State R V M} (hs : like s s') (position : Nat)
    {entry : ObserverEntry R V M} (hblind : entry.observer.Blind like) :
    (course (μ := μ) (ν := ν) ses mem like (Fellows like)).Beside Eq
      (notifyOne s position entry) (notifyOne s' position entry) := by
  have hcur : s'.curIter = s.curIter := by
    rw [hlike.eq_under hs]
    rfl
  unfold notifyOne
  refine Course.Beside.bind_eq (.modify_beside (fun _ => rfl) (fun _ => rfl) ?_) fun _ => ?_
  · intro e e' he
    exact ⟨he.config, he.observers, he.status, .cons ⟨rfl, hcur.symm, hs⟩ he.notices, he.blind⟩
  rw [hcur, ← hblind s s' hs]
  rcases entry.observer.notify s s.curIter with ⟨events, fault⟩
  refine (Course.Beside.forIn events (fun event _ _ => ?_) ()).bind_eq fun _ => ?_
  · exact (report_beside hhears event).bind_eq fun _ => .pure rfl
  · cases fault with
    | none => exact .pure rfl
    | some f => exact (Course.Beside.throw f).ite (report_beside hhears _)

theorem notify_beside (newBest : Bool) :
    (course (μ := μ) (ν := ν) ses mem like (Fellows like)).Beside Eq (notify newBest)
      (notify newBest) := by
  unfold notify
  refine state_beside.bind fun s s' hs => Course.Beside.get.bind fun e e' he => ?_
  have hcur : s'.curIter = s.curIter := by
    rw [hlike.eq_under hs]
    rfl
  rw [hcur, ← he.observers]
  -- those that are notified were chosen among the executor's, so they are blind
  refine Course.Beside.bind (Q := fun chosen chosen' => chosen = chosen' ∧
    ∀ entry ∈ chosen, entry.2 ∈ e.observers) (.lift_agree ?_) ?_
  · cases hchosen : wanted s.curIter newBest ((List.range e.observers.length).zip e.observers) with
    | error f => exact .error f
    | ok chosen =>
      exact .ok ⟨rfl, fun entry hentry => (List.of_mem_zip (subset_of_wanted hchosen hentry)).2⟩
  · rintro chosen _ ⟨rfl, hmem⟩
    refine (Course.Beside.forIn chosen (fun entry hentry _ => ?_) ()).bind_eq fun _ => .pure rfl
    exact (notifyOne_beside hhears hlike hs entry.1 (he.blind _ (hmem entry hentry))).bind_eq
      fun _ => .pure rfl

/-- What is told at the end of an iteration, once the state was checked. -/
theorem tell_beside (newBest : Bool) :
    (course (μ := μ) (ν := ν) ses mem like (Fellows like)).Beside Eq (tell newBest)
      (tell newBest) := by
  unfold tell
  refine state_beside.bind fun s s' hs => ?_
  rw [hlike.eq_under hs]
  exact (report_beside hhears _).bind_eq fun _ => notify_beside hhears hlike newBest

end

section

variable (hbears : ses.Bears clock) (hlike : State.Lasting like clock)

include hbears hlike

theorem checkInvariants_beside {before before' : State R V M} (hbefore : like before before') :
    (course (μ := μ) (ν := ν) ses mem like (Fellows like)).Beside Eq (checkInvariants before)
      (checkInvariants before') := by
  refine .read (fun e => ?_) (fun e => ?_) (fun e e' he => ?_) fun _ _ x _ => ⟨x, rfl⟩
  · rw [run_checkInvariants]
  · rw [run_checkInvariants]
  · rw [run_checkInvariants, run_checkInvariants]
    dsimp only
    rw [check_eq_of_like hlike he.2.1.2 hbefore, hbears.debug he.2.2]
    exact .refl _

theorem conclude_beside {before before' : State R V M} (hbefore : like before before')
    (newBest : Bool) :
    (course (μ := μ) (ν := ν) ses mem like (Fellows like)).Beside Eq (conclude before newBest)
      (conclude before' newBest) := by
  rw [conclude_eq, conclude_eq]
  exact (checkInvariants_beside hbears hlike hbefore).bind_eq fun _ =>
    tell_beside hbears.toHears hlike newBest

/-! ### The loop -/

variable (h : Solver.Beside ses mem like a b)

include h

theorem step_beside :
    (course ses mem like (Fellows like)).Beside Eq (step a) (step b) := by
  unfold step
  refine state_beside.bind fun before before' hbefore => ?_
  refine (iterate_beside unstaged_fellows hlike.toSteady h).bind_eq fun newBest => ?_
  exact conclude_beside hbears hlike hbefore newBest

theorem loop_beside (fuel : Nat) :
    (course ses mem like (Fellows like)).Beside Eq (loop a fuel) (loop b fuel) := by
  induction fuel with
  | zero =>
    unfold loop
    refine state_beside.bind fun s s' hs => ?_
    rw [continues_eq_of_like hlike hs]
    exact (Course.Beside.lift _).bind_eq fun due => (Course.Beside.throw _).ite (.pure rfl)
  | succ fuel ih =>
    unfold loop
    refine state_beside.bind fun s s' hs => ?_
    rw [continues_eq_of_like hlike hs]
    refine (Course.Beside.lift _).bind_eq fun due => ?_
    exact ((step_beside hbears hlike h).bind_eq fun _ => ih).ite (.pure rfl)

theorem drive_beside :
    (course ses mem like (Fellows like)).Beside Eq (drive a) (drive b) := by
  unfold drive
  refine (prepare_beside unstaged_fellows hlike.toSteady h).bind_eq fun _ => ?_
  refine Course.Beside.get.bind fun e e' he => ?_
  rw [he.config]
  exact loop_beside hbears hlike h _

/-! ### A whole run -/

variable (hclock : ∀ x, clock x x)

include hclock

omit h in
theorem close_beside :
    (course (μ := μ) (ν := ν) ses mem like (Fellows like)).Beside Eq close close := by
  refine .modify (fun e e' he => ?_) fun e he => ?_
  · obtain ⟨hbeside, ⟨hmemory, hstate⟩, hsession⟩ := he
    refine ⟨⟨hbeside.config, hbeside.observers, rfl, hbeside.notices, hbeside.blind⟩,
      ⟨hmemory, ?_⟩, hsession⟩
    exact hlike.close hstate (hbears.elapsed hsession)
  · obtain ⟨⟨e', hbeside⟩, ⟨u, hmemory, hstate⟩, hsession⟩ := he
    let last : State R V M := { u.state with time := some (.real e.stage.session.elapsed) }
    refine ⟨⟨{ e' with status := .terminated }, hbeside.config, hbeside.observers, rfl,
      hbeside.notices, hbeside.blind⟩, ⟨u.withState last, hmemory, ?_⟩, hsession⟩
    exact hlike.close hstate (hclock _)

theorem settle_beside (r : Except (Fault R) Unit) :
    (course ses mem like (Fellows like)).Beside (Outcome.Alike like) (settle a r) (settle b r) := by
  have hdecide : ∀ r, (course (μ := μ) (ν := ν) ses mem like (Fellows like)).Beside Eq
      (changeState (·.terminateWith r)) (changeState (·.terminateWith r)) := fun r =>
    changeState_beside unstaged_fellows fun s s' hs => hlike.terminateWith hs r
  cases r with
  | ok _ =>
    unfold settle finish
    rw [h.name]
    refine (hdecide _).bind_eq fun _ => (close_beside hbears hlike hclock).bind_eq fun _ => ?_
    refine state_beside.bind fun s s' hs => ?_
    -- the states differ in their limits alone, which the report does not tell
    have hevent : (Event.finished b.name s'.curIter s'.reason s'.bestCost : Event R) =
        .finished b.name s.curIter s.reason s.bestCost := by
      rw [hlike.eq_under hs]
      rfl
    rw [hevent]
    refine (report_beside hbears.toHears _).bind_eq fun _ => ?_
    refine .read (fun _ => rfl) (fun _ => rfl) (fun e e' he => ?_) fun e _ o ho => ?_
    · exact .ok ⟨rfl, hs, hbears.counts he.2.2⟩
    · cases ho
      exact ⟨⟨b.name, s', e.stage.session.counts⟩, rfl, hs, rfl⟩
  | error f =>
    have habort : (course ses mem like (Fellows like)).Beside Eq (abort a f) (abort b f) := by
      unfold abort
      rw [h.name]
      refine (hdecide _).bind_eq fun _ => (close_beside hbears hlike hclock).bind_eq fun _ => ?_
      refine state_beside.bind fun s s' hs => ?_
      have hcur : s'.curIter = s.curIter := by
        rw [hlike.eq_under hs]
        rfl
      rw [hcur]
      exact report_beside hbears.toHears _
    unfold settle
    refine Course.Beside.ite ((Course.Beside.throw f).bind_eq fun _ => ?_) ?_
    all_goals exact habort.bind_eq fun _ => .throw f

omit hclock in
/-- Executors that are started with valid settings go on together, and those that are astray stay
so. -/
theorem begun_together :
    (∀ (e : Executor R V M σ μ) (e' : Executor R V M υ ν), e.config.validate = .ok () →
      (course ses mem like (Fellows like)).together e e' →
        (course ses mem like (Fellows like)).together (begun a e) (begun b e')) ∧
      ∀ e : Executor R V M σ μ, e.config.validate = .ok () →
        (course (υ := υ) (ν := ν) ses mem like (Fellows like)).astray e →
          (course (υ := υ) (ν := ν) ses mem like (Fellows like)).astray (begun a e) := by
  refine ⟨fun e e' hvalid he => ?_, fun e hvalid he => ?_⟩
  · obtain ⟨hbeside, ⟨hmemory, hstate⟩, hsession⟩ := he
    refine ⟨⟨hbeside.config, hbeside.observers, rfl, hbeside.notices, hbeside.blind⟩,
      ⟨hmemory, ?_⟩, ?_⟩
    · -- starting sets the same three fields on both sides
      have hstart := hlike.start hstate (Config.isSome_of_validate hvalid) e.config.maxIters
        e.config.targetCost
      show like _ { e'.stage.state with
        param := e'.config.param
        maxIters := e'.config.maxIters
        targetCost := e'.config.targetCost }
      rw [← hbeside.config]
      exact hstart
    · have htold := hbears.told hsession (.started a.name e.config.maxIters)
      show ses.together _ (e'.stage.session.told (.started b.name e'.config.maxIters))
      rw [← hbeside.config, ← h.name]
      exact htold
  · -- astray, the other side is only known to exist: it is made to begin, too
    obtain ⟨⟨e', hbeside⟩, ⟨u, hmemory, hstate⟩, hsession⟩ := he
    have hstart := hlike.start hstate (Config.isSome_of_validate hvalid) e.config.maxIters
      e.config.targetCost
    let first : State R V M := { u.state with
      param := e.config.param
      maxIters := e.config.maxIters
      targetCost := e.config.targetCost }
    exact ⟨⟨{ e' with status := .running }, hbeside.config, hbeside.observers, rfl,
      hbeside.notices, hbeside.blind⟩, ⟨u.withState first, hmemory, hstart⟩,
      hbears.astray_told hsession _⟩

/-- Runs that have been started are driven to their ends side by side. -/
theorem driven_beside :
    (course ses mem like (Fellows like)).Beside (Outcome.Alike like)
      ((drive a).attempt >>= settle a) ((drive b).attempt >>= settle b) := by
  refine (drive_beside hbears hlike h).attempt_bind (fun r r' hr => ?_) fun f e he => ?_
  · rw [hr.eq]
    exact settle_beside hbears hlike h hclock r'
  · exact settle_broken hbears he

/-- The runs of solvers that go side by side go side by side. -/
theorem run_beside :
    (course ses mem like (Fellows like)).Beside (Outcome.Alike like) (run a) (run b) := by
  have hdriven := driven_beside hbears hlike h hclock
  obtain ⟨hbegun, hbegun'⟩ := begun_together hbears hlike h
  refine ⟨fun e e' he => ?_, fun e he => ?_⟩
  · have hstatus : e.status = e'.status := he.1.status
    have hconfig : e.config = e'.config := he.1.config
    rw [run_run, run_run, ← hstatus, ← hconfig]
    split
    · exact .together he (.error _)
    · cases hvalid : e.config.validate with
      | error f => exact .together he (.error f)
      | ok _ => exact hdriven.goes _ _ (hbegun e e' hvalid he)
  · rw [run_run]
    split
    · exact ⟨he, nofun⟩
    · cases hvalid : e.config.validate with
      | error f => exact ⟨he, nofun⟩
      | ok _ => exact hdriven.stays _ (hbegun' e hvalid he)

end

end Executor

end Descent
