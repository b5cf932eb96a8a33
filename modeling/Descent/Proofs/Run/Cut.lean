import Descent.Machine
import Descent.Proofs.Operator.Refusals
import Descent.Proofs.Run.Abort
import Descent.Proofs.Run.Accounted
import Descent.Proofs.Run.Faithful
import Descent.Proofs.Run.Forward
import Descent.Proofs.Run.Observed
import Descent.Proofs.Solver.Beside
import Descent.Tensor.Solve

/-!
# Runs that an operator cuts short

A call of the operator that fails in an iteration costs the run that iteration and nothing else: its
state is the one that a run with a lower ceiling would have ended with, on any operator that answers
the calls before the failed one alike (`Executor.run_cut`).

The proof lets the run on the recorded operator go beside the other one along the course of its
transcript (`Transcript.course`), iteration by iteration, and then has the next iteration break off.
A solver that does not assign to the state leaves it alone until its step is made, and asks the
operator for nothing once it is.
-/

namespace Descent

open Act

variable {R V M σ υ μ ν α : Type} [Scalar R]

/-! ### Courses that a run bears -/

omit [Scalar R] in
theorem Transcript.bears_course (op : Operator R V M υ) (es : List (Evaluation R V M))
    (call : Evaluation R V M) : (course (σ := σ) op es call).Bears fun _ _ => True where
  counts h := h.1
  debug h := h.2.1
  elapsed _ := trivial
  told h _ := h
  broken_told h _ := h
  astray_told h _ := h

omit [Scalar R] in
theorem Transcript.bears_recording : (recording R σ V M).Bears Eq where
  counts h := h.1
  debug h := h.2.2.2.1
  elapsed h := h.2.2.2.2
  told h event := ⟨h.1, h.2.1, congrArg (event :: ·) h.2.2.1, h.2.2.2⟩
  broken_told h _ := h
  astray_told h _ := h

namespace Executor

/-- Where nothing else ended the run, the counter and the ceiling say whether another iteration is
due. -/
theorem continues_of_counted {s : State R V M} {i n : Int} (hnot : s.terminated = false)
    (hi : s.curIter = .int i) (hn : s.maxIters.number? = some (.int n)) :
    continues s = .ok (decide (i < n)) := by
  have hi' : (Value.int i : Value R).number? = some (.int i) := rfl
  unfold continues
  rw [hnot, hi]
  exact Value.lt_of_number? hi' hn

variable {op : Operator R V M σ} {op' : Operator R V M υ} {es : List (Evaluation R V M)}
  {call : Evaluation R V M} {ceiling : Value R} {k : Nat}

/-! ### A recorded run beside a shorter one -/

/-- A run whose calls are recorded goes beside one with a ceiling of `k` on an operator that answers
the calls `es` alike, and whose observers do not interrupt it. -/
def cutCourse (op' : Operator R V M υ) (es : List (Evaluation R V M)) (call : Evaluation R V M)
    (ceiling : Value R) (k : Nat) :
    Course R (Executor R V M (σ × List (Evaluation R V M)) μ) (Executor R V M υ μ) :=
  course (Transcript.course op' es call) Eq
    (State.Placed (State.Abreast fun c c' => c = ceiling ∧ c' = .int k))
    fun _ e' => ∀ entry ∈ e'.observers, Quiet entry

variable {e u : Executor R V M (σ × List (Evaluation R V M)) μ} {e' u' : Executor R V M υ μ}

theorem together_of_untold (he : (cutCourse op' es call ceiling k).together e e')
    (h : u.untold = e.untold) (h' : u'.untold = e'.untold) :
    (cutCourse op' es call ceiling k).together u u' := by
  obtain ⟨hquiet, hstage⟩ := he
  obtain ⟨journal, hu⟩ := stage_eq_of_untold h
  obtain ⟨journal', hu'⟩ := stage_eq_of_untold h'
  have hobservers : u'.untold.observers = e'.untold.observers := congrArg Executor.observers h'
  refine ⟨?_, ?_⟩
  · show ∀ entry ∈ u'.untold.observers, Quiet entry
    rw [hobservers]
    exact hquiet
  · rw [hu, hu']
    exact hstage

theorem astray_of_untold (he : (cutCourse (μ := μ) op' es call ceiling k).astray e)
    (h : u.untold = e.untold) : (cutCourse (μ := μ) op' es call ceiling k).astray u := by
  obtain ⟨hquiet, ⟨t, hstage⟩, hsession⟩ := he
  obtain ⟨journal, hu⟩ := stage_eq_of_untold h
  refine ⟨hquiet, ?_⟩
  rw [hu]
  exact ⟨⟨t, hstage⟩, hsession⟩

/-- An iteration that the longer run completes the shorter one completes alike, as long as its
ceiling is not reached and the calls are those that are answered alike. -/
theorem step_together {a : Solver R V M (σ × List (Evaluation R V M)) μ} {b : Solver R V M υ μ}
    (hab : Solver.Beside (Transcript.course op' es call) Eq
      (State.Placed (State.Abreast fun c c' => c = ceiling ∧ c' = .int k)) a b)
    (ha : a.Abstains) {i : Nat} (hi : e.stage.state.curIter = .int i) (hik : i < k)
    (hdue : continues e.stage.state = .ok true) (hstep : (step a).run e = (.ok (), u))
    (he : (cutCourse op' es call ceiling k).together e e') :
    (cutCourse (μ := μ) op' es call ceiling k).astray u ∨
      ∃ u', continues e'.stage.state = .ok true ∧ (step b).run e' = (.ok (), u') ∧
        (cutCourse op' es call ceiling k).together u u' := by
  obtain ⟨newBest, v, hiterate, hconclude⟩ := step_eq_ok.mp hstep
  have huntold : u.untold = v.untold := (keeps_untold_conclude _ _).run_eq hconclude
  have hlike := State.steady_abreast (R := R) (V := V) (M := M)
    fun c c' => c = ceiling ∧ c' = .int k
  have hgoes := (iterate_beside (fun _ _ _ _ h => h) hlike.placed hab).goes e e' he
  rw [hiterate] at hgoes
  rcases hb : (iterate b).run e' with ⟨r, v'⟩
  rw [hb] at hgoes
  cases hgoes with
  | astray hv _ => exact .inl (astray_of_untold hv huntold)
  | together hv hr =>
    cases hr with | ok hr =>
    obtain rfl := hr
    obtain ⟨-, ⟨-, -, hceiling, heq⟩, -⟩ := he
    obtain ⟨hquiet, ⟨-, -, hceiling', heq'⟩, hdebug⟩ := id hv
    have hcounter : v.stage.state.curIter = .int ((i : Int) + 1) :=
      curIter_of_iterate ha hiterate hi
    have hcounter' : v'.stage.state.curIter = .int ((i : Int) + 1) := by
      rw [heq']
      exact hcounter
    have hdue' : continues e'.stage.state = .ok true := by
      have hnot : e.stage.state.terminated = false :=
        not_terminated_of_continues (by rw [hdue]; exact nofun)
      have hcounted : continues e'.stage.state = .ok (decide ((i : Int) < k)) := by
        rw [heq]
        exact continues_of_counted hnot hi (congrArg Value.number? hceiling.2)
      rw [hcounted, decide_eq_true (by omega)]
    have hcheck : v'.stage.session.debug = true →
        v'.stage.state.check e'.stage.state.curIter e'.stage.state.bestCost = .ok () := by
      -- the longer run made this check, under its own ceiling
      intro hdebug'
      have hsame : v.stage.session.debug = v'.stage.session.debug := hdebug.2.1
      have hchecked :
          v.stage.state.check e.stage.state.curIter e.stage.state.bestCost = .ok () := by
        unfold conclude at hconclude
        obtain ⟨_, w, hcheck, -⟩ := run_bind_eq_ok.mp hconclude
        rw [run_checkInvariants, hsame, hdebug', if_pos rfl, Prod.mk.injEq] at hcheck
        exact hcheck.1
      have hgt : v.stage.state.curIter.gt v'.stage.state.maxIters = .ok false := by
        rw [hcounter, hceiling'.2]
        exact congrArg Except.ok (decide_eq_false (by omega))
      rw [heq, heq']
      exact State.check_under hchecked hgt
    obtain ⟨u', hu'⟩ : ∃ u', (conclude e'.stage.state newBest).run v' = (.ok (), u') :=
      conclude_of_quiet hcounter' hquiet hcheck
    refine .inr ⟨u', hdue', step_eq_ok.mpr ⟨newBest, v', hb, hu'⟩, ?_⟩
    exact together_of_untold hv huntold ((keeps_untold_conclude _ _).run_eq hu')

section

variable {a : Solver R V M (σ × List (Evaluation R V M)) μ} {b : Solver R V M υ μ}
  (hab : Solver.Beside (Transcript.course op' es call) Eq
    (State.Placed (State.Abreast fun c c' => c = ceiling ∧ c' = .int k)) a b)
  (ha : a.Abstains)

include hab

/-- What went astray stays so. -/
theorem step_astray (hstep : (step a).run e = (.ok (), u))
    (he : (cutCourse (μ := μ) op' es call ceiling k).astray e) :
    (cutCourse (μ := μ) op' es call ceiling k).astray u := by
  obtain ⟨newBest, v, hiterate, hconclude⟩ := step_eq_ok.mp hstep
  have hlike := State.steady_abreast (R := R) (V := V) (M := M)
    fun c c' => c = ceiling ∧ c' = .int k
  obtain ⟨hv, -⟩ := (iterate_beside (fun _ _ _ _ h => h) hlike.placed hab).stays e he
  rw [hiterate] at hv
  exact astray_of_untold hv ((keeps_untold_conclude _ _).run_eq hconclude)

include ha

/-- Wherever the longer run has been before the ceiling of the shorter one, this has been too. -/
theorem reached_together {memory : μ} {s : Session R (σ × List (Evaluation R V M))}
    {config : Config R V} {observers : List (ObserverEntry R V M)} {start' : Executor R V M υ μ}
    (hbegun : (cutCourse op' es call ceiling k).together
      (begun a (ready memory s config observers)) (begun b start'))
    {i : Nat} (hik : i ≤ k) (h : Reached a (ready memory s config observers) i e) :
    (cutCourse (μ := μ) op' es call ceiling k).astray e ∨
      ∃ e', Reached b start' i e' ∧ (cutCourse op' es call ceiling k).together e e' := by
  obtain ⟨e₀, hprepare, hiterated⟩ := h
  induction hiterated with
  | none =>
    have hlike := State.steady_abreast (R := R) (V := V) (M := M)
      fun c c' => c = ceiling ∧ c' = .int k
    have hgoes := (prepare_beside (fun _ _ _ _ h => h) hlike.placed hab).goes _ _ hbegun
    rw [hprepare] at hgoes
    rcases hb : (prepare b).run (begun b start') with ⟨r, e'⟩
    rw [hb] at hgoes
    cases hgoes with
    | astray he _ => exact .inl he
    | together he hr =>
      cases hr
      exact .inr ⟨e', reached_zero.mpr hb, he⟩
  | more before due done ih =>
    -- the counter of the longer run tells that the shorter one is below its ceiling here
    have hstands := standsAt_of_reached ha ⟨e₀, hprepare, before⟩
    rcases ih (by omega) with hastray | ⟨e', hreached, htogether⟩
    · exact .inl (step_astray hab done hastray)
    · rcases step_together hab ha hstands.counter (by omega) due done htogether with
        hastray | ⟨u', hdue', hstep', hu⟩
      · exact .inl hastray
      · exact .inr ⟨u', hreached.more hdue' hstep', hu⟩

omit ha in
/-- The solver's step breaks off in the failing call, if that is made in an iteration. -/
theorem next_eq_error (hd : a.Decides) {f : Fault R}
    (he : (cutCourse op' es call ceiling k).together e e')
    (hcall : es ++ [call] <+: ((step a).run e).2.stage.session.world.2)
    (hfault : call.fault? = some f) :
    ∃ t, a.next.run e.stage = (.error f, t) ∧ t.session.counts.total = es.length + 1 := by
  obtain ⟨-, hstage⟩ := he
  rw [world_step hd] at hcall
  have hgoes := hab.next.goes _ _ hstage
  rcases hnext : a.next.run e.stage with ⟨r, t⟩
  rcases hother : b.next.run e'.stage with ⟨r', t'⟩
  rw [hnext] at hcall
  rw [hnext, hother] at hgoes
  cases hgoes with
  | together ht _ =>
    -- the calls were answered alike, so the failing one was not made
    obtain ⟨-, -, -, -, rest, hes, -⟩ := ht
    have hlength := hcall.length_le
    rw [hes, List.length_append, List.length_append, List.length_singleton] at hlength
    dsimp only at hlength
    omega
  | broken ht =>
    obtain ⟨htotal, hlog, hf⟩ := ht
    rw [hfault] at hf
    cases hf
    refine ⟨t, rfl, ?_⟩
    rw [htotal, hlog, List.length_append, List.length_singleton]
  | astray ht _ => exact absurd ht.2 (not_diverge hcall (List.prefix_refl _))

end

/-! ### The run that fails and the run that ends -/

/-- A configuration that is valid is valid under a ceiling that is not negative. -/
theorem validate_under {c : Config R V} (h : c.validate = .ok ()) (k : Nat) :
    { c with maxIters := .int k }.validate = .ok () := by
  unfold Config.validate at h ⊢
  -- a natural number passes the check of the ceiling
  have hlt : (Value.int k : Value R).lt (.int 0) = .ok false :=
    congrArg Except.ok (decide_eq_false (Int.not_lt.mpr (Int.natCast_nonneg k)))
  dsimp only
  rw [hlt]
  cases hparam : c.param.isNone with
  | true =>
    rw [hparam] at h
    cases h
  | false =>
    rw [hparam] at h
    rcases hmax : c.maxIters.lt (.int 0) with g | _ | _
    · rw [hmax] at h
      cases h
    · rw [hmax] at h
      exact h
    · rw [hmax] at h
      cases h

/-- A run makes the call `call` after the calls `es`, in the iteration after the first `k`.  The
operator notes its calls. -/
def Calls (solver : Solver R V M (σ × List (Evaluation R V M)) μ)
    (start : Executor R V M (σ × List (Evaluation R V M)) μ) (k : Nat)
    (es : List (Evaluation R V M)) (call : Evaluation R V M) : Prop :=
  ∃ e, Reached solver start k e ∧ continues e.stage.state = .ok true ∧
    e.stage.session.world.2 <+: es ∧
    es ++ [call] <+: ((step solver).run e).2.stage.session.world.2

/-- Where the call is made and fails: the longer run stands before the iteration, the solver's step
fails in it, and the shorter run has come as far. -/
theorem exists_cut {a : Solver R V M (σ × List (Evaluation R V M)) μ} {b : Solver R V M υ μ}
    (hab : Solver.Beside (Transcript.course op' es call) Eq
      (State.Placed (State.Abreast fun c c' => c = ceiling ∧ c' = .int k)) a b)
    (ha : a.Abstains) (hd : a.Decides) {memory : μ} {s : Session R (σ × List (Evaluation R V M))}
    {config : Config R V} {observers : List (ObserverEntry R V M)} {start' : Executor R V M υ μ}
    (hbegun : (cutCourse op' es call ceiling k).together
      (begun a (ready memory s config observers)) (begun b start'))
    (hcalls : Calls a (ready memory s config observers) k es call) {f : Fault R}
    (hfault : call.fault? = some f) :
    ∃ e e' t, Reached a (ready memory s config observers) k e ∧
      continues e.stage.state = .ok true ∧ a.next.run e.stage = (.error f, t) ∧
      t.session.counts.total = es.length + 1 ∧ Reached b start' k e' ∧
      (cutCourse (μ := μ) op' es call ceiling k).together e e' := by
  obtain ⟨e, hreached, hdue, hbefore, hcall⟩ := hcalls
  -- before the iteration the calls were those that are answered alike
  obtain ⟨e', hreached', htogether⟩ :=
    (reached_together hab ha hbegun (Nat.le_refl k) hreached).resolve_left fun h =>
      not_diverge (List.prefix_refl _) (hbefore.trans (List.prefix_append es [call])) h.2.2
  obtain ⟨t, hnext, htotal⟩ := next_eq_error hab hd htogether hcall hfault
  exact ⟨e, e', t, hreached, hdue, hnext, htotal, hreached', htogether⟩

section

variable [Space R V] [LinearAction R V M] {m : Method R V M}

/-- A run goes as its recording does. -/
theorem drive_of_recorded (hm : m.Descends) {a : Solver R V M σ (Memory R V M)}
    {noted : Solver R V M (σ × List (Evaluation R V M)) (Memory R V M)}
    (ha : m.solver op = some a) (hnoted : m.solver op.recorded = some noted)
    {memory : Memory R V M} {w : σ} {debug : Bool} {elapsed : R} {config : Config R V}
    (hvalid : config.validate = .ok ()) {observers : List (ObserverEntry R V M)}
    {e : Executor R V M (σ × List (Evaluation R V M)) (Memory R V M)} {r : Except (Fault R) Unit}
    (h : (drive noted).run
      (begun noted (ready memory ⟨{}, (w, []), [], debug, elapsed⟩ config observers)) = (r, e)) :
    ∃ u, (drive a).run (begun a (ready memory ⟨{}, w, [], debug, elapsed⟩ config observers)) =
        (r, u) ∧
      u.stage.state = e.stage.state ∧ u.stage.session.counts = e.stage.session.counts ∧
      u.notices = e.notices := by
  have hbears := Transcript.bears_recording (R := R) (σ := σ) (V := V) (M := M)
  have hlike := (State.lasting_eq (R := R) (V := V) (M := M)).placed
  have : Nonempty (Session R σ) := ⟨⟨{}, w, [], debug, elapsed⟩⟩
  have hbeside : Solver.Beside (Transcript.recording R σ V M) Eq (State.Placed Eq) noted a :=
    hm.beside hnoted ha (fun cap _ => Transcript.serves_recording op cap) hbears.timeless
      State.steady_eq
  have hbegun : (course (Transcript.recording R σ V M) Eq (State.Placed Eq)
      (Fellows (State.Placed Eq))).together
      (begun noted (ready memory ⟨{}, (w, []), [], debug, elapsed⟩ config observers))
      (begun a (ready memory ⟨{}, w, [], debug, elapsed⟩ config observers)) := by
    refine ⟨⟨rfl, rfl, rfl, .nil, fun _ _ s s' hs k => by rw [hs.2]⟩,
      ⟨rfl, Config.isSome_of_validate hvalid, rfl⟩, rfl, rfl, ?_, rfl, rfl⟩
    exact congrArg (fun name => [Event.started name config.maxIters]) hbeside.name
  have hgoes := (drive_beside hbears hlike hbeside).goes _ _ hbegun
  rw [h] at hgoes
  rcases hu : (drive a).run (begun a (ready memory ⟨{}, w, [], debug, elapsed⟩ config observers))
    with ⟨r', u⟩
  rw [hu] at hgoes
  cases hgoes with
  -- the course of a recording has no end and is never left
  | broken h => exact h.elim
  | astray h _ => exact h.2.2.elim
  | together h hr =>
    obtain ⟨hfellows, ⟨-, -, hstate⟩, hcounts, -⟩ := h
    refine ⟨u, ?_, hstate.symm, hcounts.symm, ?_⟩
    · rw [hr.eq]
    · exact (hfellows.notices_eq fun _ _ hs => hs.2).symm

/-- **A call that fails costs a run its iteration and nothing else.**  The run of a method on an
operator makes the call `call` after the calls `es`, in the iteration after the first `k`, and it
fails.  Then the run raises the fault of the call, and its state is the one that the method ends
with on any operator that answers the calls `es` alike, with a ceiling of `k`; but for the reason,
the time and the ceiling.  Its observers were told of the first `k` iterations, and one more
evaluation was charged than `es` has. -/
theorem run_cut (hm : m.Descends) {a : Solver R V M σ (Memory R V M)}
    {noted : Solver R V M (σ × List (Evaluation R V M)) (Memory R V M)}
    {b : Solver R V M υ (Memory R V M)} (ha : m.solver op = some a)
    (hnoted : m.solver op.recorded = some noted) (hb : m.solver op' = some b)
    (hop : check op a.name a.requires = .ok ()) (hop' : check op' b.name b.requires = .ok ())
    (memory : Memory R V M) (w : σ) (w' : υ) (debug : Bool) (elapsed elapsed' : R)
    (config : Config R V) (hvalid : config.validate = .ok ()) {ceiling : Int}
    (hceiling : config.maxIters.number? = some (.int ceiling))
    (observers others : List (ObserverEntry R V M)) (hquiet : ∀ entry ∈ others, Quiet entry)
    {k : Nat} {es : List (Evaluation R V M)} {call : Evaluation R V M} {f : Fault R}
    (hcalls : Calls noted (ready memory ⟨{}, (w, []), [], debug, elapsed⟩ config observers) k es
      call)
    (hfault : call.fault? = some f) (hf : f.isInterrupt = false) (hanswers : op'.Answers w' es) :
    ∃ e outcome u,
      (run a).run (ready memory ⟨{}, w, [], debug, elapsed⟩ config observers) = (.error f, e) ∧
      (run b).run (ready memory ⟨{}, w', [], debug, elapsed'⟩ { config with maxIters := .int k }
        others) = (.ok outcome, u) ∧
      e.stage.state = { outcome.state with
        reason := .aborted
        time := e.stage.state.time
        maxIters := config.maxIters } ∧
      Told observers k e.notices ∧
      e.stage.session.counts.total = es.length + 1 := by
  have : Nonempty (Session R υ) := ⟨⟨{}, w', [], debug, elapsed⟩⟩
  have hbeside : Solver.Beside (Transcript.course op' es call) Eq
      (State.Placed (State.Abreast fun c c' => c = config.maxIters ∧ c' = .int k)) noted b := by
    refine hm.beside hnoted hb (fun cap hcap => ?_) (Transcript.bears_course op' es call)
      (State.steady_abreast _)
    refine Transcript.serves (provides_of_check hop cap ?_) (provides_of_check hop' cap ?_) ?_
    · rwa [hm.requires_eq ha hnoted]
    · rwa [hm.requires_eq hb hnoted]
    · rw [hfault]
      rfl
  have hbegun : (cutCourse op' es call config.maxIters k).together
      (begun noted (ready memory ⟨{}, (w, []), [], debug, elapsed⟩ config observers))
      (begun b (ready memory ⟨{}, w', [], debug, elapsed'⟩ { config with maxIters := .int k }
        others)) :=
    ⟨hquiet, ⟨rfl, Config.isSome_of_validate hvalid, ⟨rfl, rfl⟩, rfl⟩, rfl, rfl, rfl, es, rfl,
      hanswers⟩
  have habstains := hm.abstains hnoted
  obtain ⟨e, e', t, hreached, hdue, hnext, htotal, hreached', -, ⟨-, -, hceilings, heq⟩, -⟩ :=
    exists_cut hbeside habstains (hm.decides hnoted) hbegun hcalls hfault
  have hstands := standsAt_of_reached habstains hreached
  have hkept : t.state = e.stage.state := habstains.next.run_eq hnext
  have hnot : e.stage.state.terminated = false :=
    not_terminated_of_continues (by rw [hdue]; exact nofun)
  have hreason : e.stage.state.reason = .notTerminated := Reason.eq_notTerminated hnot
  -- the run that fails
  have hfuel : k < fuel config.maxIters := lt_fuel_of_due habstains hceiling hreached hdue
  obtain ⟨u, hdrive, hstate, hcounts, hnotices⟩ := drive_of_recorded hm ha hnoted hvalid
    (drive_of_step_eq_error hreached hfuel hdue (step_of_next_eq_error hnext))
  have hrun := run_of_drive_eq_error rfl hvalid hf hdrive
  -- the run that ends
  have hend : continues e'.stage.state = .ok false := by
    have hcounted : continues e'.stage.state = .ok (decide ((k : Int) < k)) := by
      rw [heq]
      exact continues_of_counted hnot hstands.counter (congrArg Value.number? hceilings.2)
    rw [hcounted, decide_eq_false (lt_irrefl _)]
  have hfuel' : k ≤ fuel (Value.int k : Value R) :=
    Int.ofNat_le.mp (Int.le_of_lt (lt_fuel (R := R) rfl))
  obtain ⟨u', hrun'⟩ := run_of_drive_eq_ok rfl (validate_under hvalid k)
    (drive_of_reached hreached' hfuel' hend)
  refine ⟨_, _, u', hrun, hrun', ?_, ?_, ?_⟩
  · have hlast := State.ended_of_eq_under hreason heq .aborted .maxItersReached
      (some (.real u.stage.session.elapsed)) (some (.real e'.stage.session.elapsed))
    rw [hceilings.1, ← hkept] at hlast
    have hleft : ((abort a f).run u).2.stage.state = { u.stage.state.terminateWith .aborted with
        time := some (.real u.stage.session.elapsed) } := rfl
    rw [hleft, hstate]
    exact hlast
  · show Told observers k u.notices
    rw [hnotices]
    exact hstands.told
  · show u.stage.session.counts.total = _
    rw [hcounts]
    exact htotal

end

/-- The bowl on an operator that raises an exception from its eighth call on. -/
def brittleBowl : Operator Float (Tensor Float) (Curvature Float) Nat where
  label := "Bowl"
  cost := some fun x => do
    strain
    return .real (0.5 * Tensor.inner x.entries x.entries)
  gradient := some fun x => do
    strain
    return some x
  hessian := some fun _ => do
    strain
    return some (.matrix (.matrix .numpy [[1.0]] 1))
where
  strain : Act Float Nat Unit := do
    modify (· + 1)
    if (← get) > 7 then throw (.raised "RuntimeError" "broke")

/-- The calls that a trust-region run down the bowl makes before its eighth one. -/
def bowlCalls : List (Evaluation Float (Tensor Float) (Curvature Float)) := [
  .cost (.vector .numpy [2.0]) (.ok (.real 2.0)),
  .gradient (.vector .numpy [2.0]) (.ok (some (.vector .numpy [2.0]))),
  .hessian (.vector .numpy [2.0]) (.ok (some (.matrix (.matrix .numpy [[1.0]] 1)))),
  .cost (.vector .numpy [1.0]) (.ok (.real 0.5)),
  .gradient (.vector .numpy [1.0]) (.ok (some (.vector .numpy [1.0]))),
  .hessian (.vector .numpy [1.0]) (.ok (some (.matrix (.matrix .numpy [[1.0]] 1)))),
  .cost (.vector .numpy [0.0]) (.ok (.real 0.0))]

/-- The gradient that is asked for next. -/
def bowlCall : Evaluation Float (Tensor Float) (Curvature Float) :=
  .gradient (.vector .numpy [0.0]) (.error (.raised "RuntimeError" "broke"))

/-- The trust-region method with Cauchy points, on an operator. -/
def cauchyOn {σ : Type} (op : Operator Float (Tensor Float) (Curvature Float) σ) :
    Solver Float (Tensor Float) (Curvature Float) σ
      (Memory Float (Tensor Float) (Curvature Float)) :=
  Method.widen (Memory.trusted 1.0) (fun m => .trust m.working m.sub)
    (TrustRegion.algorithm op (Method.subproblem .cauchy) cauchyTrust).toSolver

/-- A run down the bowl, whose calls are noted, that has not started. -/
def downBowl : Executor Float (Tensor Float) (Curvature Float)
    (Nat × List (Evaluation Float (Tensor Float) (Curvature Float)))
    (Memory Float (Tensor Float) (Curvature Float)) :=
  ready .plain ⟨{}, (0, []), [], false, 0.0⟩ { param := some (.vector .numpy [2.0]) } []

/-- Whether two calls, answered with numbers, arrays or what was raised, are the same. -/
def sameCall : Evaluation Float (Tensor Float) (Curvature Float) →
    Evaluation Float (Tensor Float) (Curvature Float) → Bool
  | .cost x (.ok (.real c)), .cost x' (.ok (.real c')) => decide (x = x' ∧ c = c')
  | .gradient x (.ok (some g)), .gradient x' (.ok (some g')) => decide (x = x' ∧ g = g')
  | .gradient x (.error (.raised kind text)), .gradient x' (.error (.raised kind' text')) =>
    decide (x = x' ∧ kind = kind' ∧ text = text')
  | .hessian x (.ok (some (.matrix h))), .hessian x' (.ok (some (.matrix h'))) =>
    decide (x = x' ∧ h = h')
  | _, _ => false

theorem eq_of_sameCall {call call' : Evaluation Float (Tensor Float) (Curvature Float)}
    (h : sameCall call call' = true) : call = call' := by
  unfold sameCall at h
  split at h
  · obtain ⟨rfl, rfl⟩ := of_decide_eq_true h
    rfl
  · obtain ⟨rfl, rfl⟩ := of_decide_eq_true h
    rfl
  · obtain ⟨rfl, rfl, rfl⟩ := of_decide_eq_true h
    rfl
  · obtain ⟨rfl, rfl⟩ := of_decide_eq_true h
    rfl
  · cases h

theorem eq_of_isEqv_sameCall :
    ∀ {calls calls' : List (Evaluation Float (Tensor Float) (Curvature Float))},
      calls.isEqv calls' sameCall = true → calls = calls'
  | [], [], _ => rfl
  | call :: calls, call' :: calls', h => by
    rw [List.isEqv, Bool.and_eq_true] at h
    rw [eq_of_sameCall h.1, eq_of_isEqv_sameCall h.2]

theorem calls_downBowl : Calls (cauchyOn brittleBowl.recorded) downBowl 1 bowlCalls bowlCall := by
  have hprepare := Act.run_eq_of_isOk (a := prepare (cauchyOn brittleBowl.recorded))
    (t := begun (cauchyOn brittleBowl.recorded) downBowl) (by decide +kernel)
  -- the state after the preparation, named so that it is computed once
  generalize he₀ : ((prepare (cauchyOn brittleBowl.recorded)).run
    (begun (cauchyOn brittleBowl.recorded) downBowl)).2 = e₀ at hprepare
  have hstep : (step (cauchyOn brittleBowl.recorded)).run e₀ =
      (.ok (), ((step (cauchyOn brittleBowl.recorded)).run e₀).2) := by
    refine Act.run_eq_of_isOk ?_
    rw [← he₀]
    decide +kernel
  have hdue : continues e₀.stage.state = .ok true := by
    refine Act.toOption_eq_some.mp ?_
    rw [← he₀]
    decide +kernel
  refine ⟨_, (reached_zero.mpr hprepare).more hdue hstep, ?_, ?_, ?_⟩
  · refine Act.toOption_eq_some.mp ?_
    rw [← he₀]
    decide +kernel
  · refine ⟨[.cost (.vector .numpy [0.0]) (.ok (.real 0.0))], eq_of_isEqv_sameCall ?_⟩
    rw [← he₀]
    decide +kernel
  · refine ⟨[], eq_of_isEqv_sameCall ?_⟩
    rw [← he₀]
    decide +kernel

/-- The gradient is refused in the second iteration, after the cost of its step. -/
theorem run_cut_bowl :
    Calls (cauchyOn brittleBowl.recorded) downBowl 1 bowlCalls bowlCall ∧
      bowl.Answers () bowlCalls ∧
      ∃ e outcome u,
        (run (cauchyOn brittleBowl)).run
            (ready .plain ⟨{}, 0, [], false, 0.0⟩ { param := some (.vector .numpy [2.0]) } []) =
          (.error (.raised "RuntimeError" "broke"), e) ∧
        (run cauchySolver).run (ready .plain ⟨{}, (), [], false, 0.0⟩
            { param := some (.vector .numpy [2.0]), maxIters := .int 1 } []) = (.ok outcome, u) ∧
        e.stage.state = { outcome.state with
          reason := .aborted, time := e.stage.state.time, maxIters := .int unlimited } ∧
        e.stage.session.counts.total = 8 := by
  have hcost : ∀ x c : Float, 0.5 * Tensor.inner [x] [x] = c →
      bowl.Makes () (.cost (.vector .numpy [x]) (.ok (.real c))) () := by
    rintro x _ rfl
    rfl
  -- the bowl gives the same answers as the brittle one, up to the call that breaks
  have hanswers : bowl.Answers () bowlCalls :=
    ⟨(), hcost 2.0 2.0 (by decide +kernel), (), rfl, (), rfl, (),
      hcost 1.0 0.5 (by decide +kernel), (), rfl, (), rfl, (),
      hcost 0.0 0.0 (by decide +kernel), trivial⟩
  have ha : (Method.trustRegion .cauchy cauchyTrust).solver brittleBowl =
      some (cauchyOn brittleBowl) := rfl
  have hnoted : (Method.trustRegion .cauchy cauchyTrust).solver brittleBowl.recorded =
      some (cauchyOn brittleBowl.recorded) := rfl
  have hb : (Method.trustRegion .cauchy cauchyTrust).solver bowl = some cauchySolver := rfl
  have hceiling : (Value.int unlimited : Value Float).number? = some (.int unlimited) := rfl
  obtain ⟨e, outcome, u, hfailed, hended, hstate, -, htotal⟩ := run_cut (.trustRegion _ _) ha
    hnoted hb rfl rfl .plain 0 () false 0.0 0.0 { param := some (.vector .numpy [2.0]) } (by rfl)
    hceiling [] [] nofun calls_downBowl rfl rfl hanswers
  exact ⟨calls_downBowl, hanswers, e, outcome, u, hfailed, hended, hstate, htotal⟩

end Executor

end Descent
