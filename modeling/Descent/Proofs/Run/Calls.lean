import Descent.Proofs.Run.Reached
import Descent.Proofs.Run.Faithful
import Descent.Settings.Config
import Mathlib.Data.List.Destutter

/-!
# Calls of an executor's interface

An executor is configured, given observers and run by calls (`Executor.Call`), each of which may be
refused (`Executor.Call.Refused`).  `Executor.history` says what a sequence of calls comes to.

Every check is made before anything is assigned to, so a call that is refused leaves the executor as
it was (`Executor.run_refused`).  A call that raises a fault was refused, unless it was a run that
did start, which the status tells (`Executor.rejected_made_iff`).  Calls that are rejected may
therefore be left out of a sequence (`Executor.history_trimmed`), and over any sequence the status
moves from configured over running to terminated (`Executor.Path.moves`).
-/

namespace Descent

open Act

variable {R V M σ μ α : Type} [Scalar R]

/-! ### How the status moves -/

namespace Status

/-- The status stays, or moves on by one. -/
inductive Moves : Status → Status → Prop
  | stays (s : Status) : Moves s s
  | begins : Moves .configured .running
  | ends : Moves .running .terminated

/-- The status and those that may come after it, in turn. -/
def onward : Status → List Status
  | configured => [configured, running, terminated]
  | running => [running, terminated]
  | terminated => [terminated]

/-- Where the status moves on by one at a time it does not come back to one that it left. -/
theorem destutter_of_moves {s : Status} {path : List Status} (h : (s :: path).IsChain Moves) :
    (s :: path).destutter (· ≠ ·) <+: s.onward := by
  rw [List.destutter_cons']
  induction path generalizing s with
  | nil => cases s <;> simp [onward]
  | cons t path ih =>
    obtain ⟨hmoves, hpath⟩ := List.isChain_cons_cons.mp h
    have hrest := ih hpath
    cases hmoves with
    | stays => simpa using hrest
    | begins => simpa [onward] using hrest
    | ends => simpa [onward] using hrest

/-- A path that is running for a while goes on where it leads. -/
theorem isChain_running {ss rest : List Status} {t : Status} (hss : ∀ s ∈ ss, s = .running)
    (ht : Moves .running t) (h : (t :: rest).IsChain Moves) :
    (.running :: (ss ++ t :: rest)).IsChain Moves := by
  induction ss with
  | nil => exact List.isChain_cons_cons.mpr ⟨ht, h⟩
  | cons s ss ih =>
    obtain rfl : s = .running := hss s (by simp)
    exact List.isChain_cons_cons.mpr ⟨.stays _, ih fun s hs => hss s (by simp [hs])⟩

end Status

namespace Executor

/-! ### Calls -/

/-- A call of an executor's interface: some settings are replaced, an observer is added, or the
executor is run. -/
inductive Call (R V M : Type) [Scalar R] where
  | configure (change : Config R V → Except (Fault R) (Config R V))
  | addObserver (entry : ObserverEntry R V M)
  | run

namespace Call

/-- What a call does; a run answers with its outcome. -/
def act (solver : Solver R V M σ μ) :
    Call R V M → Act R (Executor R V M σ μ) (Option (Outcome R V M))
  | configure change => do
    Executor.configure change
    return none
  | addObserver entry => do
    Executor.addObserver entry
    return none
  | run => do return some (← Executor.run solver)

/-- The executor refuses the call: it is late to be configured or run, or what it is given is not
valid. -/
def Refused (e : Executor R V M σ μ) : Call R V M → Prop
  | configure change => e.status ≠ .configured ∨ ∃ f, change e.config = .error f
  | addObserver entry => entry.period.lt (.int 1) ≠ .ok false
  | run => e.status ≠ .configured ∨ ∃ f, e.config.validate = .error f

end Call

variable {solver : Solver R V M σ μ} {e u : Executor R V M σ μ} {c : Call R V M}

/-! ### Calls that are refused -/

theorem run_configure (change : Config R V → Except (Fault R) (Config R V))
    (e : Executor R V M σ μ) :
    (configure change).run e =
      if e.status ≠ .configured then (.error .configuredLate, e)
      else match change e.config with
        | .error f => (.error f, e)
        | .ok config => (.ok (), { e with config := config }) := by
  unfold configure
  rw [run_bind_of_ok (run_get e)]
  dsimp only
  split
  · rfl
  · rw [run_bind, run_lift]
    cases change e.config <;> rfl

theorem run_addObserver (entry : ObserverEntry R V M) (e : Executor R V M σ μ) :
    (addObserver entry).run e =
      match entry.period.lt (.int 1) with
      | .error f => (.error f, e)
      | .ok true => (.error .observerPeriod, e)
      | .ok false => (.ok (), { e with observers := e.observers ++ [entry] }) := by
  unfold addObserver
  rw [run_bind, run_lift]
  rcases entry.period.lt (.int 1) with _ | _ | _ <;> rfl

/-- A refused call raises a fault and leaves the executor as it was. -/
theorem run_refused (solver : Solver R V M σ μ) (h : c.Refused e) :
    ∃ f, (c.act solver).run e = (.error f, e) := by
  -- each call checks what it refuses before it changes anything
  cases c with
  | configure change =>
    have hconfigure : ∃ f, (configure change).run e = (.error f, e) := by
      rw [run_configure]
      rcases h with hstatus | ⟨f, hchange⟩
      · exact ⟨.configuredLate, if_pos hstatus⟩
      · rw [hchange]
        split <;> exact ⟨_, rfl⟩
    obtain ⟨f, hf⟩ := hconfigure
    exact ⟨f, run_bind_of_error hf⟩
  | addObserver entry =>
    have hadd : ∃ f, (addObserver entry).run e = (.error f, e) := by
      rw [run_addObserver]
      rcases hperiod : entry.period.lt (.int 1) with f | _ | _
      · exact ⟨f, rfl⟩
      · exact absurd hperiod h
      · exact ⟨.observerPeriod, rfl⟩
    obtain ⟨f, hf⟩ := hadd
    exact ⟨f, run_bind_of_error hf⟩
  | run =>
    have hrun : ∃ f, (run solver).run e = (.error f, e) := by
      rw [run_run]
      rcases h with hstatus | ⟨f, hvalid⟩
      · exact ⟨.runTwice, if_pos hstatus⟩
      · rw [hvalid]
        split <;> exact ⟨_, rfl⟩
    obtain ⟨f, hf⟩ := hrun
    exact ⟨f, run_bind_of_error hf⟩

/-! ### Runs that start -/

theorem not_refused_run (h : ¬ (Call.run : Call R V M).Refused e) :
    e.status = .configured ∧ e.config.validate = .ok () := by
  refine ⟨Decidable.of_not_not fun hnot => h (.inl hnot), ?_⟩
  cases hvalid : e.config.validate with
  | error f => exact absurd (.inr ⟨f, hvalid⟩) h
  | ok _ => rfl

theorem keeps_status_step (solver : Solver R V M σ μ) : Keeps Executor.status (step solver) := by
  unfold step
  refine Keeps.bind (fun _ => rfl) fun before => ?_
  refine Keeps.bind ((keeps_frame_iterate solver).comp fun f => f.2.2.1) fun newBest => ?_
  exact (keeps_untold_conclude before newBest).comp Executor.status

/-- Nothing that may fail in a run moves the status. -/
theorem keeps_status_drive (solver : Solver R V M σ μ) :
    Keeps Executor.status (drive solver) :=
  keeps_drive ((keeps_frame_prepare solver).comp fun f => f.2.2.1) (keeps_status_step solver)

/-- Wherever a run has been, it is running. -/
theorem status_of_reached {k : Nat} (h : Reached solver e k u) : u.status = .running := by
  obtain ⟨e₀, hprepare, hiterated⟩ := h
  have h₀ : e₀.status = .running :=
    congrArg (fun f => f.2.2.1) ((keeps_frame_prepare solver).run_eq hprepare)
  induction hiterated with
  | none => exact h₀
  | more _ _ done ih => exact ((keeps_status_step solver).run_eq done).trans ih

/-- A run that starts leaves the executor running, if it is interrupted, or terminated. -/
theorem moves_of_run (solver : Solver R V M σ μ) (hstatus : e.status = .configured)
    (hvalid : e.config.validate = .ok ()) :
    Status.Moves .running ((run solver).run e).2.status := by
  rw [run_eq hstatus hvalid]
  have hdrive := keeps_status_drive solver (begun solver e)
  rcases hu : (drive solver).run (begun solver e) with ⟨f | _, u⟩
  · rw [hu] at hdrive
    have hrunning : u.status = .running := hdrive
    dsimp only
    split
    · rw [hrunning]
      exact .stays _
    · exact .ends
  · exact .ends

/-! ### Sequences of calls -/

/-- A call that was made: the executor that it was made on, its answer, and what it left. -/
structure Made (R V M σ μ : Type) [Scalar R] where
  before : Executor R V M σ μ
  call : Call R V M
  answer : Except (Fault R) (Option (Outcome R V M))
  after : Executor R V M σ μ

/-- The call is rejected: it raises a fault and starts no run, so the status is as it was. -/
def Made.Rejected (r : Made R V M σ μ) : Prop :=
  r.answer.isOk = false ∧ r.after.status = r.before.status

/-- A call on an executor. -/
def made (solver : Solver R V M σ μ) (e : Executor R V M σ μ) (c : Call R V M) :
    Made R V M σ μ :=
  ⟨e, c, ((c.act solver).run e).1, ((c.act solver).run e).2⟩

/-- Calls on an executor, one after the other. -/
def history (solver : Solver R V M σ μ) :
    Executor R V M σ μ → List (Call R V M) → List (Made R V M σ μ)
  | _, [] => []
  | e, c :: cs => made solver e c :: history solver (made solver e c).after cs

/-- What calls on an executor leave. -/
def left (solver : Solver R V M σ μ) : Executor R V M σ μ → List (Call R V M) → Executor R V M σ μ
  | e, [] => e
  | e, c :: cs => left solver (made solver e c).after cs

theorem after_made_run (e : Executor R V M σ μ) :
    (made solver e .run).after = ((run solver).run e).2 := by
  show ((run solver >>= fun outcome => pure (some outcome)).run e).2 = _
  rw [run_bind]
  rcases (run solver).run e with ⟨_ | _, _⟩ <;> rfl

theorem exists_made {calls : List (Call R V M)} {call : Made R V M σ μ}
    (h : call ∈ history solver e calls) : ∃ u c, call = made solver u c := by
  induction calls generalizing e with
  | nil => cases h
  | cons c calls ih =>
    rcases List.mem_cons.mp h with rfl | h
    · exact ⟨e, c, rfl⟩
    · exact ih h

/-- The calls that are rejected are those that are refused. -/
theorem rejected_made_iff : (made solver e c).Rejected ↔ c.Refused e := by
  constructor
  · rintro ⟨hfails, hstatus⟩
    by_contra hnot
    cases c with
    | configure change =>
      have hconfigured : e.status = .configured := Decidable.of_not_not fun h => hnot (.inl h)
      obtain ⟨u, hu⟩ : ∃ u, (configure change).run e = (.ok (), u) := by
        rw [run_configure, if_neg fun h => h hconfigured]
        cases hchange : change e.config with
        | error f => exact absurd (.inr ⟨f, hchange⟩) hnot
        | ok config => exact ⟨_, rfl⟩
      have hcall : ((Call.configure change).act solver).run e = (.ok none, u) :=
        run_bind_of_ok hu
      rw [made, hcall] at hfails
      cases hfails
    | addObserver entry =>
      obtain ⟨u, hu⟩ : ∃ u, (addObserver entry).run e = (.ok (), u) := by
        have hperiod : entry.period.lt (.int 1) = .ok false := Classical.not_not.mp hnot
        rw [run_addObserver, hperiod]
        exact ⟨_, rfl⟩
      have hcall : ((Call.addObserver entry).act solver).run e = (.ok none, u) :=
        run_bind_of_ok hu
      rw [made, hcall] at hfails
      cases hfails
    | run =>
      -- a run that starts moves the status
      obtain ⟨hconfigured, hvalid⟩ := not_refused_run hnot
      have hmoves := moves_of_run solver hconfigured hvalid
      have hleft : (made solver e .run).after = ((run solver).run e).2 := after_made_run e
      rw [← hleft, hstatus] at hmoves
      have hsame : (made solver e .run).before.status = .configured := hconfigured
      rw [hsame] at hmoves
      cases hmoves
  · intro h
    obtain ⟨f, hf⟩ := run_refused solver h
    unfold made Made.Rejected
    rw [hf]
    exact ⟨rfl, rfl⟩

/-- A call that is rejected leaves the executor as it was. -/
theorem after_of_rejected (h : (made solver e c).Rejected) : (made solver e c).after = e := by
  obtain ⟨f, hf⟩ := run_refused solver (rejected_made_iff.mp h)
  exact congrArg Prod.snd hf

/-! ### Leaving out rejected calls -/

/-- Some items of a list are left out, all of them with a property. -/
inductive Trimmed (P : α → Prop) : List α → List α → Prop
  | nil : Trimmed P [] []
  | keep {x : α} {xs ys : List α} (h : Trimmed P xs ys) : Trimmed P (x :: xs) (x :: ys)
  | drop {x : α} {xs ys : List α} (hx : P x) (h : Trimmed P xs ys) : Trimmed P (x :: xs) ys

/-- Calls with rejected ones left out come to the same: each has the executor and the answer that it
had, and the same is left. -/
theorem history_trimmed {calls : List (Call R V M)} {kept : List (Made R V M σ μ)}
    (h : Trimmed Made.Rejected (history solver e calls) kept) :
    history solver e (kept.map Made.call) = kept ∧
      left solver e (kept.map Made.call) = left solver e calls := by
  induction calls generalizing e kept with
  | nil =>
    cases h
    exact ⟨rfl, rfl⟩
  | cons c calls ih =>
    cases h with
    | keep h =>
      obtain ⟨hhistory, hleft⟩ := ih h
      exact ⟨congrArg (made solver e c :: ·) hhistory, hleft⟩
    | drop hrejected h =>
      obtain ⟨hhistory, hleft⟩ := ih h
      rw [after_of_rejected hrejected] at hhistory hleft
      refine ⟨hhistory, hleft.trans ?_⟩
      rw [left, after_of_rejected hrejected]

/-! ### The status over a sequence of calls -/

/-- Where the executor is in the course of a call, from its beginning: a run that starts is begun,
and may be where it has been reached after any number of iterations and at its end. -/
inductive Moments (solver : Solver R V M σ μ) (e : Executor R V M σ μ) :
    Call R V M → List (Executor R V M σ μ) → Prop
  | still {c : Call R V M} (h : c = .run → c.Refused e) : Moments solver e c [e]
  | driven {us : List (Executor R V M σ μ)} (h : ¬ (Call.run : Call R V M).Refused e)
      (hus : ∀ u ∈ us, (∃ k, Reached solver e k u) ∨ u = ((drive solver).run (begun solver e)).2) :
      Moments solver e .run (e :: begun solver e :: us)

/-- Where the executor is in the course of calls, up to what they leave. -/
inductive Path (solver : Solver R V M σ μ) :
    Executor R V M σ μ → List (Call R V M) → List (Executor R V M σ μ) → Prop
  | nil (e : Executor R V M σ μ) : Path solver e [] [e]
  | cons {e : Executor R V M σ μ} {c : Call R V M} {cs : List (Call R V M)}
      {us path : List (Executor R V M σ μ)} (h : Moments solver e c us)
      (hpath : Path solver (made solver e c).after cs path) :
      Path solver e (c :: cs) (us ++ path)

theorem Path.head {calls : List (Call R V M)} {path : List (Executor R V M σ μ)}
    (h : Path solver e calls path) : ∃ rest, path = e :: rest := by
  cases h with
  | nil => exact ⟨[], rfl⟩
  | cons h _ => cases h <;> exact ⟨_, rfl⟩

/-- A call that starts no run leaves the status as it was. -/
theorem status_made (h : c = .run → c.Refused e) : (made solver e c).after.status = e.status := by
  cases c with
  | configure change =>
    have hkeeps : Keeps Executor.status (configure change : Act R (Executor R V M σ μ) Unit) := by
      intro e
      rw [run_configure]
      split
      · rfl
      · cases change e.config <;> rfl
    exact hkeeps.bind (fun _ => Keeps.pure none) e
  | addObserver entry =>
    have hkeeps : Keeps Executor.status (addObserver entry : Act R (Executor R V M σ μ) Unit) :=
      (Keeps.lift _).bind fun _ => ((Keeps.throw _).bind fun _ _ => rfl).ite fun _ => rfl
    exact hkeeps.bind (fun _ => Keeps.pure none) e
  | run => rw [after_of_rejected (rejected_made_iff.mpr (h rfl))]

/-- In the course of calls the status moves on by one at a time. -/
theorem Path.moves {calls : List (Call R V M)} {path : List (Executor R V M σ μ)}
    (h : Path solver e calls path) : (path.map Executor.status).IsChain Status.Moves := by
  induction h with
  | nil => exact List.isChain_singleton _
  | @cons e c cs us path hcall hpath ih =>
    obtain ⟨rest, rfl⟩ := hpath.head
    cases hcall with
    | still hstill =>
      refine List.isChain_cons_cons.mpr ⟨?_, ih⟩
      rw [status_made hstill]
      exact .stays _
    | @driven us hstarts hus =>
      obtain ⟨hconfigured, hvalid⟩ := not_refused_run hstarts
      -- between its ends a run is always running
      have hrunning : ∀ s ∈ us.map Executor.status, s = .running := by
        intro s hs
        obtain ⟨u, hu, rfl⟩ := List.mem_map.mp hs
        rcases hus u hu with ⟨k, hreached⟩ | rfl
        · exact status_of_reached hreached
        · exact keeps_status_drive solver _
      have hends : Status.Moves .running (made solver e .run).after.status := by
        rw [after_made_run]
        exact moves_of_run solver hconfigured hvalid
      have hdriven := Status.isChain_running hrunning hends ih
      rw [List.map_append, List.map_cons, List.map_cons, hconfigured]
      exact List.isChain_cons_cons.mpr ⟨.begins, hdriven⟩

/-! ### What calls do -/

/-- **Rejected calls leave no trace.**  For every executor and every sequence of calls that
configure it, give it observers or run it, a call raises a fault without starting a run exactly if
it is refused: if the executor is no longer configured or what it is given is not valid.  Then the
whole executor is as it was.  So leaving out some of these calls changes neither what the other ones
find and answer nor what is left.  And over the calls the status moves from configured over running
to terminated, never back. -/
theorem calls_traceless (solver : Solver R V M σ μ) (e : Executor R V M σ μ)
    (calls : List (Call R V M)) :
    (∀ call ∈ history solver e calls,
      (call.Rejected ↔ call.call.Refused call.before) ∧
      (call.Rejected → call.after = call.before)) ∧
    (∀ kept, Trimmed Made.Rejected (history solver e calls) kept →
      history solver e (kept.map Made.call) = kept ∧
      left solver e (kept.map Made.call) = left solver e calls) ∧
    ∀ path, Path solver e calls path →
      (path.map Executor.status).destutter (· ≠ ·) <+: e.status.onward := by
  refine ⟨fun call hcall => ?_, fun kept hkept => history_trimmed hkept, fun path hpath => ?_⟩
  · obtain ⟨u, c, rfl⟩ := exists_made hcall
    exact ⟨rejected_made_iff, after_of_rejected⟩
  · obtain ⟨rest, rfl⟩ := hpath.head
    exact Status.destutter_of_moves hpath.moves

theorem Trimmed.filter {P : α → Prop} {p : α → Bool} {xs : List α}
    (h : ∀ x ∈ xs, p x = false → P x) : Trimmed P xs (xs.filter p) := by
  induction xs with
  | nil => exact .nil
  | cons x xs ih =>
    have hrest := ih fun y hy => h y (List.mem_cons_of_mem x hy)
    cases hx : p x with
    | true =>
      rw [List.filter_cons_of_pos hx]
      exact .keep hrest
    | false =>
      rw [List.filter_cons_of_neg (by rw [hx]; exact Bool.false_ne_true)]
      exact .drop (h x List.mem_cons_self hx) hrest

/-- Calls of all kinds that are rejected, around a run down the bowl. -/
def bowlRequests : List (Call Float (Tensor Float) (Curvature Float)) := [
  .configure (Settings.configure .numpy [("tolerance", .int 1)]),
  .addObserver { observer := Observer.history, period := .int 0 },
  .addObserver { observer := Observer.history, period := .text "often" },
  .run,
  .configure (Settings.configure .numpy
    [("param", .list [.real 2.0]), ("max_iters", .text "many")]),
  .run,
  .configure (Settings.configure .numpy [("max_iters", .int 5)]),
  .addObserver { observer := Observer.history },
  .run,
  .run,
  .configure (Settings.configure .numpy [("max_iters", .int 7)]),
  .addObserver { observer := Observer.history }]

/-- An executor for the bowl that has no start yet. -/
def newBowl : Executor Float (Tensor Float) (Curvature Float) Unit
    (Memory Float (Tensor Float) (Curvature Float)) :=
  ready .plain ⟨{}, (), [], false, 0.0⟩ {} []

/-- Of twelve calls seven are rejected, and the other five come to the same without them. -/
theorem calls_traceless_bowl :
    ∃ kept, Trimmed Made.Rejected (history cauchySolver newBowl bowlRequests) kept ∧
      kept.length = 5 ∧ kept.length + 7 = bowlRequests.length ∧
      history cauchySolver newBowl (kept.map Made.call) = kept ∧
      left cauchySolver newBowl (kept.map Made.call) =
        left cauchySolver newBowl bowlRequests := by
  have hstill : (history cauchySolver newBowl bowlRequests).all fun call =>
      call.answer.isOk || decide (call.after.status = call.before.status) := by decide +kernel
  have hlength : ((history cauchySolver newBowl bowlRequests).filter
      fun call => call.answer.isOk).length = 5 := by decide +kernel
  have htrimmed : Trimmed Made.Rejected (history cauchySolver newBowl bowlRequests)
      ((history cauchySolver newBowl bowlRequests).filter fun call => call.answer.isOk) := by
    refine Trimmed.filter fun call hcall hfails => ⟨hfails, ?_⟩
    have hstatus := List.all_eq_true.mp hstill call hcall
    rw [hfails, Bool.false_or] at hstatus
    exact of_decide_eq_true hstatus
  obtain ⟨-, htraceless, -⟩ := calls_traceless cauchySolver newBowl bowlRequests
  obtain ⟨hhistory, hleft⟩ := htraceless _ htrimmed
  exact ⟨_, htrimmed, hlength, by rw [hlength]; rfl, hhistory, hleft⟩

end Executor

end Descent
