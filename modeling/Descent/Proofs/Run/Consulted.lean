import Descent.Proofs.Run.Account
import Descent.Proofs.Run.Restart

/-!
# Where a solver is asked for an iteration

A run asks its solver for a delta only where an iteration is due.  The notes of a recorded solver
tell of each time (`Consultation.asked`): the preparation adds none (`keeps_asked_prepare`) and an
iteration adds one, on the state in which it began (`asked_step`), whether or not it is completed.
So each of those that a run leaves was made where the run had come to with an iteration due
(`asked_of_run`), also if the run is aborted or interrupted later.
-/

namespace Descent

open Act

variable {R V M σ μ : Type} [Scalar R]

/-- The states in which a solver was asked for an iteration, with its answers. -/
def Consultation.asked (calls : List (Consultation R V M)) :
    List (State R V M × Except (Fault R) (Option (Delta R V M))) :=
  calls.filterMap fun
    | .next s answer => some (s, answer)
    | _ => none

/-- The ceiling of a valid configuration is a number. -/
theorem Config.exists_ceiling {c : Config R V} (h : c.validate = .ok ()) :
    ∃ ceiling, c.maxIters.number? = some ceiling := by
  cases hmax : c.maxIters.number? with
  | some ceiling => exact ⟨ceiling, rfl⟩
  | none =>
    have hrefused : c.maxIters.lt (.int 0) =
        .error (.wrongType (.unordered "<" c.maxIters.typeName "int")) := by
      unfold Value.lt Value.compareBy
      split
      · contradiction
      · rw [hmax]
        rfl
    unfold validate at h
    rw [hrefused] at h
    cases hparam : c.param.isNone <;> rw [hparam] at h <;> cases h

namespace Executor

variable {solver : Solver R V M σ μ}
  {e e' : Executor R V M σ (μ × List (Consultation R V M))}

/-- The iterations that the solver was asked for. -/
def asked (e : Executor R V M σ (μ × List (Consultation R V M))) :
    List (State R V M × Except (Fault R) (Option (Delta R V M))) :=
  Consultation.asked e.stage.memory.2

/-- What the solver answers when it is asked for an iteration. -/
def answer (solver : Solver R V M σ μ)
    (e : Executor R V M σ (μ × List (Consultation R V M))) :
    Except (Fault R) (Option (Delta R V M)) :=
  (solver.next.run ⟨e.stage.memory.1, e.stage.state, e.stage.session⟩).1

theorem asked_eq_of_untold (h : e'.untold = e.untold) : e'.asked = e.asked := by
  have hasked : e'.untold.asked = e.untold.asked := congrArg asked h
  exact hasked

/-- A note of another call than for an iteration adds nothing to what was asked. -/
theorem keeps_asked_noting {α : Type}
    {note : State R V M → Except (Fault R) α → Consultation R V M}
    (hnote : ∀ s r, Consultation.asked [note s r] = []) (a : Act R (Stage R V M σ μ) α) :
    Act.Keeps asked (onStage (Solver.noting note a)) := by
  intro e
  show Consultation.asked (e.stage.memory.2 ++ [_]) = _
  unfold Consultation.asked
  rw [List.filterMap_append]
  refine (congrArg (_ ++ ·) (hnote _ _)).trans ?_
  exact List.append_nil _

theorem keeps_asked_prepare (solver : Solver R V M σ μ) :
    Act.Keeps asked (prepare solver.recorded) := by
  unfold prepare
  refine (keeps_asked_noting (fun _ _ => rfl) solver.init).bind fun o => ?_
  cases o with
  | none => exact Act.Keeps.pure _
  | some d =>
    refine Act.Keeps.bind (fun _ => rfl) fun _ => ?_
    cases d.termination with
    | none => exact Act.Keeps.pure _
    | some r => exact fun _ => rfl

/-- Once the solver has answered, it is not asked again in the same iteration. -/
theorem keeps_asked_rest (o : Option (Delta R V M)) :
    Act.Keeps asked (do
      let d ← Act.lift (given o)
      let newBest ← merge d
      advance
      let reason ← verdict solver.recorded d
      changeState (·.terminateWith reason)
      return newBest : Act R (Executor R V M σ (μ × List (Consultation R V M))) Bool) := by
  refine (Act.Keeps.lift _).bind fun d => Act.Keeps.bind (fun _ => rfl) fun newBest => ?_
  refine Act.Keeps.bind (fun e => ?_) fun _ => ?_
  · rw [run_advance]
    cases e.stage.state.incrementIter <;> rfl
  · refine (keeps_verdict (keeps_asked_noting (fun _ _ => rfl) solver.terminate) d).bind fun r => ?_
    exact Act.Keeps.bind (fun _ => rfl) fun _ => Act.Keeps.pure _

/-- An iteration asks the solver once, on the state in which it begins. -/
theorem asked_step (solver : Solver R V M σ μ)
    (e : Executor R V M σ (μ × List (Consultation R V M))) :
    ((step solver.recorded).run e).2.asked =
      e.asked ++ [(e.stage.state, answer solver e)] := by
  have hnext : ((onStage solver.recorded.next).run e).2.asked =
      e.asked ++ [(e.stage.state, answer solver e)] :=
    List.filterMap_append ..
  have hiterate : ((iterate solver.recorded).run e).2.asked =
      e.asked ++ [(e.stage.state, answer solver e)] := by
    unfold iterate
    rw [run_bind, ← hnext]
    rcases (onStage solver.recorded.next).run e with ⟨f | o, u⟩
    · rfl
    · exact keeps_asked_rest o u
  unfold step
  rw [run_bind_of_ok (run_state e), run_bind, ← hiterate]
  rcases (iterate solver.recorded).run e with ⟨f | newBest, u⟩
  · rfl
  · exact asked_eq_of_untold (keeps_untold_conclude _ newBest u)

/-! ### A whole run -/

/-- The solver is asked for an iteration on a state, and answers, where the run from `e` has come to
with an iteration due. -/
def Asks (solver : Solver R V M σ μ) (e : Executor R V M σ (μ × List (Consultation R V M)))
    (call : State R V M × Except (Fault R) (Option (Delta R V M))) : Prop :=
  ∃ k u, Reached solver.recorded e k u ∧ continues u.stage.state = .ok true ∧
    call = (u.stage.state, answer solver u)

/-- The solver was asked for these iterations in turn, each where the run from `e` had come to after
the ones before it. -/
def AsksInTurn (solver : Solver R V M σ μ)
    (e : Executor R V M σ (μ × List (Consultation R V M)))
    (calls : List (State R V M × Except (Fault R) (Option (Delta R V M)))) : Prop :=
  ∀ k call, calls[k]? = some call → ∃ u, Reached solver.recorded e k u ∧
    continues u.stage.state = .ok true ∧ call = (u.stage.state, answer solver u)

theorem asksInTurn_nil : AsksInTurn solver e [] := by
  intro k call hcall
  rw [List.getElem?_nil] at hcall
  cases hcall

/-- Another iteration that was due is asked for in its turn. -/
theorem AsksInTurn.concat {u : Executor R V M σ (μ × List (Consultation R V M))}
    (h : AsksInTurn solver e u.asked) (hu : Reached solver.recorded e u.asked.length u)
    (hdue : continues u.stage.state = .ok true) :
    AsksInTurn solver e (u.asked ++ [(u.stage.state, answer solver u)]) := by
  intro k call hcall
  rcases Nat.lt_or_ge k u.asked.length with hlt | hge
  · rw [List.getElem?_append_left hlt] at hcall
    exact h k call hcall
  · rw [List.getElem?_append_right hge] at hcall
    cases hback : k - u.asked.length with
    | zero =>
      obtain rfl : k = u.asked.length := by omega
      rw [hback] at hcall
      exact ⟨u, hu, hdue, (Option.some.inj hcall).symm⟩
    | succ j =>
      rw [hback] at hcall
      cases hcall

theorem asked_of_reached (he : e.asked = []) {k : Nat}
    {u : Executor R V M σ (μ × List (Consultation R V M))}
    (h : Reached solver.recorded e k u) : u.asked.length = k ∧ AsksInTurn solver e u.asked := by
  induction k generalizing u with
  | zero =>
    have hbegun : (begun solver.recorded e).asked = e.asked := rfl
    rw [(keeps_asked_prepare solver).run_eq (reached_zero.mp h), hbegun, he]
    exact ⟨rfl, asksInTurn_nil⟩
  | succ k ih =>
    obtain ⟨v, hv, hdue, hstep⟩ := h.before
    have hasked := asked_step solver v
    rw [hstep] at hasked
    dsimp only at hasked
    obtain ⟨hlength, hturn⟩ := ih hv
    rw [hasked]
    refine ⟨?_, hturn.concat (hlength.symm ▸ hv) hdue⟩
    rw [List.length_append, hlength]
    rfl

/-- The iterations that a drive asked for were asked for in turn, and there is one if any was due
after the preparation. -/
theorem asked_of_drive (solver : Solver R V M σ μ)
    {e : Executor R V M σ (μ × List (Consultation R V M))} (he : e.asked = [])
    (hfuel : 0 < fuel e.config.maxIters) :
    AsksInTurn solver e ((drive solver.recorded).run (begun solver.recorded e)).2.asked ∧
      ∀ u, Reached solver.recorded e 0 u → continues u.stage.state = .ok true →
        ((drive solver.recorded).run (begun solver.recorded e)).2.asked ≠ [] := by
  -- whatever was reached, something was asked if the first iteration was due
  have hfirst : ∀ {k : Nat} {v : Executor R V M σ (μ × List (Consultation R V M))},
      Reached solver.recorded e k v → (k = 0 → continues v.stage.state ≠ .ok true) →
        ∀ u, Reached solver.recorded e 0 u → continues u.stage.state = .ok true →
          v.asked ≠ [] := by
    intro k v hv hnot u hu hdue hnil
    have hlength := (asked_of_reached he hv).1
    rw [hnil] at hlength
    obtain rfl : k = 0 := hlength.symm
    exact hnot rfl (hu.unique hv ▸ hdue)
  rcases hdrive : (drive solver.recorded).run (begun solver.recorded e) with ⟨f | _, u⟩
  · rcases drive_eq_error hdrive with
      hprepare | ⟨k, v, hv, ⟨hf, rfl⟩ | ⟨hdue, hstep | ⟨hk, -, rfl⟩⟩⟩
    · -- the preparation fails, and no iteration was asked for
      have hbegun : (begun solver.recorded e).asked = e.asked := rfl
      have hkept : u.asked = (begun solver.recorded e).asked :=
        (keeps_asked_prepare solver).run_eq hprepare
      dsimp only
      rw [hkept, hbegun, he]
      refine ⟨asksInTurn_nil, fun w hw _ => ?_⟩
      rw [reached_zero.mp hw] at hprepare
      cases hprepare
    · exact ⟨(asked_of_reached he hv).2, hfirst hv fun _ => by rw [hf]; exact nofun⟩
    · -- the iteration that failed was asked for where it was due
      have hasked := asked_step solver v
      rw [hstep] at hasked
      obtain ⟨hlength, hturn⟩ := asked_of_reached he hv
      dsimp only at hasked ⊢
      rw [hasked]
      refine ⟨hturn.concat (hlength.symm ▸ hv) hdue, fun _ _ _ => ?_⟩
      exact List.append_ne_nil_of_right_ne_nil _ (List.cons_ne_nil _ _)
    · exact ⟨(asked_of_reached he hv).2, hfirst hv fun hzero => by omega⟩
  · obtain ⟨k, hk, hend⟩ := drive_eq_ok hdrive
    exact ⟨(asked_of_reached he hk).2, hfirst hk fun _ => by rw [hend]; exact nofun⟩

/-- A run whose settings are valid has fuel. -/
theorem fuel_pos {config : Config R V} (h : config.validate = .ok ()) :
    0 < fuel config.maxIters := by
  obtain ⟨ceiling, hceiling⟩ := Config.exists_ceiling h
  unfold fuel
  rw [hceiling]
  exact Nat.lt_of_lt_of_le (Nat.pow_pos (Nat.succ_pos 1)) (Nat.le_add_right _ _)

/-- However a run ends, its solver was asked for iterations in turn, for none if the settings are
not valid, and else for the first one if it was due after the preparation. -/
theorem asked_of_run {memory : μ} {session : Session R σ} {config : Config R V}
    {observers : List (ObserverEntry R V M)} {r : Except (Fault R) (Outcome R V M)}
    (h : (run solver.recorded).run (ready (memory, []) session config observers) = (r, e')) :
    AsksInTurn solver (ready (memory, []) session config observers) e'.asked ∧
      (e'.asked ≠ [] → config.validate = .ok ()) ∧
      (config.validate = .ok () →
        ∀ u, Reached solver.recorded (ready (memory, []) session config observers) 0 u →
          continues u.stage.state = .ok true → e'.asked ≠ []) := by
  cases hvalid : config.validate with
  | error f =>
    have hrefused : (run solver.recorded).run (ready (memory, []) session config observers) =
        (.error f, ready (memory, []) session config observers) := run_of_invalid rfl hvalid
    rw [h] at hrefused
    have hnone : e'.asked = [] := congrArg asked (congrArg Prod.snd hrefused)
    rw [hnone]
    exact ⟨asksInTurn_nil, fun hsome => absurd rfl hsome, nofun⟩
  | ok _ =>
    have hkept : e'.asked = ((drive solver.recorded).run
        (begun solver.recorded (ready (memory, []) session config observers))).2.asked := by
      have hrecord : ((run solver.recorded).run
          (ready (memory, []) session config observers)).2.stage.memory = _ :=
        (record_of_run rfl hvalid).2
      rw [h] at hrecord
      exact congrArg (fun m => Consultation.asked m.2) hrecord
    rw [hkept]
    obtain ⟨hturn, hfirst⟩ := asked_of_drive solver
      (e := ready (memory, []) session config observers) rfl (fuel_pos hvalid)
    exact ⟨hturn, fun _ => rfl, fun _ => hfirst⟩

/-- However a run ends, its solver was asked for iterations only where they were due. -/
theorem asks_of_run {memory : μ} {session : Session R σ} {config : Config R V}
    {observers : List (ObserverEntry R V M)} {r : Except (Fault R) (Outcome R V M)}
    (h : (run solver.recorded).run (ready (memory, []) session config observers) = (r, e')) :
    ∀ call ∈ e'.asked, Asks solver (ready (memory, []) session config observers) call := by
  intro call hcall
  obtain ⟨k, hk⟩ := List.mem_iff_getElem?.mp hcall
  obtain ⟨u, hu, hdue, heq⟩ := (asked_of_run h).1 k call hk
  exact ⟨k, u, hu, hdue, heq⟩

end Executor

end Descent
