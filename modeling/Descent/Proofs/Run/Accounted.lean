import Descent.Machine
import Descent.Proofs.Run.Account
import Mathlib.Data.Set.Basic

/-!
# Every run has an account

The account of a run grows with its iterations: it is exact before the first one
(`opened_of_prepare`), and a due iteration adds a turn to it (`Exact.step`).  So it is exact
wherever the run has been, and says how the run ended (`run_accounted`).
-/

namespace Descent

open Act

variable {R V M σ μ : Type} [Scalar R]

namespace Turn

/-- An iteration advances the counter, and changes nothing else of how far the run has come. -/
theorem standing_apply {s : State R V M} {k : Int} (h : s.curIter = .int k) (turn : Turn R V M) :
    (turn.apply s).standing = { s.standing with curIter := .int (k + 1) } := by
  have hm : (s.merge turn.delta).2.standing = s.standing := s.merge_standing turn.delta
  have hk : (s.merge turn.delta).2.curIter = .int k :=
    (congrArg State.Standing.curIter hm).trans h
  have hs : turn.apply s = { (s.merge turn.delta).2 with curIter := .int (k + 1) } := by
    show ((s.merge turn.delta).2.incrementIter.toOption.getD _) = _
    unfold State.incrementIter
    rw [hk]
    rfl
  rw [hs, ← hm]
  rfl

theorem apply_eq {s s₁ s₂ : State R V M} (turn : Turn R V M) {b : Bool}
    (hmerge : s.merge turn.delta = (.ok b, s₁)) (hadvance : s₁.incrementIter = .ok s₂) :
    turn.apply s = s₂ := by
  show (s.merge turn.delta).2.incrementIter.toOption.getD (s.merge turn.delta).2 = s₂
  rw [hmerge, hadvance]
  rfl

theorem verdict_of_forced {turn : Turn R V M} {r : Reason} (h : turn.forced = some r)
    (s : State R V M) : turn.verdict s = r := by
  unfold verdict
  rw [h]

theorem verdict_of_answer {turn : Turn R V M} (h : turn.forced = none)
    (hr : turn.answer.isTerminal = true) (s : State R V M) : turn.verdict s = turn.answer := by
  unfold verdict
  rw [h]
  exact if_pos hr

theorem verdict_of_target {turn : Turn R V M} {s : State R V M} {met : Bool}
    (h : turn.forced = none) (hr : turn.answer.isTerminal = false)
    (hmet : s.targetReached = .ok met) :
    turn.verdict s = if met then .targetCostReached else turn.answer := by
  have hanswer : turn.answer = .notTerminated := Reason.eq_notTerminated hr
  unfold verdict
  rw [h, hmet, hanswer]
  cases met <;> rfl

end Turn

namespace Executor

variable {solver : Solver R V M σ μ}

/-! ### One iteration -/

/-- The verdict of a recorded solver is that of a turn, which was noted if the solver was asked for
it; the state is the one there was. -/
theorem turn_of_verdict (ha : solver.Abstains) {d : Delta R V M}
    {e e' : Executor R V M σ (μ × List (Consultation R V M))} {reason : Reason}
    (h : (verdict solver.recorded d).run e = (.ok reason, e')) :
    ∃ turn : Turn R V M, turn.delta = d ∧ turn.verdict e.stage.state = reason ∧
      e'.stage.state = e.stage.state ∧
      e'.stage.memory.2 = e.stage.memory.2 ++
        if turn.forced.isNone then [.terminate e.stage.state (.ok turn.answer)] else [] := by
  rcases verdict_eq_ok.mp h with ⟨hforced, rfl⟩ | ⟨hforced, r, t, hask, rfl, hr⟩
  · -- a final reason of the delta is the verdict, and the solver is not asked
    let turn : Turn R V M := ⟨d, .notTerminated⟩
    have hturn : turn.forced = some reason := hforced
    refine ⟨turn, rfl, Turn.verdict_of_forced hturn _, rfl, ?_⟩
    rw [hturn]
    exact (List.append_nil _).symm
  · -- without one the solver is asked
    let turn : Turn R V M := ⟨d, r⟩
    have hturn : turn.forced = none := hforced
    have hstate : t.state = e.stage.state := ha.recorded.terminate.run_eq hask
    refine ⟨turn, rfl, ?_, hstate, ?_⟩
    · rw [hstate] at hr
      rcases hr with ⟨hr, hreason⟩ | ⟨hr, met, hmet, hreason⟩
      · rw [hreason]
        exact Turn.verdict_of_answer hturn hr _
      · rw [hreason]
        exact Turn.verdict_of_target hturn hr hmet
    · rw [hturn]
      exact Solver.noting_eq hask

/-- An iteration of a recorded solver is a turn: it leads to the state the turn leads to, with the
verdict on it recorded, and the calls made are those of the turn. -/
theorem turn_of_iterate (ha : solver.Abstains)
    {e e' : Executor R V M σ (μ × List (Consultation R V M))} {newBest : Bool}
    (h : (iterate solver.recorded).run e = (.ok newBest, e'))
    (hreason : e.stage.state.reason = .notTerminated) :
    ∃ turn : Turn R V M,
      e'.stage.state =
          { turn.apply e.stage.state with
            reason := turn.verdict (turn.apply e.stage.state) } ∧
        e'.stage.memory.2 = e.stage.memory.2 ++ turn.consultations e.stage.state := by
  obtain ⟨d, t, s₁, s₂, reason, u, hnext, hmerge, hadvance, hverdict, rfl⟩ := iterate_eq_ok.mp h
  have hts : t.state = e.stage.state := ha.recorded.next.run_eq hnext
  have htm : t.memory.2 = e.stage.memory.2 ++ [.next e.stage.state (.ok (some d))] :=
    Solver.noting_eq hnext
  rw [hts] at hmerge
  have hs₂ : s₂.reason = .notTerminated := by
    obtain ⟨k, -, rfl⟩ := State.incrementIter_eq_ok hadvance
    exact (congrArg State.Standing.reason (State.standing_of_merge hmerge)).trans hreason
  -- the verdict is on the state that is merged and advanced already
  obtain ⟨turn, rfl, hturn, hus, hum⟩ := turn_of_verdict ha hverdict
  have happly : turn.apply e.stage.state = s₂ := turn.apply_eq hmerge hadvance
  refine ⟨turn, ?_, ?_⟩
  · have hlast : u.stage.state.terminateWith reason = { s₂ with reason := reason } := by
      rw [hus]
      exact State.terminateWith_of_reason hs₂ reason
    have hverdict' : turn.verdict s₂ = reason := hturn
    rw [happly, hverdict']
    exact hlast
  · have hcalls : u.stage.memory.2 = t.memory.2 ++
        if turn.forced.isNone then [.terminate s₂ (.ok turn.answer)] else [] := hum
    rw [Turn.consultations, happly]
    show u.stage.memory.2 = _
    rw [hcalls, htm, List.append_assoc]
    rfl

/-! ### The account grows -/

/-- The account `a` is exact for an executor: it tells its state and its calls, and no verdict
before the last one was final. -/
structure Exact (a : Account R V M) (observers : List (ObserverEntry R V M)) (ceiling : Int)
    (e : Executor R V M σ (μ × List (Consultation R V M))) : Prop where
  settings : e.settings = (a.config, observers)
  state : e.stage.state =
    { a.stateAt a.turns.length with reason := a.verdictAt a.turns.length }
  log : e.stage.memory.2 = a.consultations
  going : ∀ k < a.turns.length, (a.verdictAt k).isTerminal = false
  standing : ∀ k ≤ a.turns.length, (a.stateAt k).standing =
    ⟨.int k, a.config.maxIters, a.config.targetCost, .notTerminated, none⟩
  within : (a.turns.length : Int) ≤ ceiling

namespace Exact

variable {a : Account R V M} {observers : List (ObserverEntry R V M)} {ceiling : Int}
  {e e' : Executor R V M σ (μ × List (Consultation R V M))}

/-- Whether another iteration is due: the last verdict is not final and the ceiling is not
reached. -/
theorem continues_eq (h : Exact a observers ceiling e)
    (hceiling : a.config.maxIters.number? = some (.int ceiling)) :
    continues e.stage.state =
      .ok (!(a.verdictAt a.turns.length).isTerminal &&
        decide ((a.turns.length : Int) < ceiling)) := by
  have hstanding := h.standing _ (Nat.le_refl _)
  have hterminated : e.stage.state.terminated = (a.verdictAt a.turns.length).isTerminal := by
    rw [h.state]
    rfl
  have hcur : e.stage.state.curIter = .int a.turns.length := by
    rw [h.state]
    exact congrArg State.Standing.curIter hstanding
  have hmax : e.stage.state.maxIters = a.config.maxIters := by
    rw [h.state]
    exact congrArg State.Standing.maxIters hstanding
  unfold continues
  rw [hterminated, hcur, hmax, Value.lt_of_number? rfl hceiling]
  cases (a.verdictAt a.turns.length).isTerminal <;> rfl

/-- While an iteration is due the state is that of the account. -/
theorem state_of_going (h : Exact a observers ceiling e)
    (hgoing : (a.verdictAt a.turns.length).isTerminal = false) :
    e.stage.state = a.stateAt a.turns.length := by
  have hreason : (a.stateAt a.turns.length).reason = .notTerminated :=
    congrArg State.Standing.reason (h.standing _ (Nat.le_refl _))
  rw [h.state, Reason.eq_notTerminated hgoing, ← hreason]

/-- A due iteration adds a turn to the account. -/
theorem step (ha : solver.Abstains) (h : Exact a observers ceiling e)
    (hceiling : a.config.maxIters.number? = some (.int ceiling))
    (hdue : continues e.stage.state = .ok true)
    (hstep : (Executor.step solver.recorded).run e = (.ok (), e')) :
    ∃ turn, Exact (a.add turn) observers ceiling e' := by
  rw [h.continues_eq hceiling] at hdue
  -- an iteration is due, so the last verdict is not final and the ceiling is not met
  have hdue' : (a.verdictAt a.turns.length).isTerminal = false ∧
      (a.turns.length : Int) < ceiling := by simpa using hdue
  have hstate := h.state_of_going hdue'.1
  have hstanding := h.standing _ (Nat.le_refl _)
  obtain ⟨newBest, u, hiterate, hconclude⟩ := step_eq_ok.mp hstep
  obtain ⟨turn, hu, hlog⟩ := turn_of_iterate ha hiterate
    (hstate ▸ congrArg State.Standing.reason hstanding)
  -- the checks and the notifications touch neither the state nor the record
  have huntold : e'.untold = u.untold := (keeps_untold_conclude _ _).run_eq hconclude
  have hstate' : e'.untold.stage.state = u.untold.stage.state := by rw [huntold]
  have hmemory' : e'.untold.stage.memory = u.untold.stage.memory := by rw [huntold]
  refine ⟨turn, ?_, ?_, ?_, ?_, ?_, ?_⟩
  · exact ((keeps_settings_step _).run_eq hstep).trans h.settings
  · rw [Account.length_add, Account.stateAt_add_last, Account.verdictAt_add_last, ← hstate]
    exact hstate'.trans hu
  · rw [Account.consultations_add, ← h.log, ← hstate]
    exact (congrArg Prod.snd hmemory').trans hlog
  · -- the verdicts so far stay; the last of them was not final, or no iteration would be due
    intro k hk
    rw [Account.length_add] at hk
    rw [Account.verdictAt_add (by omega)]
    rcases Nat.lt_or_eq_of_le (Nat.le_of_lt_succ hk) with hk | rfl
    · exact h.going k hk
    · exact hdue'.1
  · intro k hk
    rw [Account.length_add] at hk
    rcases Nat.lt_or_eq_of_le hk with hk | rfl
    · rw [Account.stateAt_add (by omega)]
      exact h.standing k (by omega)
    · rw [Account.stateAt_add_last, Turn.standing_apply (congrArg State.Standing.curIter hstanding),
        hstanding]
      rfl
  · rw [Account.length_add]
    omega

/-- Any number of due iterations add as many turns. -/
theorem iterated (ha : solver.Abstains) (h : Exact a observers ceiling e)
    (hceiling : a.config.maxIters.number? = some (.int ceiling)) {k : Nat}
    (hk : Iterated solver.recorded e k e') :
    ∃ b : Account R V M, b.config = a.config ∧ b.opening = a.opening ∧
      b.turns.length = a.turns.length + k ∧ Exact b observers ceiling e' := by
  induction hk with
  | none => exact ⟨a, rfl, rfl, rfl, h⟩
  | more _ due done ih =>
    obtain ⟨b, hconfig, hopening, hlength, hb⟩ := ih
    obtain ⟨turn, hturn⟩ := hb.step ha (hconfig ▸ hceiling) due done
    refine ⟨b.add turn, hconfig, hopening, ?_, hturn⟩
    rw [Account.length_add, hlength, Nat.add_assoc]

/-- Where no iteration is due the run ends as its account says. -/
theorem concludes (h : Exact a observers ceiling e)
    (hceiling : a.config.maxIters.number? = some (.int ceiling)) (hforced : a.forced = none)
    (hend : continues e.stage.state = .ok false) :
    ∃ reason, a.Concludes ceiling reason ∧
      e.stage.state.terminateWith .maxItersReached =
        { a.stateAt a.turns.length with reason := reason } := by
  rw [h.continues_eq hceiling] at hend
  unfold Account.Concludes
  rw [hforced]
  cases hfinal : (a.verdictAt a.turns.length).isTerminal with
  | true =>
    -- the last verdict is final and none before it was, so its iteration is the least one
    refine ⟨a.verdictAt a.turns.length, .inl ⟨⟨⟨?_, h.within, hfinal⟩, ?_⟩, rfl⟩, ?_⟩
    · rw [Nat.one_le_iff_ne_zero]
      intro hzero
      rw [hzero] at hfinal
      cases hfinal
    · rintro k ⟨-, -, hk⟩
      by_contra hlt
      rw [h.going k (by omega)] at hk
      cases hk
    · rw [State.terminateWith, State.terminated, h.state, hfinal]
      rfl
  | false =>
    -- only the ceiling can have ended the run, and no verdict up to it was final
    have hlast : (a.turns.length : Int) = ceiling := by
      have hle := h.within
      have hnot : ¬ (a.turns.length : Int) < ceiling := by simpa [hfinal] using hend
      omega
    refine ⟨.maxItersReached, .inr ⟨?_, hlast, rfl⟩, ?_⟩
    · rw [Set.eq_empty_iff_forall_notMem]
      rintro k ⟨-, hle, hk⟩
      rcases Nat.lt_or_eq_of_le (show k ≤ a.turns.length by omega) with hlt | rfl
      · rw [h.going k hlt] at hk
        cases hk
      · rw [hfinal] at hk
        cases hk
    · rw [h.state_of_going hfinal]
      exact State.terminateWith_of_reason
        (congrArg State.Standing.reason (h.standing _ (Nat.le_refl _))) _

end Exact

/-! ### Preparation -/

variable {memory : μ} {session : Session R σ} {config : Config R V}
  {observers : List (ObserverEntry R V M)}
  {e₀ : Executor R V M σ (μ × List (Consultation R V M))}

/-- The preparation opens an account: the opening delta is merged, its final reason recorded, and
`init` was called once. -/
theorem opened_of_prepare (ha : solver.Abstains)
    (h : (prepare solver.recorded).run
      (begun solver.recorded (ready (memory, []) session config observers)) = (.ok (), e₀)) :
    ∃ a : Account R V M, a.config = config ∧ a.turns = [] ∧
      e₀.settings = (config, observers) ∧ e₀.stage.memory.2 = a.consultations ∧
      e₀.stage.state = { a.opened with reason := a.forced.getD .notTerminated } := by
  have hsettings : e₀.settings = (config, observers) := (keeps_settings_prepare _).run_eq h
  obtain ⟨o, t, hinit, hmatch⟩ := prepare_eq_ok.mp h
  -- the account that opens here is the answer of `init` and no turn yet
  let a : Account R V M := ⟨config, o, []⟩
  have hts : t.state = a.begun := ha.recorded.init.run_eq hinit
  have htm : t.memory.2 = [.init a.begun (.ok o)] := Solver.noting_eq hinit
  refine ⟨a, rfl, rfl, hsettings, ?_, ?_⟩
  · cases o with
    | none => rw [hmatch]; exact htm
    | some d =>
      obtain ⟨b, s, -, rfl⟩ := hmatch
      exact htm
  · cases o with
    | none => rw [hmatch]; exact hts
    | some d =>
      obtain ⟨b, s, hmerge, rfl⟩ := hmatch
      rw [hts] at hmerge
      have hs : a.opened = s := congrArg Prod.snd hmerge
      have hreason : s.reason = .notTerminated :=
        congrArg State.Standing.reason (State.standing_of_merge hmerge)
      have hforced : a.forced = d.termination.filter Reason.isTerminal := rfl
      rw [hs, hforced]
      cases d.termination with
      | none =>
        show s = { s with reason := .notTerminated }
        rw [← hreason]
      | some r =>
        show s.terminateWith r = _
        rw [State.terminateWith_of_reason hreason]
        cases r <;> rfl

/-! ### A whole run -/

/-- More fuel than the ceiling allows iterations. -/
theorem lt_fuel {ceiling : Value R} {n : Int} (h : ceiling.number? = some (.int n)) :
    n < fuel ceiling := by
  unfold fuel
  rw [h]
  have hn : n ≤ n.toNat := Int.self_le_toNat n
  simp only [Number.isFinite, Number.truncate, if_true]
  omega

/-- A valid configuration has no negative ceiling. -/
theorem ceiling_nonneg {ceiling : Int} (hvalid : config.validate = .ok ())
    (hceiling : config.maxIters.number? = some (.int ceiling)) : 0 ≤ ceiling := by
  unfold Config.validate at hvalid
  rw [Value.lt_of_number? hceiling rfl] at hvalid
  by_contra hneg
  have hlt : Number.lt (.int ceiling : Number R) (.int 0) = true := decide_eq_true (by omega)
  rw [hlt] at hvalid
  cases hparam : config.param.isNone <;> rw [hparam] at hvalid <;> cases hvalid

/-- Wherever a run has been it has an account: that of its opening delta alone if this had a final
reason, and else one that is exact. -/
theorem account_of_reached (ha : solver.Abstains) (hvalid : config.validate = .ok ())
    {ceiling : Int} (hceiling : config.maxIters.number? = some (.int ceiling)) {k : Nat}
    {e : Executor R V M σ (μ × List (Consultation R V M))}
    (h : Reached solver.recorded (ready (memory, []) session config observers) k e) :
    ∃ a : Account R V M, a.config = config ∧ a.turns.length = k ∧
      e.stage.memory.2 = a.consultations ∧
      ((∃ r, a.forced = some r ∧ a.turns = [] ∧
          e.stage.state = { a.opened with reason := r }) ∨
        a.forced = none ∧ Exact a observers ceiling e) := by
  obtain ⟨e₀, hprepare, hk⟩ := h
  obtain ⟨a, rfl, hturns, hsettings, hlog, hstate⟩ := opened_of_prepare ha hprepare
  cases hforced : a.forced with
  | some r =>
    -- no iteration is due after a final reason, so none was made
    rw [hforced] at hstate
    have hterminated : e₀.stage.state.terminated = true := by
      rw [hstate]
      exact Account.isTerminal_of_forced hforced
    obtain ⟨rfl, rfl⟩ := hk.eq_of_not_due (by rw [continues, hterminated]; exact nofun)
    exact ⟨a, rfl, by rw [hturns]; rfl, hlog, .inl ⟨r, hforced, hturns, hstate⟩⟩
  | none =>
    -- the account of the opening delta is exact, and every iteration since has added a turn
    rw [hforced] at hstate
    have hzero : a.turns.length = 0 := by rw [hturns]; rfl
    have hopened : a.stateAt 0 = a.opened := rfl
    have h₀ : Exact a observers ceiling e₀ := by
      refine ⟨hsettings, ?_, hlog, ?_, ?_, ?_⟩
      · rw [hzero, hopened]
        exact hstate
      · intro k hk
        omega
      · intro k hk
        obtain rfl : k = 0 := by omega
        exact a.standing_opened
      · have hnonneg := ceiling_nonneg hvalid hceiling
        omega
    obtain ⟨b, hconfig, hopening, hlength, hb⟩ := h₀.iterated ha hceiling hk
    have hforced' : b.forced = none := by
      unfold Account.forced at hforced ⊢
      rw [hopening, hforced]
    exact ⟨b, hconfig, by omega, hb.log, .inr ⟨hforced', hb⟩⟩

/-- A run that has come to its end has an account that concludes as it does. -/
theorem concludes_of_reached (ha : solver.Abstains) (hvalid : config.validate = .ok ())
    {ceiling : Int} (hceiling : config.maxIters.number? = some (.int ceiling)) {k : Nat}
    {e : Executor R V M σ (μ × List (Consultation R V M))}
    (h : Reached solver.recorded (ready (memory, []) session config observers) k e)
    (hend : continues e.stage.state = .ok false) :
    ∃ (a : Account R V M) (reason : Reason), a.config = config ∧
      e.stage.memory.2 = a.consultations ∧ a.Concludes ceiling reason ∧
      e.stage.state.terminateWith .maxItersReached =
        { a.stateAt a.turns.length with reason := reason } ∧
      ∀ k ≤ a.turns.length, (a.stateAt k).curIter = .int k := by
  obtain ⟨a, rfl, -, hlog, ⟨r, hforced, hturns, he⟩ | ⟨hforced, hexact⟩⟩ :=
    account_of_reached ha hvalid hceiling h
  · -- the initial delta was final, and no iteration was due
    have hzero : a.turns.length = 0 := by rw [hturns]; rfl
    refine ⟨a, r, rfl, hlog, ?_, ?_, ?_⟩
    · unfold Account.Concludes
      rw [hforced]
      exact ⟨hturns, rfl⟩
    · have hopened : a.stateAt 0 = a.opened := rfl
      rw [hzero, hopened, State.terminateWith, State.terminated, he]
      exact if_pos (Account.isTerminal_of_forced hforced)
    · intro k hk
      obtain rfl : k = 0 := by omega
      exact congrArg State.Standing.curIter a.standing_opened
  · obtain ⟨reason, hconcludes, hlast⟩ := hexact.concludes hceiling hforced hend
    refine ⟨a, reason, rfl, hlog, hconcludes, hlast, fun k hk => ?_⟩
    exact congrArg State.Standing.curIter (hexact.standing k hk)

/-- A run of a recorded solver that abstains and ends does not fail for want of fuel. -/
theorem drive_ne_exhausted (ha : solver.Abstains) (hvalid : config.validate = .ok ())
    {ceiling : Int} (hceiling : config.maxIters.number? = some (.int ceiling))
    (hends : solver.FaultsIn (· ≠ .exhausted))
    (hobs : ∀ entry ∈ observers, entry.observer.FaultsIn (· ≠ .exhausted))
    {u : Executor R V M σ (μ × List (Consultation R V M))} :
    (drive solver.recorded).run
      (begun solver.recorded (ready (memory, []) session config observers)) ≠
        (.error .exhausted, u) := by
  intro h
  have hp : ∀ f : Fault R, f.Ordinary → f ≠ .exhausted := by
    rintro f hf rfl
    cases hf
  have hguarded := hends.recorded.guarded
  -- every fault that the solver or an observer raises is another one
  have hholds (e : Executor R V M σ (μ × List (Consultation R V M)))
      (he : ∀ entry ∈ e.observers, entry.observer.FaultsIn (· ≠ .exhausted)) :
      e.Holds (fun _ => True) (fun _ => True) (· ≠ .exhausted) :=
    ⟨⟨trivial, fun _ _ => trivial⟩, fun entry hentry => (he entry hentry).interruptsIn⟩
  rcases drive_eq_error h with hprepare | ⟨k, e, hk, ⟨hdue, -⟩ | ⟨hdue, hend⟩⟩
  · exact (triple_prepare hp hguarded _ (hholds _ hobs)).2 _ _ hprepare rfl
  · have hcalm := calm_continues _ _ hdue
    cases hcalm
  · obtain ⟨a, rfl, hlength, -, ⟨r, hforced, -, hstate⟩ | ⟨-, hexact⟩⟩ :=
      account_of_reached ha hvalid hceiling hk
    · have hterminated : e.stage.state.terminated = true := by
        rw [hstate]
        exact Account.isTerminal_of_forced hforced
      rw [continues, hterminated] at hdue
      cases hdue
    · rcases hend with hstep | ⟨hfuel, -⟩
      · have hobservers : e.observers = observers := congrArg Prod.snd hexact.settings
        exact (triple_step hp hguarded _ (hholds e (hobservers ▸ hobs))).2 _ _ hstep rfl
      · -- without fuel the run has made more iterations than its ceiling allows
        have hlt := lt_fuel hceiling
        have hwithin := hexact.within
        have hconfig : (ready (memory, []) session a.config observers :
          Executor R V M σ (μ × List (Consultation R V M))).config = a.config := rfl
        rw [hconfig] at hfuel
        omega

/-- **A run does what its account says.**  A solver that does not assign to the state is run with
a valid configuration, and nothing is refused; that its steps and the observers end is what it is
for `exhausted` not to be among their faults.  Then the run returns, and it has an account: its
calls are those of the account, it ends as the account concludes, and its last state is that of the
account after its iterations, with the reason and a duration recorded. -/
theorem run_accounted (solver : Solver R V M σ μ) (memory : μ) (session : Session R σ)
    (config : Config R V) (observers : List (ObserverEntry R V M)) (ceiling : Int)
    (ha : solver.Abstains) (hvalid : config.validate = .ok ())
    (hceiling : config.maxIters.number? = some (.int ceiling))
    (hends : solver.FaultsIn (· ≠ .exhausted))
    (hobs : ∀ entry ∈ observers, entry.observer.FaultsIn (· ≠ .exhausted))
    (hquiet : ∀ f e, (run solver).run (ready memory session config observers) = (.error f, e) →
      f = .exhausted) :
    ∃ (a : Account R V M) (reason : Reason) (outcome : Outcome R V M)
      (e : Executor R V M σ μ) (e' : Executor R V M σ (μ × List (Consultation R V M))),
      a.config = config ∧
        (run solver).run (ready memory session config observers) = (.ok outcome, e) ∧
        (run solver.recorded).run (ready (memory, []) session config observers) =
          (.ok outcome, e') ∧
        e'.stage.memory = (e.stage.memory, a.consultations) ∧
        a.Concludes ceiling reason ∧
        (∃ time, outcome.state =
          { a.stateAt a.turns.length with reason := reason, time := some time }) ∧
        e.stage.state = outcome.state ∧
        ∀ k ≤ a.turns.length, (a.stateAt k).curIter = .int k := by
  -- the run and the recorded one go side by side; the account is read off what the latter noted
  have halike : Alike (fun (p : μ × List (Consultation R V M)) m => p.1 = m)
      (ready (memory, []) session config observers)
      (ready memory session config observers : Executor R V M σ μ) :=
    ⟨rfl, rfl, rfl, ⟨rfl, rfl, rfl⟩, rfl⟩
  obtain ⟨hleft, hagree⟩ := run_alike solver.recorded_alike _ _ halike
  rcases hrun : (run solver).run (ready memory session config observers) with ⟨r, e⟩
  rcases hrecorded : (run solver.recorded).run (ready (memory, []) session config observers)
    with ⟨r', e'⟩
  rw [hrun, hrecorded] at hleft hagree
  obtain rfl : r' = r := hagree.eq
  rw [run_eq rfl hvalid] at hrecorded
  rcases hdrive : (drive solver.recorded).run
      (begun solver.recorded (ready (memory, []) session config observers)) with ⟨g | _, u⟩
  · rw [hdrive] at hrecorded
    have hfault : r' = .error g := by
      dsimp only at hrecorded
      split at hrecorded <;> cases hrecorded <;> rfl
    rw [hfault] at hrun
    obtain rfl := hquiet g e hrun
    exact absurd hdrive (drive_ne_exhausted ha hvalid hceiling hends hobs)
  · rw [hdrive] at hrecorded
    cases hrecorded
    obtain ⟨k, hreached, hend⟩ := drive_eq_ok hdrive
    obtain ⟨a, reason, rfl, hlog, hconcludes, hlast, hcounter⟩ :=
      concludes_of_reached ha hvalid hceiling hreached hend
    have hmemory : u.stage.memory = (e.stage.memory, a.consultations) :=
      Prod.ext hleft.stage.memory hlog
    have hclosed : (closed u .maxItersReached).stage.state =
        { u.stage.state.terminateWith .maxItersReached with
          time := some (.real u.stage.session.elapsed) } := rfl
    have hstate : (closed u .maxItersReached).stage.state =
        { a.stateAt a.turns.length with
          reason := reason
          time := some (.real u.stage.session.elapsed) } := by
      rw [hclosed, hlast]
    exact ⟨a, reason, _, e, _, rfl, rfl, rfl, hmemory, hconcludes, ⟨_, hstate⟩,
      hleft.stage.state.symm, hcounter⟩

/-- A solver that counts its iterations down and never stops by itself. -/
def countdown : Solver Float Float Unit Unit Nat where
  name := "Countdown"
  requires := [.cost]
  init := pure none
  next := do
    modify fun t => { t with memory := t.memory - 1 }
    return some { cost := some (.int (← get).memory) }
  terminate := pure .notTerminated

/-- The settings of a run that is over at a cost of three. -/
def untilThree : Config Float Float :=
  { param := some 0.0, maxIters := .int 10, targetCost := .real 3.0 }

/-- Counting down from five the run ends at its target, and has an account. -/
theorem run_accounted_countdown :
    ((run countdown).run (ready 5 ⟨{}, (), [], false, 0.0⟩ untilThree [])).2.stage.state.reason =
        .targetCostReached ∧
      ∃ (a : Account Float Float Unit) (reason : Reason),
        a.config = untilThree ∧ a.Concludes 10 reason := by
  have hok :
      ((run countdown).run (ready 5 ⟨{}, (), [], false, 0.0⟩ untilThree [])).1.isOk = true := by
    decide +kernel
  have hends : countdown.FaultsIn (· ≠ .exhausted) := by
    constructor <;> intro t f t' h <;> cases h
  obtain ⟨a, reason, -, -, -, hconfig, -, -, -, hconcludes, -⟩ :=
    run_accounted countdown 5 ⟨{}, (), [], false, 0.0⟩ untilThree [] 10
      ⟨fun _ => rfl, fun _ => rfl, fun _ => rfl⟩ rfl rfl hends nofun
      (fun f e h => by rw [h] at hok; cases hok)
  exact ⟨by decide +kernel, a, reason, hconfig, hconcludes⟩

end Executor

end Descent
