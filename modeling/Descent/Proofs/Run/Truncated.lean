import Descent.Proofs.Run.Fresh
import Descent.Proofs.Run.Lower

/-!
# Runs under two ceilings

A ceiling ends a run and does nothing else to it.  Of two runs that differ in their ceilings, the
one with the lower ceiling performs as many iterations as the other one, or as many as its ceiling
allows if those are fewer (`Executor.run_truncated`).

Wherever both runs have been after `i` iterations, their states differ in what limits them at most
(`Executor.reached_level`).  So both find another iteration due there, or neither does, unless the
lower ceiling was reached.
-/

namespace Descent

open Act

variable {R V M σ μ : Type} [Scalar R]

/-- States that differ in their limits differ in their limits once they are ended. -/
theorem State.closed_of_eq_under {s s' : State R V M} {ceiling : Value R}
    (hceiling : s.maxIters = ceiling) (heq : s' = s.under s'.maxIters s'.time) (r : Reason)
    (time time' : Option (Value R)) :
    { s.terminateWith r with time := time } =
      { { s'.terminateWith r with time := time' } with maxIters := ceiling, time := time } := by
  have hended : State.Abreast (fun c _ => c = ceiling) (s.terminateWith r) (s'.terminateWith r) :=
    (State.steady_abreast _).terminateWith ⟨hceiling, heq⟩ r
  rw [hended.eq_under, ← hended.ceiling]
  rfl

/-! ### Sessions with as many evaluations -/

namespace Session

omit [Scalar R] in
/-- As many evaluations are charged to the sessions, and both are checked or neither is. -/
structure Level (s u : Session R σ) : Prop where
  counts : s.counts = u.counts
  debug : s.debug = u.debug

/-- Sessions with as many evaluations have as many after another one, and never part. -/
def level (R σ : Type) : Course R (Session R σ) (Session R σ) where
  together := Level
  broken _ _ := False
  astray _ := False

omit [Scalar R] in
theorem bears_level : (level R σ).Bears fun _ _ => True where
  counts h := h.counts
  debug h := h.debug
  elapsed _ := trivial
  told h _ := ⟨h.counts, h.debug⟩
  broken_told h _ := h
  astray_told h _ := h

omit [Scalar R] in
theorem serves_level {op : Operator R V M σ} {l : Landscape R V M} (hop : op.Follows l)
    (cap : Capability) : (level R σ).Serves op op cap := by
  refine serves_of_follows ?_ (fun _ h => h) hop cap
  intro s u h cap w w'
  exact ⟨congrArg (·.charge cap) h.counts, h.debug⟩

end Session

namespace Executor

variable {solver : Solver R V M σ μ} {low high : Value R}

/-- A run that completed with the outcome performed `k` iterations: after these no other one was
due, and it was closed. -/
def Performs (solver : Solver R V M σ μ) (e : Executor R V M σ μ) (k : Nat)
    (outcome : Outcome R V M) : Prop :=
  ∃ u, Reached solver e k u ∧ continues u.stage.state = .ok false ∧
    outcome = ⟨solver.name, (closed u .maxItersReached).stage.state, u.stage.session.counts⟩

/-! ### Side by side under two ceilings -/

/-- Executors whose states differ in their limits at most, with the ceiling `low` in the first one
and `high` in the second one. -/
def level (σ μ : Type) (low high : Value R) :
    Course R (Executor R V M σ μ) (Executor R V M σ μ) :=
  course (Session.level R σ) Eq (State.Placed (State.Abreast fun c c' => c = low ∧ c' = high))
    fun _ _ => True

variable {e e' u u' v v' : Executor R V M σ μ}

/-- Steps that go along the course end alike, on executors that are on it. -/
theorem level_of_beside {α : Type} {a : Act R (Executor R V M σ μ) α}
    (ha : (level (V := V) (M := M) σ μ low high).Beside Eq a a)
    (h : (level σ μ low high).together u u') {r r' : α} (hu : a.run u = (.ok r, v))
    (hu' : a.run u' = (.ok r', v')) : r = r' ∧ (level σ μ low high).together v v' := by
  obtain ⟨hagree, htogether⟩ := ha.together (fun _ _ hb => hb) (fun _ hs => hs.2.2) h
  rw [hu, hu'] at hagree htogether
  cases hagree with
  | ok hr => exact ⟨hr, htogether⟩

/-- What is told of an iteration does not matter to the course. -/
theorem level_of_untold (h : (level σ μ low high).together v v') (hu : u.untold = v.untold)
    (hu' : u'.untold = v'.untold) : (level σ μ low high).together u u' := by
  obtain ⟨journal, hstage⟩ := stage_eq_of_untold hu
  obtain ⟨journal', hstage'⟩ := stage_eq_of_untold hu'
  obtain ⟨-, hplaced, hcounts, hdebug⟩ := h
  refine ⟨trivial, ?_⟩
  rw [hstage, hstage']
  exact ⟨hplaced, hcounts, hdebug⟩

section

variable (hsolver : Solver.Beside (Session.level R σ) Eq
  (State.Placed (State.Abreast fun c c' => c = low ∧ c' = high)) solver solver)

include hsolver

theorem step_level (h : (level σ μ low high).together v v')
    (hv : (step solver).run v = (.ok (), u)) (hv' : (step solver).run v' = (.ok (), u')) :
    (level σ μ low high).together u u' := by
  obtain ⟨newBest, w, hiterate, hconclude⟩ := step_eq_ok.mp hv
  obtain ⟨newBest', w', hiterate', hconclude'⟩ := step_eq_ok.mp hv'
  have hlike := State.steady_abreast (R := R) (V := V) (M := M) fun c c' => c = low ∧ c' = high
  have hbeside : (level σ μ low high).Beside Eq (iterate solver) (iterate solver) :=
    iterate_beside (fun _ _ _ _ h => h) hlike.placed hsolver
  obtain ⟨-, hw⟩ := level_of_beside hbeside h hiterate hiterate'
  exact level_of_untold hw ((keeps_untold_conclude _ _).run_eq hconclude)
    ((keeps_untold_conclude _ _).run_eq hconclude')

/-- Wherever both runs have been after as many iterations, their states differ in their limits
only. -/
theorem reached_level (hbegun : (level σ μ low high).together (begun solver e) (begun solver e'))
    {i : Nat} (h : Reached solver e i u) (h' : Reached solver e' i u') :
    (level σ μ low high).together u u' := by
  induction i generalizing u u' with
  | zero =>
    have hlike := State.steady_abreast (R := R) (V := V) (M := M) fun c c' => c = low ∧ c' = high
    have hprepare : (level σ μ low high).Beside Eq (prepare solver) (prepare solver) :=
      prepare_beside (fun _ _ _ _ h => h) hlike.placed hsolver
    exact (level_of_beside hprepare hbegun (reached_zero.mp h) (reached_zero.mp h')).2
  | succ i ih =>
    obtain ⟨v, hv, -, hstep⟩ := h.before
    obtain ⟨v', hv', -, hstep'⟩ := h'.before
    exact step_level hsolver (ih hv hv') hstep hstep'

end

/-! ### Where the runs end -/

/-- A run that was not started, under the ceiling. -/
def capped (memory : μ) (session : Session R σ) (config : Config R V)
    (observers : List (ObserverEntry R V M)) (ceiling : Value R) : Executor R V M σ μ :=
  ready memory session { config with maxIters := ceiling } observers

section

variable {memory : μ} {session session' : Session R σ} {config : Config R V}
  {observers : List (ObserverEntry R V M)} {ceiling : Value R} {n N k k' : Nat}

theorem begun_level (hvalid : { config with maxIters := low }.validate = .ok ())
    (h : session.Level session') :
    (level σ μ low high).together (begun solver (capped memory session config observers low))
      (begun solver (capped memory session' config observers high)) :=
  ⟨trivial, ⟨rfl, Config.isSome_of_validate hvalid, ⟨rfl, rfl⟩, rfl⟩, h.counts, h.debug⟩

/-- A run makes no more iterations than its ceiling allows. -/
theorem le_of_reached (ha : solver.Abstains) (hn : ceiling.number? = some (.int n))
    (h : Reached solver (capped memory session config observers ceiling) k u) : k ≤ n := by
  cases k with
  | zero => exact Nat.zero_le n
  | succ k =>
    -- the last of the iterations was due below the ceiling
    obtain ⟨v, hv, hdue, -⟩ := h.before
    have hnot : v.stage.state.terminated = false :=
      not_terminated_of_continues (by rw [hdue]; exact nofun)
    rw [continues_of_reached ha hn hv hnot] at hdue
    have hlt := of_decide_eq_true (Except.ok.inj hdue)
    omega

/-- A run that stops below its ceiling was terminated. -/
theorem terminated_of_lt (ha : solver.Abstains) (hn : ceiling.number? = some (.int n))
    (h : Reached solver (capped memory session config observers ceiling) k u)
    (hend : continues u.stage.state = .ok false) (hlt : k < n) :
    u.stage.state.terminated = true := by
  by_contra hnot
  rw [continues_of_reached ha hn h (Bool.eq_false_of_not_eq_true hnot)] at hend
  have hle := of_decide_eq_false (Except.ok.inj hend)
  omega

/-- Before any of its iterations a run was not terminated. -/
theorem not_terminated_of_reached {i : Nat} (h : Reached solver e k u) (hi : i < k) :
    ∃ v, Reached solver e i v ∧ v.stage.state.terminated = false := by
  obtain ⟨w, hw⟩ := h.of_le (Nat.succ_le_of_lt hi)
  obtain ⟨v, hv, hdue, -⟩ := hw.before
  exact ⟨v, hv, not_terminated_of_continues (by rw [hdue]; exact nofun)⟩

/-- The counter of a run that was completed says how many iterations it performed. -/
theorem Performs.counter (ha : solver.Abstains) {outcome : Outcome R V M}
    (h : Performs solver (ready memory session config observers) k outcome) :
    outcome.state.curIter = .int k := by
  obtain ⟨u, hu, -, rfl⟩ := h
  exact (curIter_terminateWith _ _).trans (standsAt_of_reached ha hu).counter

/-- Of two runs under two ceilings the one with the lower ceiling makes as many iterations as the
other one, or as many as its ceiling allows. -/
theorem performed_eq_min (ha : solver.Abstains)
    (hsolver : Solver.Beside (Session.level R σ) Eq
      (State.Placed (State.Abreast fun c c' => c = low ∧ c' = high)) solver solver)
    (hlow : low.number? = some (.int n)) (hhigh : high.number? = some (.int N)) (hle : n ≤ N)
    (hbegun : (level σ μ low high).together
      (begun solver (capped memory session config observers low))
      (begun solver (capped memory session' config observers high)))
    (hu : Reached solver (capped memory session config observers low) k u)
    (hend : continues u.stage.state = .ok false)
    (hu' : Reached solver (capped memory session' config observers high) k' u')
    (hend' : continues u'.stage.state = .ok false) : k = min n k' := by
  have hk : k ≤ n := le_of_reached ha hlow hu
  -- as far as both go, the runs are over at the same place
  have hsame {i : Nat} {v v' : Executor R V M σ μ}
      (hv : Reached solver (capped memory session config observers low) i v)
      (hv' : Reached solver (capped memory session' config observers high) i v') :
      v'.stage.state.terminated = v.stage.state.terminated := by
    obtain ⟨-, ⟨-, -, -, heq⟩, -⟩ := reached_level hsolver hbegun hv hv'
    rw [heq]
    rfl
  rcases Nat.lt_trichotomy k k' with hlt | rfl | hgt
  · -- the longer run was not terminated here, so neither was the shorter one
    obtain ⟨v', hv', hnot⟩ := not_terminated_of_reached hu' hlt
    rw [hsame hu hv'] at hnot
    have hge : ¬ k < n := by
      intro hkn
      rw [terminated_of_lt ha hlow hu hend hkn] at hnot
      cases hnot
    omega
  · exact (Nat.min_eq_right hk).symm
  · -- the longer run was terminated here, though the shorter one was not
    obtain ⟨v, hv, hnot⟩ := not_terminated_of_reached hu hgt
    rw [← hsame hv hu', terminated_of_lt ha hhigh hu' hend' (by omega)] at hnot
    cases hnot

end

variable [Space R V] [LinearAction R V M]

/-- **A ceiling only truncates.**  Two runs of a method that minimises on a deterministic operator
differ in their ceilings, `n` and `N` with `n ≤ N`, and both are completed.  If the run with the
higher ceiling performs more than `n` iterations, then the one with the lower ceiling performs `n`,
is ended by its ceiling, and ends in the state that the other one was in after its iteration `n`.
Otherwise the two perform the same iterations and end with the same counts in the same state, the
reason included.  The states differ in what limits them: the ceiling and the time, and in the first
case the reason. -/
theorem run_truncated {op : Operator R V M σ} {l : Landscape R V M} (hop : op.Follows l)
    {m : Method R V M} (hm : m.Descends) {solver : Solver R V M σ (Memory R V M)}
    (hsolver : m.solver op = some solver) (memory : Memory R V M) {session session' : Session R σ}
    (hsession : session.Level session') (config : Config R V)
    (observers : List (ObserverEntry R V M)) {low high : Value R} {n N : Nat}
    (hlow : low.number? = some (.int n)) (hhigh : high.number? = some (.int N)) (hle : n ≤ N)
    {short long : Outcome R V M} {e e' : Executor R V M σ (Memory R V M)}
    (hshort : (run solver).run (capped memory session config observers low) = (.ok short, e))
    (hlong : (run solver).run (capped memory session' config observers high) = (.ok long, e')) :
    ∃ k : Nat,
      Performs solver (capped memory session' config observers high) k long ∧
      Performs solver (capped memory session config observers low) (min n k) short ∧
      (n < k → ∃ s, Visits solver (capped memory session' config observers high) n s ∧
        short.state = { s with
          maxIters := low, reason := .maxItersReached, time := short.state.time }) ∧
      (k ≤ n → short.counts = long.counts ∧
        short.state = { long.state with maxIters := low, time := short.state.time }) := by
  have : Nonempty (Session R σ) := ⟨session⟩
  have hbeside : Solver.Beside (Session.level R σ) Eq
      (State.Placed (State.Abreast fun c c' => c = low ∧ c' = high)) solver solver :=
    hm.beside hsolver hsolver (fun cap _ => Session.serves_level hop cap)
      Session.bears_level (State.steady_abreast _)
  have ha := hm.abstains hsolver
  have hbegun : (level σ (Memory R V M) low high).together
      (begun solver (capped memory session config observers low))
      (begun solver (capped memory session' config observers high)) :=
    begun_level (valid_of_run hshort).2 hsession
  obtain ⟨j, u, hu, hend, rfl, -⟩ := ended_of_run hshort
  obtain ⟨k, u', hu', hend', rfl, -⟩ := ended_of_run hlong
  obtain rfl : j = min n k :=
    performed_eq_min ha hbeside hlow hhigh hle hbegun hu hend hu' hend'
  refine ⟨k, ⟨u', hu', hend', rfl⟩, ⟨u, hu, hend, rfl⟩, fun hmore => ?_, fun hsame => ?_⟩
  · -- the shorter run stops at its ceiling, where the longer one goes on
    rw [Nat.min_eq_left (Nat.le_of_lt hmore)] at hu
    obtain ⟨v', hv', hnot⟩ := not_terminated_of_reached hu' hmore
    obtain ⟨-, ⟨-, -, ⟨hceiling, -⟩, heq⟩, -⟩ := reached_level hbeside hbegun hu hv'
    refine ⟨v'.stage.state, ⟨v', hv', rfl⟩, ?_⟩
    have hreason : u.stage.state.reason = .notTerminated := by
      rw [heq] at hnot
      exact Reason.eq_notTerminated hnot
    show { u.stage.state.terminateWith .maxItersReached with
        time := some (.real u.stage.session.elapsed) } = _
    rw [heq, State.terminateWith_of_reason hreason, ← hceiling]
    rfl
  · -- both end at the same iteration
    rw [Nat.min_eq_right hsame] at hu
    obtain ⟨-, ⟨-, -, ⟨hceiling, -⟩, heq⟩, hcounts, -⟩ := reached_level hbeside hbegun hu hu'
    exact ⟨hcounts, State.closed_of_eq_under hceiling heq _ _ _⟩

/-- A trust-region run down the bowl that was not started, under the ceiling. -/
def cappedBowl (n : Int) : Executor Float (Tensor Float) (Curvature Float) Unit
    (Memory Float (Tensor Float) (Curvature Float)) :=
  capped .plain ⟨{}, (), [], false, 0.0⟩ { param := some (.vector .numpy [2.0]) } [] (.int n)

/-- Under a ceiling of five the run converges in its second iteration.  It is truncated by a
ceiling of one, but not by a ceiling of two, which is reached as it converges. -/
theorem run_truncated_bowl :
    (∃ short e, (run cauchySolver).run (cappedBowl 1) = (.ok short, e) ∧
      ∃ s, Visits cauchySolver (cappedBowl 5) 1 s ∧ short.state = { s with
        maxIters := .int 1, reason := .maxItersReached, time := short.state.time }) ∧
    ∃ short long e e', (run cauchySolver).run (cappedBowl 2) = (.ok short, e) ∧
      (run cauchySolver).run (cappedBowl 5) = (.ok long, e') ∧
      short.state.reason = .converged ∧ short.counts = long.counts ∧
      short.state = { long.state with maxIters := .int 2, time := short.state.time } := by
  have hsolver : (Method.trustRegion .cauchy cauchyTrust).solver bowl = some cauchySolver := rfl
  have hcounted {k : Nat} {long : Outcome Float _ _}
      (hlong : Performs cauchySolver (cappedBowl 5) k long) : long.state.curIter = .int k :=
    hlong.counter ((Method.Descends.trustRegion .cauchy cauchyTrust).abstains hsolver)
  obtain ⟨long, e', hlong, hlast⟩ := exists_of_toOption_map
    (a := run cauchySolver) (t := cappedBowl 5)
    (f := fun o : Outcome Float (Tensor Float) (Curvature Float) =>
      o.state.curIter.number?.map Number.truncate) (y := some 2) (by decide +kernel)
  obtain ⟨first, e, hfirst, -⟩ := exists_of_toOption_map
    (a := run cauchySolver) (t := cappedBowl 1) (f := fun _ => ()) (y := ()) (by decide +kernel)
  obtain ⟨second, u, hsecond, hconverged⟩ := exists_of_toOption_map
    (a := run cauchySolver) (t := cappedBowl 2)
    (f := fun o : Outcome Float (Tensor Float) (Curvature Float) => o.state.reason)
    (y := .converged) (by decide +kernel)
  -- under a ceiling of `5` the run converges after two iterations
  have hperformed {k : Nat} (hk : Performs cauchySolver (cappedBowl 5) k long) : k = 2 := by
    rw [hcounted hk] at hlast
    have hcounter : (k : Int) = 2 := Option.some.inj hlast
    omega
  have hone : (Value.int 1 : Value Float).number? = some (.int (1 : Nat)) := rfl
  have htwo : (Value.int 2 : Value Float).number? = some (.int (2 : Nat)) := rfl
  have hfive : (Value.int 5 : Value Float).number? = some (.int (5 : Nat)) := rfl
  obtain ⟨k, hk, -, hmore, -⟩ := run_truncated follows_bowl (.trustRegion .cauchy cauchyTrust)
    hsolver .plain ⟨rfl, rfl⟩ _ [] hone hfive (by omega) hfirst hlong
  obtain ⟨k', hk', -, -, hsame⟩ := run_truncated follows_bowl (.trustRegion .cauchy cauchyTrust)
    hsolver .plain ⟨rfl, rfl⟩ _ [] htwo hfive (by omega) hsecond hlong
  obtain ⟨hcounts, hstate⟩ := hsame (by rw [hperformed hk'])
  refine ⟨⟨first, e, hfirst, hmore (by rw [hperformed hk]; omega)⟩, ?_⟩
  exact ⟨second, long, u, e', hsecond, hlong, hconverged, hcounts, hstate⟩

end Executor

end Descent
