import Descent.Proofs.Run.Beside
import Descent.Proofs.Solver.Alike

/-!
# Runs on what earlier runs left

`Executor.Visits solver e k s` says that a run started from `e` is in the state `s` after its
preparation and `k` iterations.  Runs of one solver visit the same states and have the same outcome
if their memories are the same in what the solver reads of them, and also if its preparation makes
the same of them, whatever they were (`Executor.Same`).

A trust-region method sets its working radius in the preparation, so it does not matter what
earlier runs left there (`Method.same_of_matches`).
-/

namespace Descent

open Act

variable {R V M σ μ ν : Type} [Scalar R]

namespace Executor

/-- A run started from `e` is in the state `s` after its preparation and `k` iterations. -/
def Visits (solver : Solver R V M σ μ) (e : Executor R V M σ μ) (k : Nat) (s : State R V M) :
    Prop :=
  ∃ u, Reached solver e k u ∧ u.stage.state = s

/-- Runs of a solver from two executors visit the same states, have the same outcome and leave
executors that differ in their memories only. -/
structure Same (solver : Solver R V M σ μ) (e e' : Executor R V M σ μ) : Prop where
  visits : ∀ k s, Visits solver e k s ↔ Visits solver e' k s
  outcome : ((run solver).run e).1 = ((run solver).run e').1
  left : Alike (fun _ _ => True) ((run solver).run e).2 ((run solver).run e').2

variable {mem : μ → ν → Prop} {a : Solver R V M σ μ} {b : Solver R V M σ ν}
  {e e₁ e₂ : Executor R V M σ μ} {e' : Executor R V M σ ν}

theorem Alike.mono {mem' : μ → ν → Prop} (h : Alike mem e e')
    (hmem : ∀ m m', mem m m' → mem' m m') : Alike mem' e e' :=
  ⟨h.config, h.observers, h.status, ⟨hmem _ _ h.stage.memory, h.stage.state, h.stage.session⟩,
    h.notices⟩

theorem Alike.symm {mem : μ → μ → Prop} (h : Alike mem e e₁) (hmem : ∀ m m', mem m m' → mem m' m) :
    Alike mem e₁ e :=
  ⟨h.config.symm, h.observers.symm, h.status.symm,
    ⟨hmem _ _ h.stage.memory, h.stage.state.symm, h.stage.session.symm⟩, h.notices.symm⟩

theorem Same.trans {solver : Solver R V M σ μ} (h : Same solver e e₁) (h' : Same solver e₁ e₂) :
    Same solver e e₂ where
  visits k s := (h.visits k s).trans (h'.visits k s)
  outcome := h.outcome.trans h'.outcome
  left := by
    obtain ⟨hconfig, hobservers, hstatus, ⟨-, hstate, hsession⟩, hnotices⟩ := h.left
    obtain ⟨hconfig', hobservers', hstatus', ⟨-, hstate', hsession'⟩, hnotices'⟩ := h'.left
    exact ⟨hconfig.trans hconfig', hobservers.trans hobservers', hstatus.trans hstatus',
      ⟨trivial, hstate.trans hstate', hsession.trans hsession'⟩, hnotices.trans hnotices'⟩

theorem Same.symm {solver : Solver R V M σ μ} (h : Same solver e e₁) : Same solver e₁ e where
  visits k s := (h.visits k s).symm
  outcome := h.outcome.symm
  left := h.left.symm fun _ _ _ => trivial

/-! ### Memories that are the same in what is read -/

/-- Wherever a run has been, one whose preparation and iterations do the same on related executors
has been, too. -/
theorem reached_of_related {P : Executor R V M σ μ → Executor R V M σ ν → Prop}
    (hprepare : Related P Eq (prepare a) (prepare b)) (hstep : Related P Eq (step a) (step b))
    (hdue : ∀ u u', P u u' → continues u'.stage.state = continues u.stage.state)
    (hbegun : P (begun a e) (begun b e')) {k : Nat} {u : Executor R V M σ μ}
    (hu : Reached a e k u) : ∃ u', Reached b e' k u' ∧ P u u' := by
  have hgo {x : Act R (Executor R V M σ μ) Unit} {y : Act R (Executor R V M σ ν) Unit}
      (hxy : Related P Eq x y) {u v : Executor R V M σ μ} {u' : Executor R V M σ ν}
      (hu : P u u') (hx : x.run u = (.ok (), v)) : ∃ v', y.run u' = (.ok (), v') ∧ P v v' := by
    obtain ⟨hend, hr⟩ := hxy u u' hu
    rw [hx] at hend hr
    exact ⟨_, Prod.ext hr.eq.symm rfl, hend⟩
  obtain ⟨e₀, hprepared, hiterated⟩ := hu
  obtain ⟨e₀', hprepared', he₀⟩ := hgo hprepare hbegun hprepared
  induction hiterated with
  | none => exact ⟨e₀', reached_zero.mpr hprepared', he₀⟩
  | more _ due done ih =>
    obtain ⟨v, hv, hP⟩ := ih
    obtain ⟨v', hdone, hP'⟩ := hgo hstep hP done
    exact ⟨v', hv.more ((hdue _ _ hP).trans due) hdone, hP'⟩

/-- Runs of solvers that do the same on related memories stand at executors that are alike. -/
theorem reached_alike (h : Solver.Alike mem a b) (he : Alike mem e e') {k : Nat}
    {u : Executor R V M σ μ} (hu : Reached a e k u) : ∃ u', Reached b e' k u' ∧ Alike mem u u' :=
  reached_of_related (prepare_alike h) (step_alike h)
    (fun _ _ hu => congrArg continues hu.stage.state.symm) (start_alike h e e' he).1 hu

/-- Memories that a solver reads the same of lead to the same runs. -/
theorem same_of_alike {mem : μ → μ → Prop} {solver : Solver R V M σ μ}
    (h : Solver.Alike mem solver solver) (hmem : ∀ m m', mem m m' → mem m' m)
    (he : Alike mem e e₁) : Same solver e e₁ where
  visits k s := by
    constructor
    · rintro ⟨u, hu, hs⟩
      obtain ⟨u', hu', hlike⟩ := reached_alike h he hu
      exact ⟨u', hu', hlike.stage.state.symm.trans hs⟩
    · rintro ⟨u, hu, hs⟩
      obtain ⟨u', hu', hlike⟩ := reached_alike h (he.symm hmem) hu
      exact ⟨u', hu', hlike.stage.state.symm.trans hs⟩
  outcome := (run_alike h e e₁ he).2.eq
  left := (run_alike h e e₁ he).1.mono fun _ _ _ => trivial

/-! ### Memories that the preparation makes the same of -/

/-- The executor with another memory. -/
def withMemory (e : Executor R V M σ μ) (m : μ) : Executor R V M σ μ :=
  e.withStage { e.stage with memory := m }

/-- A run whose settings are not valid is refused where it stands. -/
theorem run_of_invalid {solver : Solver R V M σ μ} {f : Fault R} (hstatus : e.status = .configured)
    (h : e.config.validate = .error f) : (run solver).run e = (.error f, e) := by
  rw [run_run, if_neg (fun hnot => hnot hstatus), h]

/-- Memories that the preparation makes the same of lead to the same runs. -/
theorem same_of_init {solver : Solver R V M σ μ} (hstatus : e.status = .configured) {m : μ}
    (h : ∀ state session, solver.init.run ⟨e.stage.memory, state, session⟩ =
      solver.init.run ⟨m, state, session⟩) : Same solver e (e.withMemory m) := by
  -- the preparation ends in the same executor
  have hprepare : (prepare solver).run (begun solver e) =
      (prepare solver).run (begun solver (e.withMemory m)) := by
    have hinit : (onStage solver.init).run (begun solver e) =
        (onStage solver.init).run (begun solver (e.withMemory m)) := by
      rw [run_onStage, run_onStage]
      have hstage := h (begun solver e).stage.state (begun solver e).stage.session
      exact congrArg (fun r => (r.1, (begun solver e).withStage r.2)) hstage
    unfold prepare
    rw [run_bind, run_bind, hinit]
  have hdrive : (drive solver).run (begun solver e) =
      (drive solver).run (begun solver (e.withMemory m)) := by
    rw [run_drive, run_drive, run_bind, run_bind, hprepare]
  have hleft : Alike (fun _ _ => True) e (e.withMemory m) :=
    ⟨rfl, rfl, rfl, ⟨trivial, rfl, rfl⟩, rfl⟩
  have hrun : ((run solver).run e).1 = ((run solver).run (e.withMemory m)).1 ∧
      Alike (fun _ _ => True) ((run solver).run e).2 ((run solver).run (e.withMemory m)).2 := by
    cases hvalid : e.config.validate with
    | error f =>
      rw [run_of_invalid hstatus hvalid, run_of_invalid (e := e.withMemory m) hstatus hvalid]
      exact ⟨rfl, hleft⟩
    | ok _ =>
      have heq : (run solver).run e = (run solver).run (e.withMemory m) := by
        rw [run_eq hstatus hvalid, run_eq (e := e.withMemory m) hstatus hvalid, hdrive]
      rw [heq]
      exact ⟨rfl, rfl, rfl, rfl, ⟨trivial, rfl, rfl⟩, rfl⟩
  refine ⟨fun k s => ?_, hrun.1, hrun.2⟩
  unfold Visits Reached
  rw [hprepare]

end Executor

namespace Method

theorem Matches.symm {m : Method R V M} {p q : Memory R V M} (h : m.Matches p q) :
    m.Matches q p := by
  cases m with
  | cauchy | dogleg => exact Eq.symm h
  | steepestDescent | newtonCG => trivial
  | trustRegion => exact ⟨h.working.symm, h.sub.symm⟩
  | backtracking | wolfe | halving | scripted | other => exact Eq.symm h

variable [Space R V] [LinearAction R V M]

/-- The memory that a run starts from: of a trust-region method, with the working radius of its
settings. -/
def rewound : Method R V M → Memory R V M → Memory R V M
  | trustRegion _ s, memory => .trust s.radius (memory.trusted s.radius).sub
  | _, memory => memory

/-- The preparation of a run makes the same of a memory and of the one that a run starts from. -/
theorem run_init_rewound {op : Operator R V M σ} {m : Method R V M}
    {solver : Solver R V M σ (Memory R V M)} (h : m.solver op = some solver)
    (memory : Memory R V M) (state : State R V M) (session : Session R σ) :
    solver.init.run ⟨memory, state, session⟩ =
      solver.init.run ⟨m.rewound memory, state, session⟩ := by
  cases m with
  | trustRegion sub s =>
    cases h
    have hinit := TrustRegion.run_init op s state (memory.trusted s.radius).working
      (memory.trusted s.radius).sub session
    exact congrArg (fun r => (r.1, (⟨.trust r.2.memory.working r.2.memory.sub, state,
      r.2.session⟩ : Stage R V M σ (Memory R V M)))) hinit
  | _ => rfl

/-- Memories from which runs start the same lead to the same runs. -/
theorem same_of_matches {op : Operator R V M σ} {m : Method R V M}
    {solver : Solver R V M σ (Memory R V M)} (h : m.solver op = some solver)
    {memory memory' : Memory R V M} (hmatches : m.Matches (m.rewound memory) memory')
    (session : Session R σ) (config : Config R V) (observers : List (ObserverEntry R V M)) :
    Executor.Same solver (.ready memory session config observers)
      (.ready memory' session config observers) := by
  have hrewound : Executor.Same solver (.ready memory session config observers)
      (.ready (m.rewound memory) session config observers) :=
    Executor.same_of_init (m := m.rewound memory) rfl (run_init_rewound h memory)
  refine hrewound.trans (Executor.same_of_alike (alike h) (fun _ _ => Matches.symm) ?_)
  exact ⟨rfl, rfl, rfl, ⟨hmatches, rfl, rfl⟩, rfl⟩

end Method

end Descent
