import Descent.Proofs.Run.Alike
import Descent.Proofs.Run.Faults
import Descent.Proofs.Solver.Abstains
import Descent.Proofs.State.Merge
import Mathlib.Data.List.Basic
import Mathlib.Order.Bounds.Basic

/-!
# The meaning of a run

`Solver.recorded` is a solver that notes each of its calls: the state it was given and what it
answered.  It does what the solver does (`Solver.recorded_alike`), so a run of it has the outcome
of a run of the solver and leaves the list of the calls that were made.

An `Account` is what is told of a run of a solver that does not assign to the state: the settings,
what the solver answered before the first iteration, and its answers in each iteration.  It
determines the state after every iteration (`Account.stateAt`), the verdict on it
(`Account.verdictAt`), the calls of the solver (`Account.consultations`) and how the run ends
(`Account.Concludes`): at once if the opening delta has a final reason, else at the least iteration
whose verdict is final, else at the ceiling.  That every run in which nothing is refused has an
account is proved in `Descent.Proofs.Run.Accounted`.
-/

namespace Descent

variable {R V M σ μ α : Type} [Scalar R]

/-! ### The calls of a solver -/

/-- A call of a solver: the state it was given and its answer. -/
inductive Consultation (R V M : Type) [Scalar R] where
  | init (state : State R V M) (answer : Except (Fault R) (Option (Delta R V M)))
  | next (state : State R V M) (answer : Except (Fault R) (Option (Delta R V M)))
  | terminate (state : State R V M) (answer : Except (Fault R) Reason)

namespace Solver

/-- A step after which a note is added to those made before. -/
def noting (note : State R V M → Except (Fault R) α → Consultation R V M)
    (a : Act R (Stage R V M σ μ) α) :
    Act R (Stage R V M σ (μ × List (Consultation R V M))) α :=
  Act.of fun t =>
    let (r, u) := a.run ⟨t.memory.1, t.state, t.session⟩
    (r, ⟨(u.memory, t.memory.2 ++ [note t.state r]), u.state, u.session⟩)

/-- The solver, noting its calls. -/
def recorded (solver : Solver R V M σ μ) : Solver R V M σ (μ × List (Consultation R V M)) where
  name := solver.name
  requires := solver.requires
  init := noting .init solver.init
  next := noting .next solver.next
  terminate := noting .terminate solver.terminate

variable {note : State R V M → Except (Fault R) α → Consultation R V M}
  {a : Act R (Stage R V M σ μ) α}

theorem noting_alike :
    Act.Related (Stage.Alike fun (p : μ × List (Consultation R V M)) m => p.1 = m) Eq
      (noting note a) a := by
  intro t u h
  have ht : (⟨t.memory.1, t.state, t.session⟩ : Stage R V M σ μ) = u := by
    rw [h.memory, h.state, h.session]
  subst ht
  exact ⟨⟨rfl, rfl, rfl⟩, .refl _⟩

/-- Noting its calls does not change what a solver does. -/
theorem recorded_alike (solver : Solver R V M σ μ) :
    Alike (fun (p : μ × List (Consultation R V M)) m => p.1 = m) solver.recorded solver where
  name := rfl
  init := noting_alike
  next := noting_alike
  terminate := noting_alike

/-- What a noted step leaves and answers is what the step does, and its note is the last one. -/
theorem noting_eq {t u : Stage R V M σ (μ × List (Consultation R V M))}
    {r : Except (Fault R) α} (h : (noting note a).run t = (r, u)) :
    u.memory.2 = t.memory.2 ++ [note t.state r] := by
  cases h
  rfl

theorem keeps_state_noting (h : Act.Keeps Stage.state a) :
    Act.Keeps Stage.state (noting note a) :=
  fun t => h ⟨t.memory.1, t.state, t.session⟩

theorem Abstains.recorded {solver : Solver R V M σ μ} (h : solver.Abstains) :
    solver.recorded.Abstains where
  init := keeps_state_noting h.init
  next := keeps_state_noting h.next
  terminate := keeps_state_noting h.terminate

theorem faultsIn_noting {p : Fault R → Prop} (h : Act.FaultsIn p a) :
    Act.FaultsIn p (noting note a) := by
  intro t f u hf
  have hr : (a.run ⟨t.memory.1, t.state, t.session⟩).1 = .error f := congrArg Prod.fst hf
  exact h _ f _ (Prod.ext hr rfl)

theorem FaultsIn.recorded {p : Fault R → Prop} {solver : Solver R V M σ μ}
    (h : solver.FaultsIn p) : solver.recorded.FaultsIn p where
  init := faultsIn_noting h.init
  next := faultsIn_noting h.next
  terminate := faultsIn_noting h.terminate

end Solver

/-! ### Accounts -/

/-- An iteration as the solver answered it: the delta, and where it was asked, whether it would
stop. -/
structure Turn (R V M : Type) where
  delta : Delta R V M
  answer : Reason := .notTerminated

namespace Turn

/-- The final reason of the delta, if it has one; the solver is not asked then. -/
def forced (turn : Turn R V M) : Option Reason := turn.delta.termination.filter Reason.isTerminal

/-- The state after an iteration: its delta is merged and the counter is advanced. -/
def apply (s : State R V M) (turn : Turn R V M) : State R V M :=
  s.after [.merge turn.delta, .advance]

/-- The verdict on an iteration that led to a state. -/
def verdict (turn : Turn R V M) (s : State R V M) : Reason :=
  match turn.forced with
  | some reason => reason
  | none =>
    if turn.answer.isTerminal then turn.answer
    else
      match s.targetReached with
      | .ok true => .targetCostReached
      | _ => .notTerminated

/-- The calls of the solver in an iteration that starts in a state. -/
def consultations (s : State R V M) (turn : Turn R V M) : List (Consultation R V M) :=
  .next s (.ok (some turn.delta)) ::
    if turn.forced.isNone then [.terminate (turn.apply s) (.ok turn.answer)] else []

end Turn

/-- The settings of a run and the answers of its solver. -/
structure Account (R V M : Type) [Scalar R] where
  config : Config R V
  /-- What the solver answered before the first iteration. -/
  opening : Option (Delta R V M)
  /-- What it answered in each iteration. -/
  turns : List (Turn R V M) := []

namespace Account

/-- The state in which the run begins. -/
def begun (a : Account R V M) : State R V M :=
  { param := a.config.param, maxIters := a.config.maxIters, targetCost := a.config.targetCost }

/-- The state before the first iteration: the opening delta is merged. -/
def opened (a : Account R V M) : State R V M := a.begun.after (a.opening.map Change.merge).toList

/-- The state after `k` iterations: the opening delta and the first `k` deltas are merged, and the
counter was advanced after each of these. -/
def stateAt (a : Account R V M) (k : Nat) : State R V M :=
  (a.turns.take k).foldl Turn.apply a.opened

/-- The verdict on iteration `k`, the first one being `1`. -/
def verdictAt (a : Account R V M) : Nat → Reason
  | 0 => .notTerminated
  | k + 1 =>
    match a.turns[k]? with
    | some turn => turn.verdict (a.stateAt (k + 1))
    | none => .notTerminated

/-- The calls of the solver: `init` once, and then those of the iterations one after the other. -/
def consultations (a : Account R V M) : List (Consultation R V M) :=
  .init a.begun (.ok a.opening) ::
    a.turns.zipIdx.flatMap fun p => p.1.consultations (a.stateAt p.2)

/-- The final reason of the opening delta, if it has one. -/
def forced (a : Account R V M) : Option Reason :=
  a.opening.bind fun d => d.termination.filter Reason.isTerminal

/-- How a run ends.  An opening delta with a final reason ends it before any iteration.  Otherwise
it ends at the least iteration up to the ceiling whose verdict is final, with that verdict; and at
the ceiling if there is none. -/
def Concludes (a : Account R V M) (ceiling : Int) (reason : Reason) : Prop :=
  match a.forced with
  | some r => a.turns = [] ∧ reason = r
  | none =>
    let final : Set Nat := { k | 1 ≤ k ∧ (k : Int) ≤ ceiling ∧ (a.verdictAt k).isTerminal }
    (IsLeast final a.turns.length ∧ reason = a.verdictAt a.turns.length) ∨
      (final = ∅ ∧ (a.turns.length : Int) = ceiling ∧ reason = .maxItersReached)

/-- The account with one more iteration. -/
def add (a : Account R V M) (turn : Turn R V M) : Account R V M :=
  { a with turns := a.turns ++ [turn] }

theorem isTerminal_of_forced {a : Account R V M} {r : Reason} (h : a.forced = some r) :
    r.isTerminal = true := by
  unfold forced at h
  rw [Option.bind_eq_some_iff] at h
  obtain ⟨d, -, hd⟩ := h
  exact (Option.filter_eq_some_iff.mp hd).2

/-- Before the first iteration no reason is recorded, and the counter is at zero. -/
theorem standing_opened (a : Account R V M) :
    a.opened.standing =
      ⟨.int 0, a.config.maxIters, a.config.targetCost, .notTerminated, none⟩ := by
  have hbegun : a.begun.standing =
      ⟨.int 0, a.config.maxIters, a.config.targetCost, .notTerminated, none⟩ := rfl
  unfold opened
  cases a.opening with
  | none => exact hbegun
  | some d => exact (a.begun.merge_standing d).trans hbegun

/-! ### One more iteration -/

variable {a : Account R V M} {turn : Turn R V M} {k : Nat}

@[simp]
theorem begun_add : (a.add turn).begun = a.begun := rfl

@[simp]
theorem opening_add : (a.add turn).opening = a.opening := rfl

@[simp]
theorem length_add : (a.add turn).turns.length = a.turns.length + 1 := List.length_append

theorem stateAt_add (h : k ≤ a.turns.length) : (a.add turn).stateAt k = a.stateAt k := by
  unfold stateAt add
  rw [List.take_append_of_le_length h]
  rfl

theorem stateAt_add_last :
    (a.add turn).stateAt (a.turns.length + 1) = turn.apply (a.stateAt a.turns.length) := by
  unfold stateAt add
  rw [List.take_of_length_le (by simp), List.take_of_length_le (by simp), List.foldl_append]
  rfl

theorem verdictAt_add (h : k ≤ a.turns.length) : (a.add turn).verdictAt k = a.verdictAt k := by
  cases k with
  | zero => rfl
  | succ k =>
    have hturn : (a.add turn).turns[k]? = a.turns[k]? := List.getElem?_append_left (by omega)
    rw [verdictAt, hturn, stateAt_add h, verdictAt]

theorem verdictAt_add_last :
    (a.add turn).verdictAt (a.turns.length + 1) =
      turn.verdict (turn.apply (a.stateAt a.turns.length)) := by
  have hturn : (a.add turn).turns[a.turns.length]? = some turn := List.getElem?_concat_length
  rw [verdictAt, hturn, stateAt_add_last]

theorem consultations_add :
    (a.add turn).consultations =
      a.consultations ++ turn.consultations (a.stateAt a.turns.length) := by
  -- the turns so far start in states that one more turn does not change
  have hstate : ∀ p ∈ a.turns.zipIdx,
      p.1.consultations ((a.add turn).stateAt p.2) = p.1.consultations (a.stateAt p.2) := by
    intro p hp
    rw [stateAt_add (Nat.le_of_lt (List.mem_zipIdx' hp).1)]
  have hturns : (a.add turn).turns = a.turns ++ [turn] := rfl
  have hlast : (a.add turn).stateAt a.turns.length = a.stateAt a.turns.length :=
    stateAt_add (Nat.le_refl _)
  unfold consultations
  rw [hturns, List.zipIdx_append, List.flatMap_append, List.flatMap_congr hstate]
  simp [hlast]

end Account

end Descent
