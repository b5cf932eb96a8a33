import Descent.Method.Basic
import Descent.Proofs.Act.Keeps

/-!
# Solvers that keep to their contract

A solver abstains if none of its steps assigns to the state.  What an algorithm makes does
(`Algorithm.abstains_toSolver`), also where it keeps its memory within another one
(`Solver.Abstains.widen`).
-/

namespace Descent

variable {R V M σ μ ν α : Type} [Scalar R]

/-- None of the solver's steps assigns to the state. -/
structure Solver.Abstains (solver : Solver R V M σ μ) : Prop where
  init : Act.Keeps Stage.state solver.init
  next : Act.Keeps Stage.state solver.next
  terminate : Act.Keeps Stage.state solver.terminate

/-- A step that is given the state leaves it as it is. -/
theorem Algorithm.keeps_state_onStage (step : State R V M → Act R (Bench R σ μ) α) :
    Act.Keeps Stage.state (onStage step) :=
  fun _ => rfl

/-- What a step that is given the state answers on a bench, it answers on a stage. -/
theorem Algorithm.run_onStage (step : State R V M → Act R (Bench R σ μ) α)
    {t : Stage R V M σ μ} {b : Bench R σ μ} {r : Except (Fault R) α}
    (h : (step t.state).run ⟨t.memory, t.session⟩ = (r, b)) :
    (onStage step).run t = (r, ⟨b.memory, t.state, b.session⟩) := by
  unfold onStage
  rw [Act.run_of]
  dsimp only
  rw [h]

/-- Only so does it answer on a stage. -/
theorem Algorithm.exists_of_onStage {step : State R V M → Act R (Bench R σ μ) α}
    {t t' : Stage R V M σ μ} {r : Except (Fault R) α} (h : (onStage step).run t = (r, t')) :
    ∃ b, (step t.state).run ⟨t.memory, t.session⟩ = (r, b) := by
  rcases hb : (step t.state).run ⟨t.memory, t.session⟩ with ⟨r', b⟩
  rw [run_onStage step hb] at h
  cases h
  exact ⟨b, rfl⟩

theorem Algorithm.abstains_toSolver (a : Algorithm R V M σ μ) : a.toSolver.Abstains where
  init := keeps_state_onStage a.init
  next := keeps_state_onStage _
  terminate := keeps_state_onStage a.terminate

theorem Solver.Abstains.widen {get : ν → μ} {put : μ → ν} {solver : Solver R V M σ μ}
    (h : solver.Abstains) : (Method.widen get put solver).Abstains where
  init t := h.init ⟨get t.memory, t.state, t.session⟩
  next t := h.next ⟨get t.memory, t.state, t.session⟩
  terminate t := h.terminate ⟨get t.memory, t.state, t.session⟩

/-! ### Memories within others -/

section

variable {t : Stage R V M σ ν} {b : Bench R σ μ}

/-- What a step of an algorithm answers on a bench, it answers as a solver that keeps its memory in
another one. -/
theorem Method.run_within_onStage (get : ν → μ) (put : μ → ν)
    (step : State R V M → Act R (Bench R σ μ) α) {r : Except (Fault R) α}
    (h : (step t.state).run ⟨get t.memory, t.session⟩ = (r, b)) :
    (Stage.within get (fun m _ => put m) (Algorithm.onStage step)).run t =
      (r, ⟨put b.memory, t.state, b.session⟩) := by
  unfold Stage.within
  rw [Act.run_zoom, Algorithm.run_onStage step h]

/-- All that such a solver does is what the algorithm's step does on a bench with its part. -/
theorem Method.within_onStage_eq (get : ν → μ) (put : μ → ν)
    (step : State R V M → Act R (Bench R σ μ) α) {r : Except (Fault R) α}
    {t' : Stage R V M σ ν} :
    (Stage.within get (fun m _ => put m) (Algorithm.onStage step)).run t = (r, t') ↔
      ∃ b, (step t.state).run ⟨get t.memory, t.session⟩ = (r, b) ∧
        t' = ⟨put b.memory, t.state, b.session⟩ := by
  rcases hrun : (step t.state).run ⟨get t.memory, t.session⟩ with ⟨r', b⟩
  rw [run_within_onStage get put step hrun]
  constructor
  · intro h
    cases h
    exact ⟨b, rfl, rfl⟩
  · rintro ⟨b, ⟨⟩, rfl⟩
    rfl

theorem Method.run_next_widen {a : Algorithm R V M σ μ} {get : ν → μ} {put : μ → ν}
    {d : Delta R V M} (h : (a.next t.state).run ⟨get t.memory, t.session⟩ = (.ok d, b)) :
    (widen get put a.toSolver).next.run t = (.ok (some d), ⟨put b.memory, t.state, b.session⟩) :=
  run_within_onStage get put (fun s => some <$> a.next s) (Act.run_bind_of_ok h)

end

/-- The solver does not call the operator to decide whether to stop. -/
def Solver.Decides (solver : Solver R V M σ μ) : Prop :=
  Act.Keeps Stage.session solver.terminate

end Descent
