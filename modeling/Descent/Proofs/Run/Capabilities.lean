import Descent.Machine
import Descent.Proofs.Operator.Problem
import Descent.Proofs.Operator.Refusals
import Descent.Proofs.Run.Faithful
import Descent.Proofs.Solver.Refusals

/-!
# What is checked when a run is composed

A method that minimises is refused an operator that lacks what it requires, and told what that is.
An operator that it is not refused never lacks anything afterwards: a run that fails for a missing
capability fails so because a function of the operator says so (`Executor.run_furnished`).

Every way in which a run reaches the operator asks for a capability that the method requires, the
runs of the components included; so no fault of a run that is for a missing capability has another
source than those functions.
-/

namespace Descent

open Act (Raises)

namespace Fault

variable {R : Type} {f : Fault R}

/-- No ordinary fault is for a missing capability. -/
theorem Ordinary.kind_ne (h : f.Ordinary) : f.kind ≠ "CapabilityError" := by
  unfold kind
  split <;> first | exact h.elim | decide

/-- No interrupt is. -/
theorem kind_ne_of_isInterrupt (h : f.isInterrupt = true) : f.kind ≠ "CapabilityError" := by
  cases f with
  | raised kind message =>
    intro hk
    have hkind : kind = "CapabilityError" := hk
    have hcontains : interruptKinds.contains kind = true := h
    rw [hkind] at hcontains
    revert hcontains
    decide
  | exhausted => simp [kind]
  | _ => cases h

end Fault

namespace Executor

variable {R σ : Type} [Scalar R] {op : Operator R (Tensor R) (Curvature R) σ}
  {m : Method R (Tensor R) (Curvature R)} {has : Capability → Prop} {raises : Fault R → Prop}
  {solver : Solver R (Tensor R) (Curvature R) σ (Memory R (Tensor R) (Curvature R))}

/-- **What is checked when a run is composed suffices.**  A run of a method that minimises on an
operator that it was not refused fails for a missing capability only if a function of the operator
raises that fault; and the capabilities for which an operator is refused are those that the method
requires and the operator has no function for, each named once. -/
theorem run_furnished (hm : m.Descends) (hop : op.Furnished has raises)
    (hsolver : m.solver op = some solver) :
    (check op solver.name solver.requires = .ok () →
      ∀ memory session config observers f e,
        (run solver).run (ready memory session config observers) = (.error f, e) →
          f.kind = "CapabilityError" → raises f) ∧
    ∀ f, check op solver.name solver.requires = .error f →
      ∃ missing : List Capability,
        f = .missingCapabilities (.text solver.name) (missing.map Capability.label) ∧
          missing ≠ [] ∧ missing.Nodup ∧ ∀ c, c ∈ missing ↔ c ∈ solver.requires ∧ ¬ has c := by
  constructor
  · intro hcheck memory session config observers f e hrun
    -- an ordinary fault is not of this kind, so one that is comes from the functions
    let p : Fault R → Prop := fun f => f.kind = "CapabilityError" → raises f
    have hp : ∀ f : Fault R, f.Ordinary → p f := fun f hf hk => absurd hk hf.kind_ne
    have hrefuses : op.Refuses p := hop.refuses hp fun f hf _ => hf
    have hdescent : p .notDescent := fun hk => by simp [Fault.kind] at hk
    have hexhausted : p .exhausted := fun hk => by simp [Fault.kind] at hk
    have hobs : ∀ entry ∈ observers, entry.observer.InterruptsIn p :=
      fun _ _ _ _ g _ hg hk => absurd hk (Fault.kind_ne_of_isInterrupt hg)
    exact hm.fault_of_run hp (Tensor.refuses hp) hrefuses hsolver hdescent hexhausted
      (provides_of_check hcheck) (e := ready memory session config observers) rfl hobs hrun
  · intro f hf
    -- a solver that required nothing would refuse nothing
    have hrequires : solver.requires ≠ [] := by
      cases hm <;> cases hsolver <;> exact nofun
    rw [check_eq, if_neg hrequires] at hf
    split at hf
    · cases hf
    · next hmissing =>
      cases hf
      refine ⟨op.missing solver.requires, rfl, hmissing, Operator.nodup_missing, fun c => ?_⟩
      rw [Operator.mem_missing, ← hop.provides_eq c, Bool.not_eq_true]

/-- A bowl whose gradient says that it is out of reach. -/
def steepBowl : Operator Float (Tensor Float) (Curvature Float) Unit :=
  { bowl with gradient := some fun _ => throw (.raised "CapabilityError" "out of reach") }

/-- Steepest descent down it. -/
def steepSolver : Solver Float (Tensor Float) (Curvature Float) Unit
    (Memory Float (Tensor Float) (Curvature Float)) :=
  (SteepestDescent.algorithm steepBowl (Backtracking.default.lineSearch steepBowl)
    relativeTolerance).toSolver

/-- A problem that is given its cost only. -/
def plainProblem : Problem Float Unit where
  cost x := Act.lift (.ok (.real (0.5 * Tensor.inner x.entries x.entries)))

/-- Steepest descent is not refused the bowl, and the run fails with what the gradient raises; the
problem is refused to Newton's method for want of the gradient and the Hessian. -/
theorem run_furnished_bowl :
    (∃ e, (run steepSolver).run (ready .plain ⟨{}, (), [], false, 0.0⟩
        { param := some (.vector .numpy [2.0]) } []) =
          (.error (.raised "CapabilityError" "out of reach"), e)) ∧
      Raised steepBowl.cost steepBowl.gradient steepBowl.hessian
        (.raised "CapabilityError" "out of reach") ∧
      ∃ missing : List Capability,
        check plainProblem.operator "Newton-CG" [.cost, .gradient, .hessian] =
          .error (.missingCapabilities (.text "Newton-CG") (missing.map Capability.label)) ∧
        ∀ c, c ∈ missing ↔ c ≠ .cost := by
  have hrun : ∃ e, (run steepSolver).run (ready .plain ⟨{}, (), [], false, 0.0⟩
      { param := some (.vector .numpy [2.0]) } []) =
        (.error (.raised "CapabilityError" "out of reach"), e) :=
    ⟨_, run_of_drive_eq_error rfl rfl rfl rfl⟩
  obtain ⟨e, he⟩ := hrun
  let line : Method Float (Tensor Float) (Curvature Float) := .backtracking Backtracking.default
  have hfurnished : steepBowl.Furnished (fun c => steepBowl.offers c = true)
      (Raised steepBowl.cost steepBowl.gradient steepBowl.hessian) := .methods rfl
  have hsolver : (line.steepestDescent relativeTolerance).solver steepBowl = some steepSolver := rfl
  have haccepted := (run_furnished (.steepestDescent line _) hfurnished hsolver).1
  refine ⟨⟨e, he⟩, haccepted rfl _ _ _ _ _ e he rfl, ?_⟩
  have hrefused := (run_furnished
    (.newtonCG line ⟨relativeTolerance, NewtonCG.defaultTolCost, .value (.int 0)⟩)
    (.problem plainProblem) rfl).2
  obtain ⟨missing, hmissing, -, -, hiff⟩ := hrefused (.missingCapabilities (.text "Newton-CG")
    ["gradient", "hessian"]) rfl
  refine ⟨missing, hmissing ▸ rfl, fun c => (hiff c).trans ?_⟩
  -- the problem has a cost only
  cases c with
  | cost => exact iff_of_false (fun h => h.2 trivial) fun h => h rfl
  | gradient => exact iff_of_true ⟨by decide, by simp [Problem.Serves, plainProblem]⟩ (by decide)
  | hessian => exact iff_of_true ⟨by decide, by simp [Problem.Serves, plainProblem]⟩ (by decide)

end Executor

end Descent
