import Descent.Proofs.Quadratic.Dogleg
import Descent.Proofs.Run.Component

/-!
# Solving the model in a run of its own

A trust-region method has its model solved in a run of one iteration.  A subproblem solver is
sufficient if that run ends with a sufficient step (`Subproblem.Sufficient`).  The solvers that
answer with the steps of a function that solves the model are
(`Subproblem.sufficient_of_solves`), and so both methods that are subproblem solvers are.
-/

namespace Descent

open Act Exact

/-- A subproblem solver that was given a model answers with the step for it. -/
theorem Region.run_next {R V M σ : Type} [Scalar R] {name label : String}
    {step : V → M → R → Except (Fault R) (Delta R V M)} {b : Bench R σ (Region R V M)} {g : V}
    {h : M} {r : R} {d : Delta R V M} (hparts : b.memory.parts label = .ok (g, h, r))
    (hstep : step g h r = .ok d) (s : State R V M) :
    ((algorithm name label step).next s).run b = (.ok d, b) := by
  rw [run_next_of_parts hparts, hstep]

variable {n : ℕ} {σ μ : Type}

/-- The subproblem solver answers a trust-region method with sufficient steps. -/
def Subproblem.Sufficient (op : Operator Exact (Vec n) (Mat n) σ)
    (sub : Subproblem Exact (Vec n) (Mat n) σ μ) : Prop :=
  ∀ ⦃A : Mat n⦄, A.PosDef → ∀ ⦃Λ⦄, CurvatureBound A Λ →
    ∀ ⦃g : Vec n⦄, g ≠ 0 → ∀ ⦃Δ : ℝ⦄, 0 < Δ → ∀ b, ∃ p b₁ b₂,
      (TrustRegion.prepare sub (real Δ) g (some A)).run b = (.ok (), b₁) ∧
        (TrustRegion.solveModel op sub g).run b₁ = (.ok p, b₂) ∧
        decrease Λ g Δ ≤ reduction A g p

namespace Subproblem

variable {M : Type} {name label : String}
  {step : Vec n → M → Exact → Except (Fault Exact) (Delta Exact (Vec n) M)}
  {h : M} {g p : Vec n} {Δ : ℝ}

/-- The subproblem solver that answers with the steps of a function. -/
noncomputable def stepping (σ : Type) (name label : String)
    (step : Vec n → M → Exact → Except (Fault Exact) (Delta Exact (Vec n) M)) :
    Subproblem Exact (Vec n) M σ (Memory Exact (Vec n) M) :=
  Method.widenSubproblem (.ofRegion (Region.algorithm name label step))

/-- The memory of a solver that was given a model. -/
noncomputable def holding (h : M) (g : Vec n) (Δ : ℝ) : Memory Exact (Vec n) M :=
  .region ⟨real Δ, some g, some h⟩

/-- A positive radius is allowed. -/
theorem allowed_real (hΔ : 0 < Δ) : Region.Allowed (real Δ) :=
  ⟨isFinite_real, real_le_zero.not.mpr hΔ.not_ge⟩

/-- A radius that is positive is not refused. -/
theorem run_setRadius (hΔ : 0 < Δ) (m : Memory Exact (Vec n) M) :
    ((stepping σ name label step).setRadius (real Δ)).run m =
      (.ok (), .region { m.model with radius := real Δ }) := by
  show (Method.onModel (Region.setRadius (real Δ))).run m = _
  unfold Method.onModel
  rw [run_zoom, Region.run_setRadius_of_allowed (allowed_real hΔ)]

theorem run_prepare (hΔ : 0 < Δ) (b : Bench Exact σ (TrustRegion.Memory Exact _)) :
    (TrustRegion.prepare (stepping σ name label step) (real Δ) g (some h)).run b =
      (.ok (), ⟨⟨b.memory.working, holding h g Δ⟩, b.session⟩) :=
  Region.prepare_of_allowed (allowed_real hΔ) g (some h) b

/-- A solver that was given a model answers a trust-region method with the step of its function. -/
theorem solveModel_of_step {op : Operator Exact (Vec n) M σ}
    (hop : op.provides .cost = true) (name label : String) (hΔ : 0 < Δ)
    {kv : List (String × Value Exact)}
    (hstep : step g h (real Δ) = .ok { param := some p, kv := kv })
    (b : Bench Exact σ (TrustRegion.Memory Exact (Memory Exact (Vec n) M))) :
    ∃ b₁ b₂,
      (TrustRegion.prepare (stepping σ name label step) (real Δ) g (some h)).run b = (.ok (), b₁) ∧
      (TrustRegion.solveModel op (stepping σ name label step) g).run b₁ = (.ok p, b₂) := by
  obtain ⟨b₂, hsolve⟩ : ∃ b₂, (TrustRegion.solveModel op (stepping σ name label step) g).run
      ⟨⟨b.memory.working, holding h g Δ⟩, b.session⟩ = (.ok p, b₂) :=
    Region.solveModel_of_step rfl isNaN_real rfl hop hstep
  exact ⟨_, b₂, run_prepare hΔ b, hsolve⟩

/-- A solver whose steps solve the model is sufficient. -/
theorem sufficient_of_solves {op : Operator Exact (Vec n) (Mat n) σ}
    (hop : op.provides .cost = true)
    {step : Vec n → Mat n → Exact → Except (Fault Exact) (Delta Exact (Vec n) (Mat n))}
    (h : SolvesModel step) :
    (stepping σ name label step).Sufficient op := by
  intro A hA Λ hΛ g hg Δ hΔ b
  obtain ⟨p, kv, hstep, hdecrease⟩ := h hA hΛ hg hΔ
  obtain ⟨b₁, b₂, hprepare, hsolve⟩ := solveModel_of_step hop name label hΔ hstep b
  exact ⟨p, b₁, b₂, hprepare, hsolve, hdecrease⟩

end Subproblem

/-- Both methods that are subproblem solvers are sufficient. -/
theorem Method.sufficient_subproblem {op : Operator Exact (Vec n) (Mat n) σ}
    (hop : op.provides .cost = true) {sub : Method Exact (Vec n) (Mat n)}
    (hsub : sub = .cauchy ∨ sub = .dogleg) : sub.subproblem.Sufficient op := by
  rcases hsub with rfl | rfl
  · exact Subproblem.sufficient_of_solves hop Cauchy.solves
  · exact Subproblem.sufficient_of_solves hop Dogleg.solves

end Descent
