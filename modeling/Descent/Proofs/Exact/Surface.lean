import Descent.Proofs.Exact.Space
import Descent.Proofs.LineSearch.Faithful
import Descent.Proofs.State.Faithful

/-!
# Surfaces

A `Surface` is a real objective on Euclidean space with the vector that an operator gives for its
gradient and the symmetric matrix that it gives for its Hessian at each point.  Along a line the
objective and the slope are real functions of the step length (`Surface.profile`), and what a search
meets along the line are their values (`Surface.yields_cost`, `Surface.yields_gradient`).  A state
that is faithful to the surface stands at one of its points (`Surface.placed_of_faithful`).
-/

open scoped RealInnerProductSpace

namespace Descent

open Act (Yields)
open Exact

/-- A real objective with the gradient and the symmetric Hessian that are given for it at each
point.  They need not be its derivatives. -/
structure Surface (n : ℕ) where
  value : Vec n → ℝ
  gradient : Vec n → Vec n
  hessian : Vec n → Mat n
  symmetric : ∀ x, (hessian x).IsSymm

/-- A real function of the step length with the slope that is given for it. -/
structure Profile where
  value : ℝ → ℝ
  slope : ℝ → ℝ

namespace Surface

variable {n : ℕ} (f : Surface n) (x d : Vec n) (α : ℝ)

/-- The surface as the answers of a deterministic operator. -/
noncomputable def landscape : Landscape Exact (Vec n) (Mat n) where
  cost x := .ok (.real (real (f.value x)))
  gradient x := .ok (some (f.gradient x))
  hessian x := .ok (some (f.hessian x))

/-- The operator that answers as the surface says. -/
noncomputable def operator : Operator Exact (Vec n) (Mat n) Unit where
  label := "Surface"
  cost := some fun x => Act.lift (.ok (.real (real (f.value x))))
  gradient := some fun x => Act.lift (.ok (some (f.gradient x)))
  hessian := some fun x => Act.lift (.ok (some (f.hessian x)))

theorem follows_operator : f.operator.Follows f.landscape := by
  constructor <;> intro g hg x w <;> cases hg <;> rfl

/-- The surface along the line from a point in a direction. -/
noncomputable def profile : Profile where
  value α := f.value (x + α • d)
  slope α := incline (f.gradient (x + α • d)) d

@[simp]
theorem profile_value_zero : (f.profile x d).value 0 = f.value x := by
  unfold profile
  dsimp only
  rw [zero_smul, add_zero]

@[simp]
theorem profile_slope_zero : (f.profile x d).slope 0 = ⟪f.gradient x, d⟫ := by
  unfold profile incline
  dsimp only
  rw [zero_smul, add_zero]

/-- The slope as a search measures it at the origin of the line. -/
theorem innerWith_gradient : Space.innerWith (some (f.gradient x)) (some (f.gradient x)) d =
    .ok (real ((f.profile x d).slope 0)) := by
  rw [profile_slope_zero]
  rfl

theorem point_real : Probe.point (some x) d (real α) = .ok (x + α • d) := by
  unfold Probe.point
  rw [scale_real]
  rfl

/-! ### Evaluations along a line -/

variable {f x d α} {σ : Type} {op : Operator Exact (Vec n) (Mat n) σ}

/-- The cost at a step length is the objective there. -/
theorem yields_cost (hop : op.Follows f.landscape) :
    Yields (Probe.Faithful f.landscape (some x) d) (Probe.cost op (some x) d (real α))
      (fun c => c = real ((f.profile x d).value α)) := by
  refine (Probe.yields_cost hop (ahead_real α)).imp fun c hc => ?_
  rw [point_real] at hc
  cases hc
  rfl

/-- The gradient at a step length is the one that is given there. -/
theorem yields_gradient (hop : op.Follows f.landscape) :
    Yields (Probe.Faithful f.landscape (some x) d) (Probe.gradient op (some x) d (real α))
      (fun g => g = some (f.gradient (x + α • d))) := by
  refine (Probe.yields_gradient hop (ahead_real α)).imp fun g hg => ?_
  rw [point_real] at hg
  cases hg
  rfl

/-! ### States -/

/-- What a state says of the surface at the point where it stands. -/
structure Placed (f : Surface n) (x : Vec n) (s : State Exact (Vec n) (Mat n)) : Prop where
  param : s.param = some x
  cost : s.cost = .real (real (f.value x))
  grad : s.grad = some (f.gradient x)

variable {s : State Exact (Vec n) (Mat n)}

/-- A state that is faithful to the surface stands at a point of it. -/
theorem placed_of_faithful (h : s.Faithful f.landscape) : ∃ x, f.Placed x s := by
  obtain ⟨c, hc, hcost⟩ := h.cost
  obtain ⟨g, hg, hgrad⟩ := h.grad
  cases hx : s.param with
  | none =>
    rw [State.point, hx] at hc
    cases hc
  | some x =>
    rw [State.point, hx] at hc hg
    cases hc
    cases hg
    exact ⟨x, hx, hcost, hgrad _ rfl⟩

/-- At the point of such a state a search evaluates nothing. -/
theorem Placed.run_current (h : f.Placed x s) (session : Session Exact σ) :
    (LineSearch.current op s).run session =
      (.ok (real (f.value x), some (f.gradient x)), session) := by
  unfold LineSearch.current
  rw [h.cost, h.grad]
  rfl

theorem Placed.yields_current (h : f.Placed x s) :
    Yields (fun _ => True) (LineSearch.current op s)
      (fun p => p = (real (f.value x), some (f.gradient x))) := by
  intro session p session' _ hrun
  rw [h.run_current] at hrun
  cases hrun
  exact ⟨rfl, ⟨⟩⟩

end Surface

end Descent
