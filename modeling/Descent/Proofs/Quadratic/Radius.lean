import Descent.Proofs.Exact.Scalar
import Descent.Proofs.Quadratic.Iteration
import Descent.Proofs.Run.Maintained
import Descent.Proofs.Solver.Progress
import Descent.Proofs.Solver.Stops

/-!
# The working radius

A radius is legal if it is a positive number not above the greatest one (`TrustRegion.Legal`).  What
an iteration makes of a legal radius is a quarter of it, itself or its double up to the bound, as
the ratio and the length of the step have it (`TrustRegion.adjust_cases`), and so is legal again.
The test of the ratio that shrinks the radius is not the one that decides on the step.  But the
threshold for taking it lies below a quarter, so with every step that is not taken the radius
shrinks (`TrustRegion.adjust_of_not_lt`).

The method establishes a legal radius when it prepares a run, and holds it up in each of its steps,
also in one that fails (`TrustRegion.maintains_legal`).  An iteration that completes hands the
radius to the subproblem solver, which keeps it with the model, and tells of the radius that it sets
(`TrustRegion.adjusted_of_iterate`).
-/

namespace Descent

open Act Exact

namespace TrustRegion

variable {settings : Settings Exact} {m r : ℝ}

/-- The value is a positive number not above `m`. -/
def Legal (m : ℝ) (a : Exact) : Prop := ∃ r : ℝ, a = real r ∧ 0 < r ∧ r ≤ m

/-- The first radius is legal. -/
theorem Settings.Admitted.legal (h : settings.Admitted) (hm : settings.maxRadius = real m) :
    Legal m settings.radius := by
  obtain ⟨r, hr⟩ := exists_real h.finite
  have hpos := h.radius
  have hbound := h.bound
  rw [hr, zero_lt_real] at hpos
  rw [hr, hm, real_lt, not_lt] at hbound
  exact ⟨r, hr, hpos, hbound⟩

/-! ### Adjusting the radius -/

/-- What becomes of a radius, as the ratio and the length of the step have it. -/
theorem adjust_cases (hm : settings.maxRadius = real m) (r : ℝ) (ratio length : Exact) :
    (ratio < (0.25 : Exact) ∧ adjust settings (real r) ratio length = real (r / 4)) ∨
      ¬ ratio < (0.25 : Exact) ∧
        (adjust settings (real r) ratio length = real r ∨
          (0.75 : Exact) < ratio ∧ real (9 / 10 * r) ≤ length ∧
            adjust settings (real r) ratio length = real (min (2 * r) m)) := by
  -- the three factors, as numbers
  have hquarter : (0.25 : Exact) * real r = real (r / 4) := by
    rw [ofScientific_eq, real_mul]
    norm_num
    ring_nf
  have hmost : (0.9 : Exact) * real r = real (9 / 10 * r) := by
    rw [ofScientific_eq, real_mul]
    norm_num
  have htwice : (2.0 : Exact) * real r = real (2 * r) := by
    rw [ofScientific_eq, real_mul]
    norm_num
  unfold adjust
  by_cases hbad : ratio < (0.25 : Exact)
  · exact .inl ⟨hbad, by rw [if_pos hbad, hquarter]⟩
  · rw [if_neg hbad, hmost, htwice, hm, least_real]
    by_cases hgood : (0.75 : Exact) < ratio ∧ real (9 / 10 * r) ≤ length
    · rw [if_pos hgood]
      exact .inr ⟨hbad, .inr ⟨hgood.1, hgood.2, rfl⟩⟩
    · rw [if_neg hgood]
      exact .inr ⟨hbad, .inl rfl⟩

/-- A legal radius stays legal. -/
theorem legal_adjust (hm : settings.maxRadius = real m) {a : Exact} (ha : Legal m a)
    (ratio length : Exact) : Legal m (adjust settings a ratio length) := by
  obtain ⟨r, rfl, hpos, hle⟩ := ha
  rcases adjust_cases hm r ratio length with ⟨-, h⟩ | ⟨-, h | ⟨-, -, h⟩⟩
  · exact ⟨_, h, by linarith, by linarith⟩
  · exact ⟨_, h, hpos, hle⟩
  · exact ⟨_, h, lt_min (by linarith) (hpos.trans_le hle), min_le_right _ _⟩

/-- Where the ratio does not exceed the threshold for taking a step, the radius shrinks. -/
theorem adjust_of_not_lt (hsettings : settings.Admitted) (hm : settings.maxRadius = real m)
    {ρ : ℝ} (hleft : ¬ settings.eta < real ρ) (r : ℝ) (length : Exact) :
    adjust settings (real r) (real ρ) length = real (r / 4) := by
  have hknown := (OrderedScalar.known_of_lt hsettings.quarter).1
  -- the threshold lies between the ratio and a quarter
  have hbad : real ρ < (0.25 : Exact) := by
    refine OrderedScalar.lt_iff.mpr ⟨?_, fun hle => ?_⟩
    · exact OrderedScalar.le_trans (OrderedScalar.le_of_not_lt hknown rfl hleft)
        (OrderedScalar.le_of_lt hsettings.quarter)
    · exact hleft (OrderedScalar.lt_of_lt_of_le hsettings.quarter hle)
  rcases adjust_cases hm r (real ρ) length with ⟨-, h⟩ | ⟨hgood, -⟩
  · exact h
  · exact absurd hbad hgood

/-- What becomes of a radius `r` in an iteration with a step of length `l`, taken or not. -/
structure Adjusted (m r r' l : ℝ) (taken : Prop) : Prop where
  among : r' = r / 4 ∨ r' = r ∨ r' = min (2 * r) m
  shrinks : ¬ taken → r' = r / 4
  grows : r < r' → taken ∧ 9 / 10 * r ≤ l

theorem exists_adjusted (hsettings : settings.Admitted) (hm : settings.maxRadius = real m)
    (hpos : 0 < r) (hle : r ≤ m) (ρ l : ℝ) :
    ∃ r', adjust settings (real r) (real ρ) (real l) = real r' ∧ 0 < r' ∧ r' ≤ m ∧
      Adjusted m r r' l (settings.eta < real ρ) := by
  obtain ⟨r', hr', hpos', hle'⟩ := legal_adjust hm ⟨r, rfl, hpos, hle⟩ (real ρ) (real l)
  refine ⟨r', hr', hpos', hle', ?_, fun hleft => ?_, fun hgrows => ?_⟩
  · rcases adjust_cases hm r (real ρ) (real l) with ⟨-, h⟩ | ⟨-, h | ⟨-, -, h⟩⟩
    · exact .inl (real_injective (hr'.symm.trans h))
    · exact .inr (.inl (real_injective (hr'.symm.trans h)))
    · exact .inr (.inr (real_injective (hr'.symm.trans h)))
  · exact real_injective (hr'.symm.trans (adjust_of_not_lt hsettings hm hleft r (real l)))
  · rcases adjust_cases hm r (real ρ) (real l) with ⟨-, h⟩ | ⟨-, h | ⟨hgood, hlong, -⟩⟩
    · -- a quarter of a positive radius is not above it
      obtain rfl := real_injective (hr'.symm.trans h)
      linarith
    · obtain rfl := real_injective (hr'.symm.trans h)
      exact absurd hgrows (lt_irrefl _)
    · -- a ratio above three quarters exceeds the threshold
      have hquarter : (0.25 : Exact) < real ρ := by
        rw [ofScientific_eq, real_lt] at hgood ⊢
        linarith
      refine ⟨?_, real_le.mp hlong⟩
      exact OrderedScalar.lt_of_lt_of_le hsettings.quarter (OrderedScalar.le_of_lt hquarter)

/-! ### Legal in every step -/

section

variable {V M σ μ : Type} [Space Exact V] {op : Operator Exact V M σ}
  {sub : Subproblem Exact V M σ μ}

theorem leaves_init (hlegal : Legal m settings.radius) (s : State Exact V M) :
    Leaves (fun _ => True)
      (init op settings s : Act Exact (Bench Exact σ (Memory Exact μ)) (Option (Delta Exact V M)))
      fun b => Legal m b.memory.working := by
  unfold init
  refine Leaves.bind (Leaves.modify fun _ _ => hlegal) fun _ => ?_
  refine Keeps.leaves (f := fun b : Bench Exact σ (Memory Exact μ) => b.memory.working) ?_ (Legal m)
  refine Keeps.bind (fun _ => rfl) fun cost => (Keeps.lift _).bind fun _ => ?_
  refine Keeps.bind (fun _ => rfl) fun grad => (Keeps.lift _).bind fun converged => ?_
  exact (Keeps.pure _).ite (Keeps.bind (fun _ => rfl) fun hessian => Keeps.pure _)

/-- The run that the model is solved in does not have the working radius. -/
theorem keeps_working_solveModel (grad : V) :
    Keeps (fun b => b.memory.working) (solveModel op sub grad) :=
  (Keeps.lift _).bind fun _ _ => rfl

variable [LinearAction Exact V M]

theorem leaves_iterate (hm : settings.maxRadius = real m) (s : State Exact V M) (grad : V) :
    Leaves (fun b => Legal m b.memory.working) (iterate op sub settings s grad)
      fun b => Legal m b.memory.working := by
  have hkeep {α : Type} {a : Act Exact (Bench Exact σ (Memory Exact μ)) α}
      (h : Keeps (fun b => b.memory.working) a) := h.leaves (Legal m)
  unfold iterate
  -- the radius that is adjusted is the one that was read, so what is known of it has to be kept
  refine Leaves.get_bind fun b hb => ?_
  refine (hkeep fun _ => rfl).bind fun _ => (hkeep (keeps_working_solveModel grad)).bind fun p => ?_
  refine (Leaves.lift _).bind fun y => (hkeep fun _ => rfl).bind fun cost => ?_
  refine (Leaves.lift _).bind fun promised => (Leaves.lift _).bind fun ratio => ?_
  refine Leaves.bind (Leaves.modify fun _ _ => legal_adjust hm hb ratio (Space.norm p)) fun _ => ?_
  refine Leaves.ite ?_ (.pure _)
  exact (hkeep fun _ => rfl).bind fun g => (hkeep fun _ => rfl).bind fun h => .pure _

theorem leaves_next (hm : settings.maxRadius = real m) (s : State Exact V M) :
    Leaves (fun b => Legal m b.memory.working) (next op sub settings s)
      fun b => Legal m b.memory.working := by
  unfold next
  refine (Leaves.lift _).bind fun converged => (Leaves.pure _).ite ?_
  exact (Leaves.lift _).bind fun grad => leaves_iterate hm s grad

/-- Whatever the operator and the subproblem solver do, the working radius is legal from the first
step on. -/
theorem maintains_legal (hsettings : settings.Admitted) (hm : settings.maxRadius = real m) :
    (algorithm op sub settings).toSolver.Maintains fun memory => Legal m memory.working :=
  Algorithm.maintains (leaves_init (hsettings.legal hm)) (leaves_next hm) fun _ => Leaves.lift _

end

/-! ### The preparation and an iteration -/

section

variable {n : ℕ} {M σ : Type} {op : Operator Exact (Vec n) M σ} {sub : Method Exact (Vec n) M}
  {s : State Exact (Vec n) M} {g p : Vec n} {d : Delta Exact (Vec n) M}
  {b b' : Bench Exact σ (Memory Exact (Descent.Memory Exact (Vec n) M))}

variable [LinearAction Exact (Vec n) M]

/-- What a step promises is a real number, and it takes a Hessian to say so. -/
theorem exists_real_of_predicted {h : Option M} {promised : Exact}
    (hmodel : predicted g p h = .ok promised) : ∃ A x, h = some A ∧ promised = real x := by
  unfold predicted at hmodel
  obtain ⟨linear, hlinear, hmodel⟩ := bind_eq_ok.mp hmodel
  rw [dot_eq] at hlinear
  cases hlinear
  cases h with
  | none => cases hmodel
  | some A =>
    obtain ⟨curved, hcurved, hpromised⟩ := bind_eq_ok.mp hmodel
    obtain ⟨y, -, hdot⟩ := bind_eq_ok.mp hcurved
    rw [dot_eq] at hdot
    cases hdot
    cases hpromised
    rw [ofScientific_eq, real_mul, real_add, neg_real]
    exact ⟨A, _, rfl, rfl⟩

/-- From a cost that is a real number, so is the ratio, whatever the cost after is. -/
theorem exists_real_of_measured {before promised : ℝ} {after ratio : Exact}
    (h : reductionRatio (.real (real before)) after (real promised) = .ok ratio) :
    ∃ ρ, ratio = real ρ := by
  by_cases hformed : 0 < promised ∧ Scalar.isFinite after = true
  · obtain ⟨value, rfl⟩ := exists_real hformed.2
    rw [reductionRatio_real before value hformed.1] at h
    cases h
    exact ⟨_, rfl⟩
  · rw [reductionRatio_zero _ hformed] at h
    cases h
    exact ⟨_, rfl⟩

/-- The subproblem solver takes the radius and the model of the point, keeps them, and hands back a
step. -/
def Hands (op : Operator Exact (Vec n) M σ)
    (sub : Subproblem Exact (Vec n) M σ (Descent.Memory Exact (Vec n) M))
    (s : State Exact (Vec n) M) (r : ℝ)
    (b : Bench Exact σ (Memory Exact (Descent.Memory Exact (Vec n) M))) (p : Vec n) : Prop :=
  ∃ g h b₁ b₂, s.grad = some g ∧ s.hessian = some h ∧
    (prepare sub (real r) g (some h)).run b = (.ok (), b₁) ∧
    b₁.memory.sub = .region ⟨real r, some g, some h⟩ ∧
    (solveModel op sub g).run b₁ = (.ok p, b₂)

/-- Both methods that are subproblem solvers answer with the steps of a function. -/
theorem exists_stepping (hsub : sub = .cauchy ∨ sub = .dogleg) :
    ∃ name label step, sub.subproblem = Subproblem.stepping σ name label step := by
  rcases hsub with rfl | rfl
  · exact ⟨_, _, _, rfl⟩
  · exact ⟨_, _, _, rfl⟩

/-- An iteration hands the working radius to the subproblem solver, tells of the one that it sets,
and takes the step that was handed back or leaves everything as it is. -/
theorem adjusted_of_iterate (hsettings : settings.Admitted) (hm : settings.maxRadius = real m)
    (hsub : sub = .cauchy ∨ sub = .dogleg) {c : ℝ} (hcost : s.cost = .real (real c))
    (hgrad : s.grad = some g) (hworking : b.memory.working = real r) (hpos : 0 < r) (hle : r ≤ m)
    (h : (iterate op sub.subproblem settings s g).run b = (.ok d, b')) :
    ∃ x p r' ρ, s.param = some x ∧ Hands op sub.subproblem s r b p ∧
      b'.memory.working = real r' ∧ 0 < r' ∧ r' ≤ m ∧
      d.kv = told (real r') (real ρ) ∧ Adjusted m r r' ‖p‖ (settings.eta < real ρ) ∧
      (settings.eta < real ρ ∧ d.param = some (x + p) ∧ Takes op s d ∨
        ¬ settings.eta < real ρ ∧ d.Still) := by
  obtain ⟨x, p, y, cost, promised, ratio, after, htrial, hmemory, hkv, hanswer⟩ :=
    takes_or_still_of_iterate hsettings.threshold hgrad h
  obtain rfl : x + p = y := Except.ok.inj htrial.leads
  -- the ratio is a real number, so the radius is one of the three
  obtain ⟨A, promise, hhessian, rfl⟩ := exists_real_of_predicted htrial.model
  have hmeasured := htrial.measured
  rw [hcost] at hmeasured
  obtain ⟨ρ, rfl⟩ := exists_real_of_measured hmeasured
  obtain ⟨r', hr', hpos', hle', hadjusted⟩ := exists_adjusted hsettings hm hpos hle ρ ‖p‖
  have hworking' : b'.memory.working = real r' := by
    rw [hmemory, hworking]
    exact hr'
  rw [hworking'] at hkv
  have hhands : Hands op sub.subproblem s r b p := by
    obtain ⟨b₁, b₂, hprepare, hsolve, -⟩ := htrial.handed
    rw [hworking, hhessian] at hprepare
    obtain ⟨name, label, step, hstepping⟩ := exists_stepping (σ := σ) hsub
    rw [hstepping] at hprepare hsolve ⊢
    refine ⟨g, A, b₁, b₂, hgrad, hhessian, hprepare, ?_, hsolve⟩
    -- preparing leaves the model in the solver's memory
    rw [Subproblem.run_prepare hpos] at hprepare
    cases hprepare
    rfl
  exact ⟨x, p, r', ρ, htrial.point, hhands, hworking', hpos', hle', hkv, hadjusted, hanswer⟩

end

end TrustRegion

end Descent
