import Descent.Proofs.LineSearch.Decrease
import Descent.Proofs.Run.Faithful
import Descent.Proofs.Run.Steepest

/-!
# Runs down a surface

Steepest descent moves along the negative gradient and Newton's method along the answer of its inner
solve, which the surface does not rise along either (`Method.DescendsBy.slope_nonpos`).  So an
iteration moves by the step length on which its line search settles, and the cost that it merges is
at most the one before unless this search has run out of trials (`Method.Moves`,
`Surface.moves_of_iterate`).  Over a whole run, the cost has not risen between two iterations unless
a search ran out in between (`Surface.value_le_of_reached`).

Where a search does run out, the cost may rise: on a steep parabola the step lengths that are left
lead past the bottom and up the other side (`Surface.bowl`, `Surface.Overshoots`).
-/

open scoped RealInnerProductSpace

namespace Descent

open Act (Yields bind_eq_ok)
open Exact

variable {n : ℕ} {σ : Type} {f : Surface n} {x d : Vec n} {op : Operator Exact (Vec n) (Mat n) σ}

namespace Method

/-- A method that descends by a line search. -/
inductive DescendsBy : Method Exact (Vec n) (Mat n) → Method Exact (Vec n) (Mat n) → Prop
  | steepestDescent (line : Method Exact (Vec n) (Mat n)) (tolGrad : Exact) :
    DescendsBy (.steepestDescent line tolGrad) line
  | newtonCG (line : Method Exact (Vec n) (Mat n)) (settings : NewtonCG.Settings Exact) :
    DescendsBy (.newtonCG line settings) line

/-- The direction that a method takes at a point of a surface. -/
def Heads (f : Surface n) (x d : Vec n) : Method Exact (Vec n) (Mat n) → Prop
  | .steepestDescent _ _ => d = -f.gradient x
  | .newtonCG _ settings =>
    NewtonCG.direction settings (some (f.gradient x)) (some (f.hessian x)) = .ok d
  | _ => False

/-- A move from a point of a surface: in the direction of the method, along which the surface does
not rise, by a positive step length that does not lead up unless the search for it ran out of
trials. -/
structure Moves (f : Surface n) (m line : Method Exact (Vec n) (Mat n)) (x d : Vec n) (α : ℝ) :
    Prop where
  heads : m.Heads f x d
  slope : ⟪f.gradient x, d⟫ ≤ 0
  positive : 0 < α
  descends : f.value (x + α • d) ≤ f.value x ∨ line.RunsOut (f.profile x d) α

variable {line m : Method Exact (Vec n) (Mat n)}
  {solver : Solver Exact (Vec n) (Mat n) σ (Memory Exact (Vec n) (Mat n))}

/-! ### Directions -/

theorem slope_steepest (g : Vec n) : ⟪g, -g⟫ ≤ 0 := by
  rw [inner_neg_right, neg_nonpos]
  exact real_inner_self_nonneg

/-- Whatever the limit on the passes of the inner solve, the surface does not rise along its
answer. -/
theorem slope_newton {settings : NewtonCG.Settings Exact} {A : Mat n} (hA : A.IsSymm) {g : Vec n}
    (h : NewtonCG.direction settings (some g) (some A) = .ok d) : ⟪g, d⟫ ≤ 0 := by
  unfold NewtonCG.direction at h
  obtain ⟨g', hg, h⟩ := bind_eq_ok.mp h
  cases hg
  obtain ⟨limit, -, h⟩ := bind_eq_ok.mp h
  obtain ⟨p, hp, hdescends⟩ := ConjugateGradient.direction_descends hA g limit
  cases hp.symm.trans h
  exact hdescends

theorem DescendsBy.slope_nonpos (hm : m.DescendsBy line) (h : m.Heads f x d) :
    ⟪f.gradient x, d⟫ ≤ 0 := by
  cases hm with
  | steepestDescent line tolGrad =>
    obtain rfl : d = -f.gradient x := h
    exact slope_steepest _
  | newtonCG line settings => exact slope_newton (f.symmetric x) h

/-! ### One step -/

/-- A descent along a direction leads to the point of a step length that its search settles on. -/
theorem yields_advance_of_search {R V M : Type} [Scalar R] [Space R V] {op : Operator R V M σ}
    {search : LineSearch R V M σ} {direction : V} {s : State R V M} {Q : StepLength R V → Prop}
    (h : Yields (fun _ => True) (search.search direction s) Q) :
    Yields (fun _ => True) (Descending.advance op search direction s) fun delta =>
      ∃ step y, Q step ∧ Probe.point s.param direction step.alpha = .ok y ∧
        delta.param = some y := by
  unfold Descending.advance
  refine h.bind fun step hstep => ?_
  refine (Yields.lift _).bind fun y hy => (Yields.trivial _).bind fun p _ => ?_
  refine (Yields.lift _).bind fun _ _ => (Yields.lift _).bind fun _ _ => Yields.pure ?_
  exact ⟨step, y, hstep, hy, rfl⟩

variable {s : State Exact (Vec n) (Mat n)}

/-- An iteration along a direction of the method is a move. -/
theorem DescendsBy.yields_advance (hm : m.DescendsBy line) (hline : line.Admissible)
    (hop : op.Follows f.landscape) (hs : f.Placed x s) (hheads : m.Heads f x d) :
    Yields (fun _ => True) (Descending.advance op (line.lineSearch op) d s) fun delta =>
      ∃ d α, m.Moves f line x d α ∧ delta.param = some (x + α • d) := by
  have hslope := hm.slope_nonpos hheads
  refine (yields_advance_of_search (hline.yields_search hop hs hslope)).imp fun delta hdelta => ?_
  obtain ⟨step, y, ⟨α, halpha, hpositive, hdescends⟩, hy, hparam⟩ := hdelta
  rw [hs.param, halpha, Surface.point_real] at hy
  cases hy
  exact ⟨d, α, ⟨hheads, hslope, hpositive, hdescends⟩, hparam⟩

/-- From a point of a surface the method answers with a move. -/
theorem DescendsBy.yields_next (hm : m.DescendsBy line) (hline : line.Admissible)
    (hop : op.Follows f.landscape) (hsolver : m.solver op = some solver) (hs : f.Placed x s) :
    Yields (fun t => t.state = s) solver.next fun o => ∃ delta, o = some delta ∧
      ∃ d α, m.Moves f line x d α ∧ delta.param = some (x + α • d) := by
  cases hm with
  | steepestDescent line tolGrad =>
    cases hsolver
    refine Algorithm.yields_next ?_
    show Yields _ (Bench.inSession (SteepestDescent.next op (line.lineSearch op) s)) _
    refine Bench.yields_inSession ?_
    unfold SteepestDescent.next
    rw [hs.grad]
    -- along the slope reversed
    exact (DescendsBy.steepestDescent line tolGrad).yields_advance hline hop hs (neg_eq _)
  | newtonCG line settings =>
    cases hsolver
    refine Algorithm.yields_next ?_
    show Yields _ (Bench.inSession (NewtonCG.next op (line.lineSearch op) settings s)) _
    refine Bench.yields_inSession ?_
    unfold NewtonCG.next
    refine (Session.yields_hessian hop _).bind fun hess hhess => ?_
    refine (Yields.lift _).bind fun d hd => ?_
    rw [hs.param] at hhess
    cases hhess
    rw [hs.grad] at hd
    -- along the truncated Newton direction
    exact (DescendsBy.newtonCG line settings).yields_advance hline hop hs hd

theorem Admissible.faithful (hline : line.Admissible) (hop : op.Follows f.landscape) :
    (line.lineSearch op).Faithful f.landscape := by
  cases hline with
  | backtracking hα₀ hρ hc maxIter =>
    exact Backtracking.faithful_lineSearch hop ⟨ahead_real _, ahead_real _⟩
  | wolfe hα₀ hc₁ horder hc₂ maxIter => exact Wolfe.faithful_lineSearch hop (ahead_real _)

theorem DescendsBy.faithful (hm : m.DescendsBy line) (hline : line.Admissible)
    (hop : op.Follows f.landscape) (hsolver : m.solver op = some solver) :
    solver.Faithful f.landscape := by
  cases hm with
  | steepestDescent line tolGrad =>
    cases hsolver
    exact SteepestDescent.faithful hop (hline.faithful hop) tolGrad
  | newtonCG line settings =>
    cases hsolver
    exact NewtonCG.faithful hop (hline.faithful hop) settings

end Method

/-! ### Runs -/

namespace Surface

variable {line m : Method Exact (Vec n) (Mat n)}
  {solver : Solver Exact (Vec n) (Mat n) σ (Memory Exact (Vec n) (Mat n))}
  {u v : Executor Exact (Vec n) (Mat n) σ (Memory Exact (Vec n) (Mat n))}

/-- An iteration from a state that is faithful to the surface moves from its point to that of the
next one. -/
theorem moves_of_iterate (hop : op.Follows f.landscape) (hline : line.Admissible)
    (hm : m.DescendsBy line) (hsolver : m.solver op = some solver)
    (hu : u.stage.state.Faithful f.landscape) {newBest : Bool}
    (h : (Executor.iterate solver).run u = (.ok newBest, v)) :
    ∃ x d α, f.Placed x u.stage.state ∧ f.Placed (x + α • d) v.stage.state ∧
      m.Moves f line x d α := by
  obtain ⟨x, hx⟩ := placed_of_faithful hu
  obtain ⟨delta, t, s, k, r, hnext, htells, hmerge, hstate⟩ :=
    Executor.answered_of_iterate (hm.faithful hline hop hsolver).answers h
  obtain ⟨⟨delta', hdelta, d, α, hmoves, hparam⟩, -⟩ :=
    hm.yields_next hline hop hsolver hx u.stage (some delta) t rfl hnext
  cases hdelta
  have hs : s.Faithful f.landscape := by
    rcases htells with htells | hstill
    · exact .of_merge hu.best htells hmerge
    · exact hu.merge_still hstill hmerge
  obtain ⟨y, hy⟩ := placed_of_faithful hs
  -- the point that is merged is the one the step length leads to
  have hy' : some y = some (x + α • d) := by
    have hmerged := u.stage.state.merge_param delta
    rw [hmerge, hparam] at hmerged
    exact hy.param.symm.trans hmerged
  cases hy'
  rw [hstate]
  exact ⟨x, d, α, hx, ⟨hy.param, hy.cost, hy.grad⟩, hmoves⟩

/-- The search of an iteration from a point runs out of trials. -/
def RunsOutAt (f : Surface n) (m line : Method Exact (Vec n) (Mat n)) (x : Vec n) : Prop :=
  ∃ d α, m.Heads f x d ∧ line.RunsOut (f.profile x d) α

section

variable {memory : Memory Exact (Vec n) (Mat n)} {session : Session Exact σ}
  {config : Config Exact (Vec n)} {observers : List (ObserverEntry Exact (Vec n) (Mat n))}

/-- Between two iterations of a run the cost has not risen, unless a search ran out of trials in
between.  The induction is on the later one. -/
theorem value_le_of_reached (hop : op.Follows f.landscape) (hline : line.Admissible)
    (hm : m.DescendsBy line) (hsolver : m.solver op = some solver) {j k : ℕ} (hjk : j ≤ k)
    (hu : Executor.Reached solver (.ready memory session config observers) j u)
    (hv : Executor.Reached solver (.ready memory session config observers) k v) :
    ∃ x y, f.Placed x u.stage.state ∧ f.Placed y v.stage.state ∧
      (f.value y ≤ f.value x ∨ ∃ i w z, j ≤ i ∧ i < k ∧
        Executor.Reached solver (.ready memory session config observers) i w ∧
        f.Placed z w.stage.state ∧ f.RunsOutAt m line z) := by
  have hfaithful := hm.faithful hline hop hsolver
  induction k, hjk using Nat.le_induction generalizing v with
  | base =>
    obtain rfl := hu.unique hv
    obtain ⟨x, hx⟩ := placed_of_faithful (Executor.faithful_of_reached hfaithful hu)
    exact ⟨x, x, hx, hx, .inl le_rfl⟩
  | succ k hjk ih =>
    obtain ⟨w, hw, -, hstep⟩ := hv.before
    obtain ⟨newBest, v', hiterate, hconclude⟩ := Executor.step_eq_ok.mp hstep
    obtain ⟨x, z, hx, hz, hbefore⟩ := ih hw
    obtain ⟨z', d, α, hz', hy, hmoves⟩ := moves_of_iterate hop hline hm hsolver
      (Executor.faithful_of_reached hfaithful hw) hiterate
    obtain rfl : z = z' := Option.some.inj (hz.param.symm.trans hz'.param)
    rw [← Executor.state_of_conclude hconclude] at hy
    refine ⟨x, _, hx, hy, ?_⟩
    -- a search that ran out before remains the exception, however the run goes on
    rcases hbefore with hle | ⟨i, w', y, hji, hik, hearlier⟩
    · rcases hmoves.descends with hdescends | hout
      · exact .inl (hdescends.trans hle)
      · exact .inr ⟨k, w, z, hjk, Nat.lt_succ_self k, hw, hz, d, α, hmoves.heads, hout⟩
    · exact .inr ⟨i, w', y, hji, Nat.lt_succ_of_lt hik, hearlier⟩

end

/-! ### A bowl -/

/-- A bowl over the line. -/
noncomputable def bowl (a : ℝ) : Surface 1 where
  value := form (a • 1) 0
  gradient x := a • x
  hessian _ := a • 1
  symmetric _ := Matrix.IsSymm.smul Matrix.isSymm_one a

theorem bowl_value (a : ℝ) (x : Vec 1) : (bowl a).value x = a / 2 * ‖x‖ ^ 2 := by
  have himage : image (a • 1) x = a • x := by
    unfold image
    rw [map_smul, Matrix.toLpLin_one, LinearMap.smul_apply, LinearMap.id_apply]
  unfold bowl form
  dsimp only
  rw [himage, inner_zero_left, real_inner_smul_right, real_inner_self_eq_norm_sq]
  ring

/-- The gradient that is given for the bowl is its gradient. -/
theorem hasGradientAt_bowl (a : ℝ) (x : Vec 1) :
    HasGradientAt (bowl a).value ((bowl a).gradient x) x := by
  have hvalue : (bowl a).value = fun x => a / 2 * ‖x‖ ^ 2 := funext (bowl_value a)
  rw [hvalue, hasGradientAt_iff_hasFDerivAt]
  have hderiv := (hasStrictFDerivAt_norm_sq x).hasFDerivAt.const_mul (a / 2)
  refine hderiv.congr_fderiv ?_
  ext v
  rw [InnerProductSpace.toDual_apply_apply, smul_apply, smul_apply, innerSL_apply_apply,
    smul_eq_mul, nsmul_eq_mul]
  unfold bowl
  dsimp only
  rw [real_inner_smul_left]
  push_cast
  ring

/-- Along the negative gradient the bowl is a parabola. -/
theorem bowl_value_step (a α : ℝ) (x : Vec 1) :
    (bowl a).value (x + α • -(bowl a).gradient x) = (1 - α * a) ^ 2 * (bowl a).value x := by
  have hstep : x + α • -(bowl a).gradient x = (1 - α * a) • x := by
    unfold bowl
    dsimp only
    rw [smul_neg, smul_smul, sub_smul, one_smul, sub_eq_add_neg]
  rw [hstep, bowl_value, bowl_value, norm_smul, mul_pow, Real.norm_eq_abs, sq_abs]
  ring

/-- Where the runs down the bowl start. -/
noncomputable def one : Vec 1 := EuclideanSpace.single 0 1

theorem bowl_value_one (a : ℝ) : (bowl a).value one = a / 2 := by
  rw [bowl_value, one, PiLp.norm_single]
  norm_num

theorem bowl_slope_one (a : ℝ) :
    ((bowl a).profile one (-(bowl a).gradient one)).slope 0 = -a ^ 2 := by
  rw [profile_slope_zero, inner_neg_right, real_inner_self_eq_norm_sq]
  unfold bowl one
  dsimp only
  rw [norm_smul, PiLp.norm_single, Real.norm_eq_abs, mul_pow, sq_abs]
  norm_num

/-- A step length that goes `t` times as far as the bottom decreases the bowl sufficiently if and
only if `t` is at most `2 (1 - c)`. -/
theorem bowl_decreases_iff {a c α : ℝ} (ha : 0 < a) (hα : 0 < α) :
    ((bowl a).profile one (-(bowl a).gradient one)).Decreases c α ↔ α * a ≤ 2 * (1 - c) := by
  have hvalue : ((bowl a).profile one (-(bowl a).gradient one)).value α =
      (1 - α * a) ^ 2 * (a / 2) := by
    rw [← bowl_value_one a]
    exact bowl_value_step a α one
  unfold Profile.Decreases
  rw [hvalue, profile_value_zero, bowl_value_one, bowl_slope_one]
  have hpos : 0 < α * a * a := mul_pos (mul_pos hα ha) ha
  constructor
  · intro h
    nlinarith
  · intro h
    nlinarith

/-- The start of a run down the bowl. -/
noncomputable def atOne : Executor Exact (Vec 1) (Mat 1) Unit (Memory Exact (Vec 1) (Mat 1)) :=
  .ready .plain { world := (), elapsed := 0.0 } (Quadratic.configured one 1) []

/-- A run down the bowl makes an iteration whose search takes a step length. -/
theorem exists_iterate_bowl {a α : ℝ} {line : Method Exact (Vec 1) (Mat 1)}
    {step : StepLength Exact (Vec 1)} (ha : 1 ≤ a)
    (htakes : (bowl a).Takes line one (-(bowl a).gradient one) step)
    (hstep : step.Faithful (bowl a).landscape (some one) (-(bowl a).gradient one))
    (halpha : step.alpha = real α) :
    ∃ u newBest v, Executor.Reached ((bowl a).steepest line 1e-8) atOne 0 u ∧
      Executor.continues u.stage.state = .ok true ∧
      (Executor.iterate ((bowl a).steepest line 1e-8)).run u = (.ok newBest, v) ∧
      u.stage.state.cost = .real (real (a / 2)) ∧
      v.stage.state.cost = .real (real ((1 - α * a) ^ 2 * (a / 2))) := by
  have hmoving : ¬ Negligible (1e-8 : Exact) ((bowl a).gradient one) := by
    -- the slope of the bowl at one is at least one
    intro hshort
    have hle : real ‖(bowl a).gradient one‖ ≤ Scalar.greatest (real 1e-8) (real 1e-10) := hshort
    unfold bowl one at hle
    dsimp only at hle
    rw [norm_smul, PiLp.norm_single, Real.norm_eq_abs, abs_of_nonneg (zero_le_one.trans ha),
      greatest_real, real_le] at hle
    norm_num at hle
    linarith
  have hparam : (Quadratic.configured one 1).param = some one := rfl
  obtain ⟨u, hu, hplaced, hbest, hgoing⟩ := (bowl a).reached_steepest line .plain
    { world := (), elapsed := 0.0 } [] hparam hmoving
  obtain ⟨newBest, v, hiterate, hlanded⟩ := exists_iterate_steepest
    (Quadratic.validate_configured one 1) hu hgoing hplaced hbest htakes hstep halpha
  have hceiling : (Quadratic.configured one 1).maxIters.number? = some (.int 1) := rfl
  have hdue : Executor.continues u.stage.state = .ok true :=
    Executor.continues_of_reached (Algorithm.abstains_toSolver _) hceiling hu
      (congrArg Reason.isTerminal hgoing)
  refine ⟨u, newBest, v, hu, hdue, hiterate, ?_, ?_⟩
  · rw [hplaced.cost, bowl_value_one]
  · rw [hlanded.cost, bowl_value_step, bowl_value_one]

/-- **A descent goes down as long as its line searches do not run out of trials.**  In exact
arithmetic, on every deterministic operator with real costs and symmetric Hessians, every iteration
of every run of steepest descent or Newton's method, with either line search and any constants that
its constructor accepts, moves in the direction of the method by a positive step length, and the
cost that it merges is at most the one before unless its search has run out of trials.  So between
any two iterations of a run the cost has not risen unless a search ran out in between.  The
gradients of the operator need not be those of its costs. -/
theorem run_downhill (f : Surface n) (hop : op.Follows f.landscape) (hline : line.Admissible)
    (hm : m.DescendsBy line) (hsolver : m.solver op = some solver)
    (memory : Memory Exact (Vec n) (Mat n)) (session : Session Exact σ)
    (config : Config Exact (Vec n)) (observers : List (ObserverEntry Exact (Vec n) (Mat n))) :
    (∀ k u newBest v, Executor.Reached solver (.ready memory session config observers) k u →
      (Executor.iterate solver).run u = (.ok newBest, v) →
      ∃ x d α, f.Placed x u.stage.state ∧ f.Placed (x + α • d) v.stage.state ∧
        m.Moves f line x d α) ∧
    ∀ j k u v, j ≤ k → Executor.Reached solver (.ready memory session config observers) j u →
      Executor.Reached solver (.ready memory session config observers) k v →
      ∃ x y, f.Placed x u.stage.state ∧ f.Placed y v.stage.state ∧
        (f.value y ≤ f.value x ∨ ∃ i w z, j ≤ i ∧ i < k ∧
          Executor.Reached solver (.ready memory session config observers) i w ∧
          f.Placed z w.stage.state ∧ f.RunsOutAt m line z) := by
  refine ⟨fun k u newBest v hu hv => ?_, fun j k u v hjk hu hv => ?_⟩
  · have hfaithful := Executor.faithful_of_reached (hm.faithful hline hop hsolver) hu
    exact moves_of_iterate hop hline hm hsolver hfaithful hv
  · exact value_le_of_reached hop hline hm hsolver hjk hu hv

/-- Steepest descent with the default backtracking search reaches the bottom of the bowl in its
first iteration. -/
theorem run_downhill_bowl :
    ∃ solver u newBest v,
      (Method.steepestDescent (.backtracking .default) 1e-8).solver (bowl 1).operator =
        some solver ∧
      Executor.Reached solver atOne 0 u ∧
      (Executor.iterate solver).run u = (.ok newBest, v) ∧
      v.stage.state.cost = .real (real 0) ∧
      ∃ x d α, (bowl 1).Placed x u.stage.state ∧ (bowl 1).Placed (x + α • d) v.stage.state ∧
        (Method.steepestDescent (.backtracking .default) 1e-8).Moves (bowl 1)
          (.backtracking .default) x d α := by
  have hline : Method.Admissible (n := 1) (.backtracking .default) :=
    .backtracking (by norm_num) (by norm_num) (by norm_num) 50
  have hdecreases : ((bowl 1).profile one (-(bowl 1).gradient one)).Decreases 1e-4 1.0 :=
    (bowl_decreases_iff one_pos (by norm_num)).mpr (by norm_num)
  have htakes : (bowl 1).Takes (.backtracking .default) one (-(bowl 1).gradient one)
      ⟨real 1.0, some (real (((bowl 1).profile one (-(bowl 1).gradient one)).value 1.0)), none⟩ :=
    takes_backtracking_first (by decide : 0 < (50 : Int)) hdecreases
  obtain ⟨u, newBest, v, hu, -, hv, -, hcost⟩ :=
    exists_iterate_bowl le_rfl htakes faithful_of_profile rfl
  obtain ⟨hiterate, -⟩ := run_downhill (bowl 1) (bowl 1).follows_operator hline
    (.steepestDescent _ 1e-8) rfl .plain { world := (), elapsed := 0.0 }
    (Quadratic.configured one 1) []
  -- the first trial, of the whole slope, ends at the bottom
  have hbottom : (1 - 1.0 * 1) ^ 2 * (1 / 2) = (0 : ℝ) := by norm_num
  rw [hbottom] at hcost
  exact ⟨_, u, newBest, v, rfl, hu, hv, hcost, hiterate 0 u newBest v hu hv⟩

/-- From one, steepest descent with the line search overshoots the bottom of the bowl in its first
iteration, and merges a cost that is higher than the one before. -/
def Overshoots (a : ℝ) (line : Method Exact (Vec 1) (Mat 1)) : Prop :=
  line.Admissible ∧ ∃ solver u newBest v,
    (Method.steepestDescent line 1e-8).solver (bowl a).operator = some solver ∧
    Executor.Reached solver atOne 0 u ∧ Executor.continues u.stage.state = .ok true ∧
    (Executor.iterate solver).run u = (.ok newBest, v) ∧
    ∃ before after : ℝ, u.stage.state.cost = .real (real before) ∧
      v.stage.state.cost = .real (real after) ∧ before < after

/-- A search overshoots that takes three times the length to the bottom. -/
theorem overshoots_of_takes {a α : ℝ} {line : Method Exact (Vec 1) (Mat 1)}
    {step : StepLength Exact (Vec 1)} (hline : line.Admissible) (ha : 1 ≤ a)
    (htakes : (bowl a).Takes line one (-(bowl a).gradient one) step)
    (hstep : step.Faithful (bowl a).landscape (some one) (-(bowl a).gradient one))
    (halpha : step.alpha = real α) (hthrice : α * a = 3) : Overshoots a line := by
  obtain ⟨u, newBest, v, hu, hdue, hv, hbefore, hafter⟩ :=
    exists_iterate_bowl ha htakes hstep halpha
  refine ⟨hline, _, u, newBest, v, rfl, hu, hdue, hv, _, _, hbefore, hafter, ?_⟩
  rw [hthrice]
  linarith

theorem overshoots_backtracking : Overshoots (3 * 2 ^ 50) (.backtracking .default) := by
  have hline : Method.Admissible (n := 1) (.backtracking .default) :=
    .backtracking (by norm_num) (by norm_num) (by norm_num) 50
  -- even the length after all trials goes three times as far as the bottom
  have hrejected : ∀ k < (50 : Int).toNat, ¬ ((bowl (3 * 2 ^ 50)).profile one
      (-(bowl (3 * 2 ^ 50)).gradient one)).Decreases 1e-4 (1.0 * 0.5 ^ k) := by
    intro k hk
    have hfar : (0.5 : ℝ) ^ 50 ≤ 0.5 ^ k :=
      pow_le_pow_of_le_one (by norm_num) (by norm_num) hk.le
    rw [bowl_decreases_iff (by norm_num) (by positivity), not_le]
    norm_num at hfar ⊢
    linarith
  have htakes : (bowl (3 * 2 ^ 50)).Takes (.backtracking .default) one
      (-(bowl (3 * 2 ^ 50)).gradient one) ⟨real (1.0 * 0.5 ^ (50 : Int).toNat), none, none⟩ :=
    takes_backtracking_of_rejected (by norm_num) (by norm_num) hrejected
  have hthrice : (1.0 * 0.5 ^ (50 : Int).toNat : ℝ) * (3 * 2 ^ 50) = 3 := by
    show (1.0 * 0.5 ^ 50 : ℝ) * (3 * 2 ^ 50) = 3
    norm_num
  exact overshoots_of_takes hline (by norm_num) htakes faithful_untried rfl hthrice

theorem bowl_slope_neg {a : ℝ} (ha : 0 < a) :
    ((bowl a).profile one (-(bowl a).gradient one)).slope 0 < 0 := by
  rw [bowl_slope_one]
  exact neg_neg_of_pos (pow_pos ha 2)

theorem overshoots_wolfe : Overshoots 1 (.wolfe (.ofReal 3 1e-4 0.9 0)) := by
  have hline : Method.Admissible (n := 1) (.wolfe (.ofReal 3 1e-4 0.9 0)) :=
    .wolfe (by norm_num) (by norm_num) (by norm_num) (by norm_num) 0
  exact overshoots_of_takes hline le_rfl (takes_wolfe_untried (bowl_slope_neg one_pos))
    faithful_untried rfl (mul_one 3)

theorem overshoots_gaveUp : Overshoots (3 * 2 ^ 32) (.wolfe .default) := by
  have hline : Method.Admissible (n := 1) (.wolfe .default) :=
    .wolfe (by norm_num) (by norm_num) (by norm_num) (by norm_num) 40
  -- even the last middle goes three times as far as the bottom
  have hrejected : ∀ j ≤ 32, ¬ ((bowl (3 * 2 ^ 32)).profile one
      (-(bowl (3 * 2 ^ 32)).gradient one)).Decreases 1e-4 (1.0 / 2 ^ j) := by
    intro j hj
    have hfar : (1.0 : ℝ) / 2 ^ 32 ≤ 1.0 / 2 ^ j :=
      div_le_div_of_nonneg_left (by norm_num) (by positivity)
        (pow_le_pow_right₀ one_le_two hj)
    rw [bowl_decreases_iff (by norm_num) (by positivity), not_le]
    norm_num at hfar ⊢
    linarith
  have htakes : (bowl (3 * 2 ^ 32)).Takes (.wolfe .default) one (-(bowl (3 * 2 ^ 32)).gradient one)
      ⟨real (1.0 / 2 ^ 32), some (real (((bowl (3 * 2 ^ 32)).profile one
        (-(bowl (3 * 2 ^ 32)).gradient one)).value (1.0 / 2 ^ 32))), none⟩ :=
    takes_wolfe_of_rejected (bowl_slope_neg (by norm_num)) (by norm_num)
      (by decide : 0 < (40 : Int)) (by norm_num) hrejected
  have hthrice : (1.0 / 2 ^ 32 : ℝ) * (3 * 2 ^ 32) = 3 := by norm_num
  exact overshoots_of_takes hline (by norm_num) htakes faithful_of_profile rfl hthrice

/-- A search that runs out of trials need not go down, and a descent with it need not either.  On a
bowl that is steep enough the default backtracking search takes the step length after its fifty
trials, and overshoots; the default strong Wolfe search gives up after the thirty-two passes of its
zoom, and overshoots; and so does one that is given no trials. -/
theorem not_always_downhill :
    (∀ a x, HasGradientAt (bowl a).value ((bowl a).gradient x) x) ∧
      Overshoots (3 * 2 ^ 50) (.backtracking .default) ∧
      Overshoots (3 * 2 ^ 32) (.wolfe .default) ∧
      Overshoots 1 (.wolfe (.ofReal 3 1e-4 0.9 0)) :=
  ⟨hasGradientAt_bowl, overshoots_backtracking, overshoots_gaveUp, overshoots_wolfe⟩

end Surface

end Descent
