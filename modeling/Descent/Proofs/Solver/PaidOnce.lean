import Descent.Proofs.LineSearch.Once
import Descent.Proofs.Run.Downhill
import Descent.Proofs.Solver.Beside

/-!
# An iteration pays once

An iteration of steepest descent or of Newton's method moves by the step length that its line search
returns.  The cost and the gradient there are those that the search hands on, and what it has not
asked for the solver asks for itself (`Descending.succeeds_complete_once`).  So the operator is
asked for neither of them twice at one point, and the delta has the answers to the calls at the
point that it moves to (`Delta.Reaches`).

Newton's method begins with a call for the Hessian, and takes its direction from the answer
(`Method.Sets`).  A strong Wolfe search refuses a direction along which the slope does not fall,
before it asks for anything (`Method.Refuses`).
-/

open scoped RealInnerProductSpace

namespace Descent

open Act (Succeeds Triple)
open Exact

variable {n : ℕ} {M σ : Type} {op : Operator Exact (Vec n) M σ} {x d g : Vec n} {α c : ℝ}
  {trial : ℝ → Prop} {start : Counts} {before calls : List (Evaluation Exact (Vec n) M)}
  {ray : Ray Exact (Vec n)} {s : State Exact (Vec n) M}

theorem Surface.realValued_operator (f : Surface n) : f.operator.RealValued where
  cost _ := ⟨rfl, fun w => ⟨_, w, rfl, _, rfl, _, rfl⟩⟩
  gradient _ := ⟨rfl, fun w => ⟨_, w, rfl, _, rfl, trivial⟩⟩

/-- The delta moves to the point of a trial ahead, with the answers to the calls for the cost and
for the gradient there. -/
inductive Delta.Reaches (trial : ℝ → Prop) (x d : Vec n)
    (calls : List (Evaluation Exact (Vec n) M)) : Delta Exact (Vec n) M → Prop
  | intro {α c : ℝ} {g : Vec n} (hα : 0 < α) (htrial : trial α)
      (hcost : CostAnswered calls (x + α • d) c) (hgrad : GradientAnswered calls (x + α • d) g) :
      Reaches trial x d calls {
        param := some (x + α • d)
        cost := some (.real (real c))
        grad := some g
        kv := [("alpha", .real (real α))] }

namespace Descending

/-- The cost comes first, then the gradient. -/
theorem complete_eq {R V M υ : Type} [Scalar R] (op : Operator R V M υ) (y : V)
    (step : StepLength R V) :
    complete op y step =
      step.cost.elim (Session.costValue op (some y)) pure >>= fun cost =>
        step.grad.elim (Session.gradient op (some y)) (fun g => pure (some g)) >>= fun grad =>
          pure (cost, grad) := by
  unfold complete
  cases step.cost <;> cases step.grad <;> rfl

section

variable (hop : op.RealValued) (hα : 0 < α) (htrial : trial α) (h : ray.Keeps trial x d calls)

include hop hα htrial h

/-- The cost that the ray does not recall at the step length is paid for. -/
theorem succeeds_cost_once :
    Succeeds (Session.Noted start (before ++ calls))
      ((Ray.known (real α) ray.costs).elim (Session.costValue op.recorded (some (x + α • d))) pure)
      fun cost u =>
      ∃ calls' c, (cost = real c ∧ Frugal trial x d calls' ∧ CostAnswered calls' (x + α • d) c ∧
        calls ⊆ calls' ∧
          (Called calls' .gradient (x + α • d) → Called calls .gradient (x + α • d))) ∧
            u.Noted start (before ++ calls') := by
  cases hknown : Ray.known (real α) ray.costs with
  | some cost =>
    obtain ⟨c, rfl, hc⟩ := h.recalls.cost α cost hknown
    exact .pure fun u hu => ⟨calls, c, ⟨rfl, h.frugal, hc, List.Subset.refl _, id⟩, hu⟩
  | none =>
    refine (Session.succeeds_costValue_of_costsWith (hop.cost _)).post ?_
    rintro _ u ⟨v, ⟨hv, c, rfl⟩, hu⟩
    rw [List.append_assoc] at hu
    refine ⟨_, c, ⟨rfl, h.frugal.cost hα htrial (h.recalls.new_cost α hknown) _, ⟨v, by simp, hv⟩,
      List.subset_append_left _ _, fun hcalled => ?_⟩, hu⟩
    exact (called_append.mp hcalled).resolve_right nofun

/-- So is the gradient. -/
theorem succeeds_complete_once :
    Succeeds (Session.Noted start (before ++ calls))
      (complete op.recorded (x + α • d) (ray.stepLength (real α))) fun r u =>
        ∃ calls' c g, (r = (real c, some g) ∧ Frugal trial x d calls' ∧
          CostAnswered calls' (x + α • d) c ∧ GradientAnswered calls' (x + α • d) g) ∧
            u.Noted start (before ++ calls') := by
  rw [complete_eq]
  refine (succeeds_cost_once hop hα htrial h).bind fun cost => ?_
  refine Triple.of_exists fun calls' => Triple.of_exists fun c => Triple.assume ?_
  rintro ⟨rfl, hfrugal, hc, hsub, hnew⟩
  unfold Ray.stepLength
  -- a gradient that the search knows is not asked for again
  cases hknown : Ray.known (real α) ray.grads with
  | some o =>
    obtain ⟨g, rfl, hg⟩ := h.recalls.gradient α o hknown
    exact .pure fun u hu => ⟨calls', c, g, ⟨rfl, hfrugal, hc, hsub hg⟩, hu⟩
  | none =>
    refine (Session.succeeds_gradient_of_gradientWith (hop.gradient _)).bind fun o =>
      Triple.of_exists fun g => Triple.assume ?_
    rintro ⟨rfl, -⟩
    refine .pure fun u hu => ?_
    rw [List.append_assoc] at hu
    refine ⟨_, c, g, ⟨rfl, hfrugal.gradient hα htrial hc.called ?_ _, ?_, ?_⟩, hu⟩
    · exact fun hcalled => h.recalls.new_gradient α hknown (hnew hcalled)
    · exact hc.mono (List.subset_append_left _ _)
    · exact List.mem_append_right _ (List.mem_singleton_self _)

end

/-- An iteration along a direction pays for what it moves to, unless its search has. -/
theorem succeeds_advance_once (hop : op.RealValued)
    {line : LineSearch Exact (Vec n) M (σ × List (Evaluation Exact (Vec n) M))}
    (hx : s.param = some x)
    (hsearch : Succeeds (Session.Noted start before) (line.search d s)
      (Session.Settles start before trial x d)) :
    Succeeds (Session.Noted start before) (advance op.recorded line d s) fun delta u =>
      ∃ calls, (Frugal trial x d calls ∧ delta.Reaches trial x d calls) ∧
        u.Noted start (before ++ calls) := by
  unfold advance
  refine hsearch.bind fun step => Triple.of_exists fun calls => Triple.of_exists fun ray =>
    Triple.assume ?_
  rintro ⟨h, ⟨hα, htrial⟩⟩
  rw [hx]
  show Succeeds _ (Act.lift (Probe.point (some x) d (real _)) >>= _) _
  -- the point of the step is the one that the search tried
  rw [Surface.point_real]
  refine (Triple.lift (Act.Raises.ok _)).bind fun y => Triple.assume fun hy => ?_
  cases hy
  refine (succeeds_complete_once hop hα htrial h).bind fun r => Triple.of_exists fun calls' =>
    Triple.of_exists fun c => Triple.of_exists fun g => Triple.assume ?_
  rintro ⟨rfl, hfrugal, hc, hg⟩
  have hfinite : checkFinite (real c) "Cost" = .ok () := if_pos isFinite_real
  show Succeeds _ (Act.lift (checkFinite (real c) "Cost") >>= _) _
  rw [hfinite]
  exact .pure fun u hu => ⟨calls', ⟨hfrugal, .intro hα htrial hc hg⟩, hu⟩

end Descending

/-! ### Searches -/

namespace Method

variable {line : Method Exact (Vec n) M}

/-- The step lengths that a line search can try or return. -/
noncomputable def Tries : Method Exact (Vec n) M → ℝ → Prop
  | .backtracking b => Backtracking.Tries b.alpha0.toReal b.rho.toReal b.maxIter.toNat
  | .wolfe w => Wolfe.Tries w.alpha0.toReal w.maxIter.toNat
  | _ => fun _ => False

theorem tries_backtracking {α₀ ρ c : ℝ} {maxIter : Int} :
    Tries (n := n) (M := M) (.backtracking (.ofReal α₀ ρ c maxIter)) =
      Backtracking.Tries α₀ ρ maxIter.toNat := by
  show Backtracking.Tries (real α₀).toReal (real ρ).toReal _ = _
  rw [toReal_real, toReal_real]

theorem tries_wolfe {α₀ c₁ c₂ : ℝ} {maxIter : Int} :
    Tries (n := n) (M := M) (.wolfe (.ofReal α₀ c₁ c₂ maxIter)) = Wolfe.Tries α₀ maxIter.toNat := by
  show Wolfe.Tries (real α₀).toReal _ = _
  rw [toReal_real]

/-- A line search whose step lengths stay above zero, as they do with all real numbers that its
constructor accepts for the constants. -/
inductive StaysAhead : Method Exact (Vec n) M → Prop
  | backtracking {α₀ ρ c : ℝ} (hα₀ : 0 < α₀) (hρ : 0 < ρ) (maxIter : Int) :
      StaysAhead (.backtracking (.ofReal α₀ ρ c maxIter))
  | wolfe {α₀ c₁ c₂ : ℝ} (hα₀ : 0 < α₀) (maxIter : Int) :
      StaysAhead (.wolfe (.ofReal α₀ c₁ c₂ maxIter))

/-- The search refuses the direction, since the slope does not fall along it. -/
def Refuses (g d : Vec n) (line : Method Exact (Vec n) M) : Prop :=
  (∃ w, line = .wolfe w) ∧ 0 ≤ incline g d

/-- What an advance in a direction comes to: the delta that moves to a trial, or the refusal of the
direction. -/
inductive Pays (line : Method Exact (Vec n) M) (x g d : Vec n) :
    List (Evaluation Exact (Vec n) M) → Except (Fault Exact) (Delta Exact (Vec n) M) → Prop
  | moved {calls : List (Evaluation Exact (Vec n) M)} {delta : Delta Exact (Vec n) M}
      (h : delta.Reaches line.Tries x d calls) : Pays line x g d calls (.ok delta)
  | refused (h : line.Refuses g d) : Pays line x g d [] (.error .notDescent)

variable {cost : Exact} (hx : s.param = some x) (hcost : s.cost.measured = .ok cost)
  (hknown : Scalar.isNaN cost = false) (hgrad : s.grad = some g)

include hcost hknown hgrad

/-- A direction that is refused is refused before anything is evaluated. -/
theorem Refuses.run_search {υ : Type} {op : Operator Exact (Vec n) M υ}
    (h : line.Refuses g d) (u : Session Exact υ) :
    ((line.lineSearch op).search d s).run u = (.error .notDescent, u) := by
  obtain ⟨⟨w, rfl⟩, hup⟩ := h
  show (w.search op d s).run u = _
  unfold Wolfe.search
  rw [Act.run_bind_of_ok (LineSearch.run_current_told hcost hknown hgrad u)]
  have hslope : (Act.lift (Space.innerWith (some g) (some g) d)).run u =
      (.ok (real ⟪g, d⟫), u) := rfl
  have hrises : (0.0 : Exact) ≤ real ⟪g, d⟫ := by rwa [zero_eq, real_le]
  dsimp only
  rw [Act.run_bind_of_ok hslope, if_pos hrises]
  rfl

include hx

/-- A search that does not refuse the direction pays for nothing twice. -/
theorem StaysAhead.succeeds_search_once (hline : line.StaysAhead) (hop : op.RealValued)
    (hd : d ≠ 0) (hgoes : ¬ line.Refuses g d) :
    Succeeds (Session.Noted start before) ((line.lineSearch op.recorded).search d s)
      (Session.Settles start before line.Tries x d) := by
  cases hline with
  | backtracking hα₀ hρ maxIter =>
    rw [tries_backtracking]
    exact Backtracking.succeeds_search_once hop hd hα₀ hρ hx hcost hknown hgrad
  | wolfe hα₀ maxIter =>
    have hslope : ⟪g, d⟫ < 0 := not_le.mp fun hup => hgoes ⟨⟨_, rfl⟩, hup⟩
    rw [tries_wolfe]
    exact Wolfe.succeeds_search_once hop hd hα₀ hx hcost hknown hgrad hslope

theorem StaysAhead.exists_advance (hline : line.StaysAhead) (hop : op.RealValued) (hd : d ≠ 0)
    {u : Session Exact (σ × List (Evaluation Exact (Vec n) M))} (hu : u.Noted start before) :
    ∃ calls r u',
      (Descending.advance op.recorded (line.lineSearch op.recorded) d s).run u = (r, u') ∧
      u'.Noted start (before ++ calls) ∧ Frugal line.Tries x d calls ∧ line.Pays x g d calls r := by
  by_cases hrefuses : line.Refuses g d
  -- the fault of the search is that of the advance, and the session is as it was
  · refine ⟨[], _, u, ?_, ?_, .nothing, .refused hrefuses⟩
    · exact Act.run_bind_of_error (hrefuses.run_search hcost hknown hgrad u)
    · rwa [List.append_nil]
  · have hsearch : Succeeds (Session.Noted start before)
        ((line.lineSearch op.recorded).search d s) _ :=
      hline.succeeds_search_once hx hcost hknown hgrad hop hd hrefuses
    obtain ⟨delta, u', hrun, calls, ⟨hfrugal, hreaches⟩, hu'⟩ :=
      Act.succeeds_iff.mp (Descending.succeeds_advance_once hop hx hsearch) u hu
    exact ⟨calls, _, u', hrun, hu', hfrugal, .moved hreaches⟩

end Method

/-! ### Iterations -/

/-- An iteration that is made on the session leaves the memory and the state as they are. -/
theorem Algorithm.run_next_inSession {R V M μ : Type} [Scalar R] {a : Algorithm R V M σ μ}
    {act : Act R (Session R σ) (Delta R V M)} {t : Stage R V M σ μ}
    (ha : a.next t.state = Bench.inSession act) {r : Except (Fault R) (Delta R V M)}
    {u : Session R σ} (h : act.run t.session = (r, u)) :
    a.toSolver.next.run t = (r.map some, { t with session := u }) := by
  have hact : (a.next t.state).run ⟨t.memory, t.session⟩ = (r, ⟨t.memory, u⟩) := by
    rw [ha]
    unfold Bench.inSession
    rw [Act.run_zoom, h]
  have hbench : (some <$> a.next t.state).run ⟨t.memory, t.session⟩ =
      (r.map some, ⟨t.memory, u⟩) := by
    rw [map_eq_pure_bind, Act.run_bind, hact]
    cases r <;> rfl
  show (onStage fun s => some <$> a.next s).run t = _
  rw [onStage_eq, Act.run_bind_of_ok (Act.run_get t), Act.run_zoom, hbench]

namespace Method

variable [LinearAction Exact (Vec n) M] {line m : Method Exact (Vec n) M}

/-- From a point with a gradient, the method takes the direction for its search, after the calls. -/
inductive Sets (op : Operator Exact (Vec n) M σ) (w : σ) (x g : Vec n)
    (line : Method Exact (Vec n) M) :
    Method Exact (Vec n) M → Vec n → List (Evaluation Exact (Vec n) M) → Prop
  | steepestDescent (tolGrad : Exact) : Sets op w x g line (.steepestDescent line tolGrad) (-g) []
  | newtonCG {settings : NewtonCG.Settings Exact} {A : M} {w' : σ} {d : Vec n}
      (hcap : op.provides .hessian = true)
      (hA : (op.evaluate .hessian op.hessian x).run w = (.ok (some A), w'))
      (hd : NewtonCG.direction settings (some g) (some A) = .ok d) :
      Sets op w x g line (.newtonCG line settings) d [.hessian x (.ok (some A))]

/-- An iteration from a state ends like this, on the session and if the operator notes its calls.
These are the calls, and it is charged for them. -/
structure Iterates (m : Method Exact (Vec n) M) (op : Operator Exact (Vec n) M σ)
    (s : State Exact (Vec n) M) (memory : Memory Exact (Vec n) M)
    (session : Session Exact σ) (calls : List (Evaluation Exact (Vec n) M))
    (r : Except (Fault Exact) (Option (Delta Exact (Vec n) M))) : Prop where
  answers : ∃ solver u, m.solver op = some solver ∧
    solver.next.run ⟨memory, s, session⟩ = (r, ⟨memory, s, u⟩) ∧
      u.counts = session.counts.chargeAll (calls.map Evaluation.query)
  asks : ∃ solver u, m.solver op.recorded = some solver ∧
    solver.next.run ⟨memory, s, session.recording (Vec n) M⟩ = (r, ⟨memory, s, u⟩) ∧
      u.Noted session.counts calls

variable {memory : Memory Exact (Vec n) M} {session : Session Exact σ}

/-- An iteration is made on the session by steps that go beside each other. -/
theorem iterates_of_run {a : Algorithm Exact (Vec n) M σ (Memory Exact (Vec n) M)}
    {b : Algorithm Exact (Vec n) M (σ × List (Evaluation Exact (Vec n) M)) (Memory Exact (Vec n) M)}
    {act : Act Exact (Session Exact σ) (Delta Exact (Vec n) M)}
    {noted : Act Exact (Session Exact (σ × List (Evaluation Exact (Vec n) M)))
      (Delta Exact (Vec n) M)}
    (ha : m.solver op = some a.toSolver) (hb : m.solver op.recorded = some b.toSolver)
    (hact : a.next s = Bench.inSession act) (hnoted : b.next s = Bench.inSession noted)
    (hbeside : (Transcript.recording Exact σ (Vec n) M).Beside Eq noted act)
    {r : Except (Fault Exact) (Delta Exact (Vec n) M)}
    {u : Session Exact (σ × List (Evaluation Exact (Vec n) M))}
    (hrun : noted.run (session.recording (Vec n) M) = (r, u))
    (hu : u.Noted session.counts calls) :
    m.Iterates op s memory session calls (r.map some) where
  answers := by
    obtain ⟨u', hrun', hcounts⟩ := Transcript.run_of_recording hbeside hrun
    exact ⟨_, u', ha, Algorithm.run_next_inSession (t := ⟨memory, s, session⟩) hact hrun',
      hcounts.trans hu.charged⟩
  asks := ⟨_, u, hb, Algorithm.run_next_inSession
    (t := ⟨memory, s, session.recording (Vec n) M⟩) hnoted hrun, hu⟩

section

variable {cost : Exact} (hx : s.param = some x) (hcost : s.cost.measured = .ok cost)
  (hknown : Scalar.isNaN cost = false) (hgrad : s.grad = some g)

include hx hcost hknown hgrad

variable (memory session)

theorem Sets.exists_iterates (hline : line.StaysAhead) (hop : op.RealValued) (hd : d ≠ 0)
    (hsets : Sets op session.world x g line m d before) :
    ∃ calls r, m.Iterates op s memory session (before ++ calls) (r.map some) ∧
      Frugal line.Tries x d calls ∧ line.Pays x g d calls r := by
  have : Nonempty (Session Exact σ) := ⟨session⟩
  have hparam : s.param.isSome = true := by rw [hx]; rfl
  have hserves := Transcript.serves_recording (R := Exact) op
  have hsearch := line.lineSearch_beside (hserves .cost) (hserves .gradient)
  cases hsets with
  | steepestDescent tolGrad =>
    obtain ⟨calls, r, u, hrun, hu, hfrugal, hpays⟩ :=
      hline.exists_advance hx hcost hknown hgrad hop hd (Session.noted_recording session)
    have hbeside : (Transcript.recording Exact σ (Vec n) M).Beside Eq
        (SteepestDescent.next op.recorded (line.lineSearch op.recorded) s)
        (SteepestDescent.next op (line.lineSearch op) s) :=
      Descending.advance_beside (hserves .cost) (hserves .gradient) hsearch _ hparam s.maxIters
        s.time
    have hnext : (SteepestDescent.next op.recorded (line.lineSearch op.recorded) s).run
        (session.recording (Vec n) M) = (r, u) := by
      unfold SteepestDescent.next
      rw [hgrad]
      show (Descending.advance _ _ (Space.neg g) s).run _ = _
      rw [neg_eq]
      exact hrun
    exact ⟨calls, r, iterates_of_run rfl rfl rfl rfl hbeside hnext hu, hfrugal, hpays⟩
  | @newtonCG settings A w' d hcap hA hdirection =>
    -- the Hessian is noted before the search begins, which adds its calls to that one
    have hhessian :
        (Session.hessian op.recorded (some x)).run (session.recording (Vec n) M) = _ :=
      Session.run_evaluate_recorded .hessian hcap _ hA
    obtain ⟨calls, r, u, hrun, hu, hfrugal, hpays⟩ :=
      hline.exists_advance hx hcost hknown hgrad hop hd
        ((Session.noted_recording session).charge (e := .hessian x (.ok (some A))) rfl)
    have hbeside : (Transcript.recording Exact σ (Vec n) M).Beside Eq
        (NewtonCG.next op.recorded (line.lineSearch op.recorded) settings s)
        (NewtonCG.next op (line.lineSearch op) settings s) :=
      NewtonCG.next_beside (hserves .cost) (hserves .gradient) (hserves .hessian) hsearch settings
        hparam s.maxIters s.time
    have hnext : (NewtonCG.next op.recorded (line.lineSearch op.recorded) settings s).run
        (session.recording (Vec n) M) = (r, u) := by
      unfold NewtonCG.next
      rw [hx, Act.run_bind_of_ok hhessian, hgrad, hdirection]
      exact hrun
    exact ⟨calls, r, iterates_of_run rfl rfl rfl rfl hbeside hnext hu, hfrugal, hpays⟩

/-- **No point is paid for twice in an iteration.**  From a state with the cost and the gradient, an
iteration of steepest descent or of Newton's method moves to the point of a trial of its line
search, or a strong Wolfe search refuses a direction along which the slope does not fall, before it
calls for anything.  Besides the Hessian that Newton's method begins with, whatever represents it,
the operator is called for costs and gradients at points of trials ahead, for each at most once at a
point, and for no gradient without the cost.  What the iteration moves to comes with the answers to
the calls there. -/
theorem pays_once (hline : line.StaysAhead) (hop : op.RealValued) (hd : d ≠ 0)
    (hsets : Sets op session.world x g line m d before) :
    ∃ calls, Frugal line.Tries x d calls ∧
      ((∃ delta, delta.Reaches line.Tries x d calls ∧
          m.Iterates op s memory session (before ++ calls) (.ok (some delta))) ∨
        line.Refuses g d ∧ calls = [] ∧
          m.Iterates op s memory session before (.error .notDescent)) := by
  obtain ⟨calls, r, hiterates, hfrugal, hpays⟩ :=
    hsets.exists_iterates memory session hx hcost hknown hgrad hline hop hd
  refine ⟨calls, hfrugal, ?_⟩
  cases hpays with
  | moved hreaches => exact .inl ⟨_, hreaches, hiterates⟩
  | refused hrefuses =>
    rw [List.append_nil] at hiterates
    exact .inr ⟨hrefuses, rfl, hiterates⟩

end

open Surface (bowl one)

/-- The state at one on the unit bowl. -/
noncomputable def atOne : State Exact (Vec 1) (Mat 1) where
  param := some one
  cost := .real (real ((bowl 1).value one))
  grad := some ((bowl 1).gradient one)

/-- A strong Wolfe search that goes too far at first. -/
noncomputable def farther : Method Exact (Vec 1) (Mat 1) := .wolfe (.ofReal 3 1e-4 0.9 40)

/-- Down the unit bowl steepest descent with this search moves to the point of a trial. -/
theorem pays_once_bowl :
    ∃ calls delta, Frugal farther.Tries one (-(bowl 1).gradient one) calls ∧
      delta.Reaches farther.Tries one (-(bowl 1).gradient one) calls ∧
      Iterates (.steepestDescent farther (real 1e-8)) (bowl 1).operator atOne .plain
        ⟨{}, (), [], false, real 0⟩ calls (.ok (some delta)) := by
  have hslope := Surface.bowl_slope_neg one_pos
  rw [Surface.profile_slope_zero] at hslope
  have hd : -(bowl 1).gradient one ≠ 0 := by
    intro hzero
    rw [hzero, inner_zero_right] at hslope
    exact lt_irrefl 0 hslope
  have hline : farther.StaysAhead := .wolfe (by norm_num) 40
  obtain ⟨calls, hfrugal, ⟨delta, hreaches, hiterates⟩ | ⟨hrefuses, -⟩⟩ :=
    pays_once .plain ⟨{}, (), [], false, real 0⟩ (s := atOne) rfl rfl isNaN_real rfl hline
      (bowl 1).realValued_operator hd (.steepestDescent (real 1e-8))
  · exact ⟨calls, delta, hfrugal, hreaches, hiterates⟩
  · exact absurd hrefuses.2 (not_le.mpr hslope)

end Method

end Descent
