import Descent.Method.Basic
import Descent.Proofs.Act.Keeps
import Descent.Proofs.Run.Parts
import Descent.Proofs.Scalar.Reduction
import Descent.Proofs.Solver.Faithful
import Descent.Proofs.Solver.Trial
import Descent.Proofs.State.Merge

/-!
# What a solver answers, and what becomes of it

`Solver.Answers opens steps` says of a solver that it leaves the state alone, that it opens a run
with a delta as `opens` says of the state, and that it answers an iteration with one as `steps`
says.  What a preparation and an iteration do to the state of a run follows: such a delta is merged,
and how far the run has come is advanced (`Executor.merged_of_prepare`,
`Executor.answered_of_iterate`, `Executor.merged_of_next`).

A trust-region iteration takes its step or leaves everything as it is.  It is taken only if the
ratio of the actual to the predicted reduction exceeds a threshold that is not negative, which it
does only if both are positive (`TrustRegion.lt_of_lt_ratio`); the delta then brings the point, its
cost, its gradient and its Hessian all at once (`TrustRegion.Takes`).
-/

namespace Descent

open Act (Yields)

variable {R V M σ μ ν : Type} [Scalar R]

/-! ### Answers -/

/-- The solver leaves the state alone and answers as the two relations say. -/
structure Solver.Answers (opens steps : State R V M → Delta R V M → Prop)
    (solver : Solver R V M σ μ) : Prop where
  init : ∀ s, Yields (fun t => t.state = s) solver.init fun o => ∃ d, o = some d ∧ opens s d
  next : ∀ s, Yields (fun t => t.state = s) solver.next fun o => ∃ d, o = some d ∧ steps s d
  terminate : ∀ s, Yields (fun t => t.state = s) solver.terminate fun _ => True

variable {opens steps : State R V M → Delta R V M → Prop} {solver : Solver R V M σ μ}

/-- What a solver answers may be said less precisely. -/
theorem Solver.Answers.imp {opens' steps' : State R V M → Delta R V M → Prop}
    (h : solver.Answers opens steps) (hopens : ∀ s d, opens s d → opens' s d)
    (hsteps : ∀ s d, steps s d → steps' s d) : solver.Answers opens' steps' where
  init s := (h.init s).imp fun _ ⟨d, hd, ho⟩ => ⟨d, hd, hopens s d ho⟩
  next s := (h.next s).imp fun _ ⟨d, hd, hs⟩ => ⟨d, hd, hsteps s d hs⟩
  terminate := h.terminate

/-- A solver that keeps its memory in a part of another's answers as it did. -/
theorem Solver.Answers.widen [Space R V] [LinearAction R V M] {get : ν → μ} {put : μ → ν}
    (h : solver.Answers opens steps) :
    (Method.widen get put solver).Answers opens steps where
  init s := by
    show Yields _ (Stage.within get (fun m _ => put m) solver.init) _
    exact (h.init s).zoom (fun _ hu => hu) fun _ _ _ ht => ht
  next s := by
    show Yields _ (Stage.within get (fun m _ => put m) solver.next) _
    exact (h.next s).zoom (fun _ hu => hu) fun _ _ _ ht => ht
  terminate s := by
    show Yields _ (Stage.within get (fun m _ => put m) solver.terminate) _
    exact (h.terminate s).zoom (fun _ hu => hu) fun _ _ _ ht => ht

namespace Executor

variable {e e' : Executor R V M σ μ}

/-- A preparation merges the delta that the solver opens with, and records its reason. -/
theorem merged_of_prepare (hsolver : solver.Answers opens steps)
    (h : (prepare solver).run e = (.ok (), e')) :
    ∃ d b s r, opens e.stage.state d ∧ e.stage.state.merge d = (.ok b, s) ∧
      e'.stage.state = { s with reason := r } := by
  obtain ⟨o, t, hinit, hmatch⟩ := prepare_eq_ok.mp h
  obtain ⟨⟨d, rfl, hopens⟩, hstate⟩ := hsolver.init e.stage.state e.stage o t rfl hinit
  obtain ⟨b, s, hmerge, rfl⟩ := hmatch
  rw [hstate] at hmerge
  cases hd : d.termination with
  | none => exact ⟨d, b, s, s.reason, hopens, hmerge, rfl⟩
  | some reason =>
    obtain ⟨r, hr⟩ := s.change_conclude reason
    exact ⟨d, b, s, r, hopens, hmerge, hr⟩

/-- An iteration merges the delta that the solver answers with, advances the counter and records the
verdict. -/
theorem answered_of_iterate (hsolver : solver.Answers opens steps) {newBest : Bool}
    (h : (iterate solver).run e = (.ok newBest, e')) :
    ∃ d t s k r, solver.next.run e.stage = (.ok (some d), t) ∧ steps e.stage.state d ∧
      e.stage.state.merge d = (.ok newBest, s) ∧
      e'.stage.state = { s with curIter := k, reason := r } := by
  obtain ⟨d, t, s, s', reason, v, hnext, hmerge, hadvance, hverdict, rfl⟩ := iterate_eq_ok.mp h
  obtain ⟨⟨d', hd', hsteps⟩, hstate⟩ := hsolver.next e.stage.state e.stage (some d) t rfl hnext
  cases hd'
  rw [hstate] at hmerge
  have hverdict' : v.stage.state = s' := by
    rcases verdict_eq_ok.mp hverdict with ⟨-, rfl⟩ | ⟨-, r, t', hterminate, rfl, -⟩
    · rfl
    · exact (hsolver.terminate s' _ r t' rfl hterminate).2
  obtain ⟨k, -, rfl⟩ := State.incrementIter_eq_ok hadvance
  obtain ⟨r, hr⟩ := State.change_conclude { s with curIter := k } reason
  refine ⟨d, t, s, k, r, hnext, hsteps, hmerge, ?_⟩
  show v.stage.state.terminateWith reason = _
  rw [hverdict']
  exact hr

/-- The end of an iteration is told, which leaves the state alone. -/
theorem merged_of_next (hsolver : solver.Answers opens steps)
    (h : (step solver).run e = (.ok (), e')) :
    ∃ d t b s k r, solver.next.run e.stage = (.ok (some d), t) ∧ steps e.stage.state d ∧
      e.stage.state.merge d = (.ok b, s) ∧
      e'.stage.state = { s with curIter := k, reason := r } := by
  obtain ⟨newBest, u, hiterate, hconclude⟩ := step_eq_ok.mp h
  obtain ⟨d, t, s, k, r, hnext, hsteps, hmerge, hstate⟩ := answered_of_iterate hsolver hiterate
  exact ⟨d, t, newBest, s, k, r, hnext, hsteps, hmerge,
    (state_of_conclude hconclude).trans hstate⟩

end Executor

end Descent

namespace Descent

open Act (Yields)

variable {R V M σ μ : Type} [Scalar R]

/-! ### Steps of the trust-region method -/

/-- The step answers so from some subject. -/
def Act.Answers {τ α : Type} (a : Act R τ α) (x : α) : Prop := ∃ t t', a.run t = (.ok x, t')

namespace TrustRegion

/-- A ratio above a threshold that is not negative has a positive predicted reduction, a cost that
is finite, and, if the cost before was a measured value, one that lies below this one. -/
theorem lt_of_lt_ratio [ReductionScalar R] {before : Value R} {after promised ratio eta : R}
    (h : reductionRatio before after promised = .ok ratio) (heta : (0.0 : R) ≤ eta)
    (hlt : eta < ratio) :
    (0.0 : R) < promised ∧ Scalar.isFinite after = true ∧
      ∀ x, before = .real x → after < x := by
  unfold reductionRatio at h
  by_cases hc : (0.0 : R) < promised ∧ Scalar.isFinite after = true
  · rw [if_pos hc] at h
    refine ⟨hc.1, hc.2, ?_⟩
    rintro x rfl
    have hratio : Scalar.quotient (x - after) promised = .ok ratio := h
    unfold Scalar.quotient at hratio
    split at hratio
    · cases hratio
    · cases hratio
      -- the quotient exceeds the threshold and so zero, which the sign of the difference follows
      have hpos : (0.0 : R) < (x - after) / promised := by
        rw [OrderedScalar.lt_iff] at hlt ⊢
        exact ⟨OrderedScalar.le_trans heta hlt.1, fun hle =>
          hlt.2 (OrderedScalar.le_trans hle heta)⟩
      exact ReductionScalar.lt_of_sub_pos (ReductionScalar.pos_of_div_pos hpos hc.1)
  · rw [if_neg hc] at h
    cases h
    rw [OrderedScalar.lt_iff] at hlt
    exact absurd heta hlt.2

variable [Space R V] [LinearAction R V M]

/-- The delta of a step that is taken from a state: to a point where the model promises a reduction
and the cost is finite and lower, with the gradient and the Hessian answered there. -/
inductive Takes (op : Operator R V M σ) (s : State R V M) : Delta R V M → Prop
  | intro {x grad step y : V} {cost promised : R} {grad' : Option V} {hessian' : Option M}
      {kv : List (String × Value R)} (point : s.param = some x) (slope : s.grad = some grad)
      (leads : Space.add x step = .ok y)
      (model : predicted grad step s.hessian = .ok promised) (promises : (0.0 : R) < promised)
      (finite : Scalar.isFinite cost = true) (lower : ∀ c, s.cost = .real c → cost < c)
      (costs : (Session.costValue op (some y)).Answers cost)
      (slopes : (Session.gradient op (some y)).Answers grad')
      (bends : (Session.hessian op (some y)).Answers hessian') :
      Takes op s ⟨some y, some (.real cost), grad', hessian', none, kv⟩

/-- The opening delta brings a finite cost and leaves the point as it is. -/
def Opens (_ : State R V M) (d : Delta R V M) : Prop :=
  d.param = none ∧ ∃ c, d.cost = some (.real c) ∧ Scalar.isFinite c = true

variable {op : Operator R V M σ} {sub : Subproblem R V M σ μ} {settings : Settings R}

omit [LinearAction R V M] in
theorem yields_init_opens (s : State R V M) :
    Yields (fun _ => True)
      (init op settings s : Act R (Bench R σ (Memory R μ)) (Option (Delta R V M)))
      fun o => ∃ d, o = some d ∧ Opens s d := by
  unfold init
  refine (Yields.trivial _).bind fun _ _ => (Yields.trivial _).bind fun cost _ => ?_
  refine (Yields.lift _).bind fun _ hfinite => (Yields.trivial _).bind fun grad _ => ?_
  have hcost : Scalar.isFinite cost = true := by
    unfold checkFinite at hfinite
    split at hfinite
    · assumption
    · cases hfinite
  refine (Yields.lift _).bind fun converged _ => Yields.ite (fun _ => ?_) fun _ => ?_
  · exact Yields.pure ⟨_, rfl, rfl, cost, rfl, hcost⟩
  · exact (Yields.trivial _).bind fun hessian _ => Yields.pure ⟨_, rfl, rfl, cost, rfl, hcost⟩

variable [ReductionScalar R]

/-- An iteration whose ratio exceeds the threshold takes its step, and otherwise it stays. -/
theorem takes_or_still_of_iterate (heta : (0.0 : R) ≤ settings.eta) {s : State R V M} {grad : V}
    (hgrad : s.grad = some grad) {b b' : Bench R σ (Memory R μ)} {d : Delta R V M}
    (h : (iterate op sub settings s grad).run b = (.ok d, b')) :
    ∃ x step y cost promised ratio after,
      Trial op sub s grad b x step y cost promised ratio after ∧
      b'.memory =
        ⟨adjust settings b.memory.working ratio (Space.norm step), after.memory.sub⟩ ∧
      d.kv = told b'.memory.working ratio ∧
      (settings.eta < ratio ∧ d.param = some y ∧ Takes op s d ∨
        ¬ settings.eta < ratio ∧ d.Still) := by
  obtain ⟨x, step, y, cost, promised, ratio, after, htrial, hmemory, hanswer⟩ :=
    trial_of_iterate h
  refine ⟨x, step, y, cost, promised, ratio, after, htrial, hmemory, ?_⟩
  rcases hanswer with ⟨htaken, g, hess, hg, hhess, rfl⟩ | ⟨hleft, rfl⟩
  · -- a ratio above a threshold that is not negative means a lower, finite cost
    obtain ⟨hpromised, hfinite, hlower⟩ := lt_of_lt_ratio htrial.measured heta htaken
    obtain ⟨b₁, b₂, -, -, hcost⟩ := htrial.handed
    obtain ⟨t, hcost, -⟩ := Act.run_zoom_eq.mp hcost
    exact ⟨rfl, .inl ⟨htaken, rfl, .intro htrial.point hgrad htrial.leads htrial.model hpromised
      hfinite hlower ⟨_, _, hcost⟩ hg hhess⟩⟩
  · exact ⟨rfl, .inr ⟨hleft, rfl, rfl, rfl, rfl⟩⟩

theorem yields_next_takes (heta : (0.0 : R) ≤ settings.eta) (s : State R V M) :
    Yields (fun _ => True) (next op sub settings s) fun d => Takes op s d ∨ d.Still := by
  intro b d b' _ h
  refine ⟨?_, trivial⟩
  rcases next_eq_ok.mp h with ⟨-, rfl, -⟩ | ⟨-, g, hg, h⟩
  · exact .inr ⟨rfl, rfl, rfl, rfl⟩
  · obtain ⟨x, step, y, cost, promised, ratio, after, -, -, -, hanswer⟩ :=
      takes_or_still_of_iterate heta hg h
    exact hanswer.imp (fun htaken => htaken.2.2) fun hleft => hleft.2

theorem answers (heta : (0.0 : R) ≤ settings.eta) :
    (algorithm op sub settings).toSolver.Answers Opens fun s d => Takes op s d ∨ d.Still where
  init s := Algorithm.yields_onStage (yields_init_opens s)
  next s := Algorithm.yields_next (yields_next_takes heta s)
  terminate _ := Algorithm.yields_onStage (Yields.trivial _)

end TrustRegion

end Descent
