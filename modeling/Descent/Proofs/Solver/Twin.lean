import Descent.Proofs.Quadratic.Conjugate
import Descent.Proofs.Run.Faithful
import Descent.Proofs.Run.Twin
import Descent.Tensor.Solve

/-!
# A function computing products is as good as the matrix

Newton's method and the trust-region method with the Cauchy point ask of a Hessian for its products
with vectors and for nothing else: in the inner conjugate-gradient solve, in the step of the
subproblem and in the reduction that this promises.  So on two operators that differ in what stands
for their Hessians only (`Operator.Twin`) they are twins (`Method.Multiplies.twin`), and their runs
go the same way but for the Hessians in the states (`Method.Multiplies.counterparts_asProducts`).

What does not involve the Hessian, the line searches above all, is the same on both operators, and
hears nothing of what was reported; that is what goes along the course `Session.unheard`.
-/

namespace Descent

open Act LinearAction

variable {R V M σ μ ν α β : Type} [Scalar R] {mem : μ → ν → Prop}

/-! ### Sessions -/

/-- The sessions differ in what was reported only. -/
def Session.Untold (s u : Session R σ) : Prop := s.untold = u.untold

omit [Scalar R] in
theorem Session.related_of_unheard {Q : α → β → Prop} {a : Act R (Session R σ) α}
    {b : Act R (Session R σ) β} (h : (unheard R σ).Beside Q a b) : Related Untold Q a b := by
  intro s u hsu
  obtain ⟨hr, htogether⟩ := h.together (fun _ _ h => h) (fun _ h => h) hsu
  exact ⟨htogether, hr⟩

/-! ### Operators -/

/-- Two operators that differ in their Hessians only, which stand for one map wherever they are
evaluated. -/
structure Operator.Twin [LinearAction R V M] (op op' : Operator R V M σ) : Prop where
  label : op.label = op'.label
  cost : op.cost = op'.cost
  gradient : op.gradient = op'.gradient
  declared : op.declared = op'.declared
  hessian : Option.Rel (fun f f' => ∀ x, Related Eq (SameMaps V) (f x) (f' x)) op.hessian
    op'.hessian

namespace Operator.Twin

variable [LinearAction R V M] {op op' : Operator R V M σ} (h : op.Twin op')

include h

theorem provides (cap : Capability) : op.provides cap = op'.provides cap := by
  have hhess : op.hessian.isSome = op'.hessian.isSome := by
    obtain ⟨-, -, -, -, hhess⟩ := h
    generalize op.hessian = m at hhess
    generalize op'.hessian = m' at hhess
    cases hhess <;> rfl
  have hoffers : op.offers cap = op'.offers cap := by
    cases cap with
    | cost => exact congrArg Option.isSome h.cost
    | gradient => exact congrArg Option.isSome h.gradient
    | hessian => exact hhess
  unfold Operator.provides
  rw [h.declared, hoffers]

theorem evaluate_eq (cap : Capability) (method : Option (V → Act R σ α)) (x : Option V) :
    Session.evaluate op cap method x = Session.evaluate op' cap method x := by
  unfold Session.evaluate Operator.lacking
  rw [h.provides, h.label]

theorem serves_cost : (Session.unheard R σ).Serves op op' .cost where
  provides := h.provides .cost
  evaluates x := by
    have hcost : Session.cost op (some x) = Session.cost op' (some x) := by
      unfold Session.cost
      rw [h.cost, h.evaluate_eq]
    rw [← hcost]
    exact (Session.serves_unheard op .cost).evaluates x

theorem serves_gradient : (Session.unheard R σ).Serves op op' .gradient where
  provides := h.provides .gradient
  evaluates x := by
    have hgrad : Session.gradient op (some x) = Session.gradient op' (some x) := by
      unfold Session.gradient
      rw [h.gradient, h.evaluate_eq]
    rw [← hgrad]
    exact (Session.serves_unheard op .gradient).evaluates x

/-- Both Hessians are refused alike, or charged, and what they are stands for one map. -/
theorem hessian_twin (x : Option V) :
    Related Session.Untold (SameMaps V) (Session.hessian op x) (Session.hessian op' x) := by
  unfold Session.hessian Session.evaluate Operator.lacking
  rw [h.provides, h.label]
  -- both sides are charged before they answer
  have hcharge : Related Session.Untold Eq
      (modify fun s => { s with counts := s.counts.charge .hessian } :
        Act R (Session R σ) PUnit)
      (modify fun s => { s with counts := s.counts.charge .hessian }) := by
    refine .modify fun s u hsu => ?_
    obtain ⟨hcounts, hrest⟩ := Session.untold_eq_iff.mp hsu
    exact Session.untold_eq_iff.mpr ⟨congrArg (·.charge .hessian) hcounts, hrest⟩
  refine Related.ite ((Related.throw _).bind_eq fun _ => ?_) ?_
  all_goals
    refine hcharge.bind_eq fun _ => ?_
    obtain ⟨-, -, -, -, hhess⟩ := h
    generalize op.hessian = m at hhess
    generalize op'.hessian = m' at hhess
    cases hhess with
    | none => exact .throw _
    | some hf =>
      cases x with
      | none => exact .throw _
      | some x =>
        refine (hf x).zoom (fun s u hsu => (Session.untold_eq_iff.mp hsu).2.1) ?_
        rintro s u w _ hsu rfl
        obtain ⟨hcounts, -, hrest⟩ := Session.untold_eq_iff.mp hsu
        exact Session.untold_eq_iff.mpr ⟨hcounts, rfl, hrest⟩

end Operator.Twin

/-! ### Steps on a bench -/

/-- Two benches that differ in their memories, which are related, and in what was reported. -/
structure Bench.Twin (mem : μ → ν → Prop) (b : Bench R σ μ) (b' : Bench R σ ν) : Prop where
  memory : mem b.memory b'.memory
  session : b.session.Untold b'.session

omit [Scalar R] in
theorem Bench.inSession_twin {Q : α → β → Prop} {x : Act R (Session R σ) α}
    {y : Act R (Session R σ) β} (h : Related Session.Untold Q x y) :
    Related (Bench.Twin mem) Q (inSession x) (inSession y) :=
  h.zoom (fun _ _ hb => hb.session) fun _ _ _ _ hb hs => ⟨hb.memory, hs⟩

omit [Scalar R] in
theorem Bench.inMemory_twin {Q : α → β → Prop} {x : Act R μ α} {y : Act R ν β}
    (h : Related mem Q x y) :
    Related (Bench.Twin mem) Q (inMemory x : Act R (Bench R σ μ) α)
      (inMemory y : Act R (Bench R σ ν) β) :=
  h.zoom (fun _ _ hb => hb.memory) fun _ _ _ _ hb hm => ⟨hm, hb.session⟩

section

variable [LinearAction R V M]

theorem Algorithm.onStage_twin {Q : α → β → Prop} {step : State R V M → Act R (Bench R σ μ) α}
    {step' : State R V M → Act R (Bench R σ ν) β}
    (h : ∀ s s', State.Placed State.Twin s s' → Related (Bench.Twin mem) Q (step s) (step' s')) :
    Related (Stage.Twin mem) Q (onStage step) (onStage step') := by
  intro t u htu
  obtain ⟨hb, hr⟩ := h t.state u.state htu.state ⟨t.memory, t.session⟩ ⟨u.memory, u.session⟩
    ⟨htu.memory, htu.session⟩
  exact ⟨⟨hb.memory, htu.state, hb.session⟩, hr⟩

theorem Algorithm.toSolver_twin {a : Algorithm R V M σ μ} {b : Algorithm R V M σ ν}
    (hname : a.name = b.name)
    (hinit : ∀ s s', State.Placed State.Twin s s' →
      Related (Bench.Twin mem) (Option.Rel Delta.Twin) (a.init s) (b.init s'))
    (hnext : ∀ s s', State.Placed State.Twin s s' →
      Related (Bench.Twin mem) Delta.Twin (a.next s) (b.next s'))
    (hterminate : ∀ s s', State.Placed State.Twin s s' →
      Related (Bench.Twin mem) Eq (a.terminate s) (b.terminate s')) :
    Solver.Twin mem a.toSolver b.toSolver where
  name := hname
  init := onStage_twin hinit
  next := onStage_twin fun s s' hs => by
    rw [map_eq_pure_bind, map_eq_pure_bind]
    exact (hnext s s' hs).bind fun d d' hd => .pure (.some hd)
  terminate := onStage_twin hterminate

/-- A solver that keeps its memory in a part of another's. -/
theorem Solver.Twin.widen [Space R V] {ν' : Type} {get : ν → μ} {put : μ → ν} {get' : ν' → μ}
    {put' : μ → ν'} {part : μ → μ → Prop} {whole : ν → ν' → Prop} {a b : Solver R V M σ μ}
    (h : Solver.Twin part a b) (henter : ∀ m m', whole m m' → part (get m) (get' m'))
    (hleave : ∀ x y, part x y → whole (put x) (put' y)) :
    Solver.Twin whole (Method.widen get put a) (Method.widen get' put' b) := by
  have hwithin {γ : Type} {Q : γ → γ → Prop} {x y : Act R (Stage R V M σ μ) γ}
      (hxy : Related (Stage.Twin part) Q x y) :
      Related (Stage.Twin whole) Q (Stage.within get (fun m _ => put m) x)
        (Stage.within get' (fun m _ => put' m) y) :=
    hxy.zoom (fun t u htu => ⟨henter _ _ htu.memory, htu.state, htu.session⟩)
      fun t u v w _ hvw => ⟨hleave _ _ hvw.memory, hvw.state, hvw.session⟩
  exact ⟨h.name, hwithin h.init, hwithin h.next, hwithin h.terminate⟩

end

variable [Space R V] [LinearAction R V M] {op op' : Operator R V M σ}

/-! ### Newton's method -/

/-- The search does not look at the Hessian of the state. -/
def LineSearch.Overlooks (line : LineSearch R V M σ) : Prop :=
  ∀ direction s h, line.search direction (s.withHessian h) = line.search direction s

omit [LinearAction R V M] in
theorem Method.overlooks_lineSearch (op : Operator R V M σ) (m : Method R V M) :
    (m.lineSearch op).Overlooks := by
  cases m <;> exact fun _ _ _ => rfl

omit [LinearAction R V M] in
theorem Descending.advance_withHessian {line : LineSearch R V M σ} (h : line.Overlooks)
    (op : Operator R V M σ) (direction : V) (s : State R V M) (k : Option M) :
    advance op line direction (s.withHessian k) = advance op line direction s := by
  unfold advance
  rw [h]
  rfl

namespace NewtonCG

variable {line line' : LineSearch R V M σ}

theorem direction_twin (settings : Settings R) (grad : Option V) {h h' : Option M}
    (hh : SameMaps V h h') : direction settings grad h = direction settings grad h' := by
  have himage (v : V) : Space.imageUnder h v = Space.imageUnder h' v := by
    cases hh with
    | none => rfl
    | some hm => exact hm v
  unfold direction
  refine bind_congr fun g => bind_congr fun limit => ?_
  exact ConjugateGradient.direction_congr himage g limit

/-- Newton's method multiplies by the Hessian in its inner solve only. -/
theorem twin (hop : op.Twin op') (hline : LineSearch.Beside (Session.unheard R σ) line line')
    (hover : line'.Overlooks) (settings : Settings R) :
    Solver.Twin mem (algorithm op line settings).toSolver
      (algorithm op' line' settings).toSolver := by
  have hcost := hop.serves_cost
  have hgrad := hop.serves_gradient
  refine Algorithm.toSolver_twin rfl (fun s s' hs => ?_) (fun s s' hs => ?_) fun s s' hs => ?_
  all_goals rw [hs.2.rest]
  · refine Bench.inSession_twin ?_
    refine (Session.related_of_unheard (init_beside hcost hgrad settings.tolGrad hs.1)).imp ?_
    rintro o _ rfl
    cases o with
    | none => exact .none
    | some d => exact .some (.refl d)
  · refine Bench.inSession_twin ((hop.hessian_twin s.param).bind fun h h' hh => ?_)
    rw [direction_twin settings _ hh]
    refine (Related.lift _).bind_eq fun d => ?_
    have hadvance : (Session.unheard R σ).Beside Eq (Descending.advance op line d s)
        (Descending.advance op' line' d s) :=
      Descending.advance_beside hcost hgrad hline d hs.1 s.maxIters s.time
    rw [Descending.advance_withHessian hover]
    refine (Session.related_of_unheard hadvance).imp ?_
    rintro d _ rfl
    exact .refl d
  · exact .lift _

end NewtonCG

/-! ### Subproblems -/

/-- A subproblem solver that does the same for Hessians that stand for one map. -/
structure Subproblem.Twin (mem : μ → μ → Prop) (sub : Subproblem R V M σ μ) : Prop where
  solver : Solver.Twin mem sub.solver sub.solver
  setRadius : ∀ r, Related mem Eq (sub.setRadius r) (sub.setRadius r)
  setGrad : ∀ g, Related mem Eq (sub.setGrad g) (sub.setGrad g)
  setHessian : ∀ h h', SameMaps V h h' → Related mem Eq (sub.setHessian h) (sub.setHessian h')

/-- Two models that differ in their Hessians only, which stand for one map. -/
structure Region.Twin (r r' : Region R V M) : Prop where
  radius : r.radius = r'.radius
  grad : r.grad = r'.grad
  hessian : SameMaps V r.hessian r'.hessian

namespace Region

omit [Space R V] in
theorem Twin.refl (r : Region R V M) : r.Twin r := ⟨rfl, rfl, .refl _⟩

/-- The parts of two such models. -/
def PartsTwin (p q : V × M × R) : Prop := p.1 = q.1 ∧ SameMap V p.2.1 q.2.1 ∧ p.2.2 = q.2.2

omit [Space R V] in
theorem Twin.parts {r r' : Region R V M} (h : r.Twin r') (label : String) :
    Agree PartsTwin (r.parts label) (r'.parts label) := by
  obtain ⟨radius, grad, hess⟩ := r
  obtain ⟨radius', grad', hess'⟩ := r'
  obtain ⟨hradius, hgrad, hhess⟩ := h
  dsimp only at hradius hgrad hhess
  subst hradius
  subst hgrad
  unfold Region.parts
  dsimp only
  cases grad with
  | none => exact .error _
  | some g =>
    cases hhess with
    | none => exact .error _
    | some hm =>
      dsimp only
      -- the step is refused for the radius, which both share
      split
      · exact .error _
      · exact .ok ⟨rfl, hm, rfl⟩

end Region

namespace Cauchy

/-- The curvature along the gradient is a product with the Hessian. -/
theorem step_congr (g : V) {h h' : M} (hh : SameMap V h h') (radius : R) :
    step g h radius = step g h' radius := by
  unfold step Space.weightedDot
  rw [hh]

/-- The Cauchy point multiplies by the Hessian only. -/
theorem twin : (subproblem : Subproblem R V M σ (Region R V M)).Twin Region.Twin where
  solver := by
    refine Algorithm.toSolver_twin rfl (fun _ _ _ => .pure .none) (fun _ _ _ => ?_)
      fun s s' hs => ?_
    · refine Related.get.bind fun b b' hb => ?_
      refine (Related.lift_agree (hb.memory.parts _)).bind fun p q hpq => ?_
      obtain ⟨g, h, radius⟩ := p
      obtain ⟨g', h', radius'⟩ := q
      obtain ⟨hg, hm, hradius⟩ := hpq
      dsimp only at hg hm hradius ⊢
      rw [hg, hradius, step_congr _ hm]
      exact (Related.lift _).imp fun d d' hd => hd ▸ .refl d
    · rw [hs.2.rest]
      exact .lift _
  setRadius r := by
    show Related Region.Twin Eq (Region.setRadius r) (Region.setRadius r)
    unfold Region.setRadius
    have hset : Related Region.Twin Eq
        (modify fun t => { t with radius := r } : Act R (Region R V M) PUnit)
        (modify fun t => { t with radius := r }) :=
      .modify fun t u htu => ⟨rfl, htu.grad, htu.hessian⟩
    exact Related.ite ((Related.throw _).bind_eq fun _ => hset) hset
  setGrad g := .modify fun t u htu => ⟨htu.radius, rfl, htu.hessian⟩
  setHessian h h' hh := .modify fun t u htu => ⟨htu.radius, htu.grad, hh⟩

end Cauchy

/-! ### The trust-region method -/

namespace TrustRegion

variable {sub : Subproblem R V M σ μ} {keep : μ → μ → Prop}

/-- Memories with one working radius and related memories of the component. -/
structure Memory.Twin (keep : μ → μ → Prop) (m m' : Memory R μ) : Prop where
  working : m.working = m'.working
  sub : keep m.sub m'.sub

omit [Scalar R] in
theorem setWorking_twin (radius : R) :
    Related (Bench.Twin (Memory.Twin keep)) Eq
      (setWorking radius : Act R (Bench R σ (Memory R μ)) Unit) (setWorking radius) :=
  .modify fun _ _ h => ⟨⟨rfl, h.memory.sub⟩, h.session⟩

omit [Space R V] in
theorem prepare_twin (hsub : sub.Twin keep) (radius : R) (grad : V) {h h' : Option M}
    (hh : SameMaps V h h') :
    Related (Bench.Twin (Memory.Twin keep)) Eq (prepare sub radius grad h)
      (prepare sub radius grad h') := by
  have hgiven : Related keep Eq
      (do sub.setRadius radius; sub.setGrad (some grad); sub.setHessian h)
      (do sub.setRadius radius; sub.setGrad (some grad); sub.setHessian h') :=
    (hsub.setRadius _).bind_eq fun _ => (hsub.setGrad _).bind_eq fun _ => hsub.setHessian _ _ hh
  exact Bench.inMemory_twin
    (hgiven.zoom (fun _ _ hm => hm.sub) fun _ _ _ _ hm hx => ⟨hm.working, hx⟩)

theorem solveModel_twin (hop : op.Twin op') (hsub : sub.Twin keep) (grad : V) :
    Related (Bench.Twin (Memory.Twin keep)) Eq (solveModel op sub grad)
      (solveModel op' sub grad) := by
  rw [solveModel_eq, solveModel_eq,
    Executor.check_eq_of_provides fun cap _ => hop.provides cap]
  refine (Related.lift _).bind_eq fun _ => ?_
  refine Related.bind (Q := Outcome.Alike State.Twin) ?_ fun o o' ho => ?_
  · refine (Executor.run_twin hsub.solver).zoom (fun b b' hb => ?_) fun b b' e e' hb he => ?_
    · exact ⟨rfl, rfl, nofun, rfl, hb.memory.sub, .refl _, hb.session, .nil⟩
    · exact ⟨⟨hb.memory.working, he.memory⟩, he.session⟩
  · have hparam : o'.state.param = o.state.param := ho.state.same fun _ _ => rfl
    rw [hparam]
    exact .lift _

/-- The reduction that a step promises is that of its product with the Hessian. -/
theorem predicted_congr (grad step : V) {h h' : Option M} (hh : SameMaps V h h') :
    predicted grad step h = predicted grad step h' := by
  cases hh with
  | none => rfl
  | some hm =>
    unfold predicted Space.weightedDot
    dsimp only
    rw [hm]

variable (hop : op.Twin op') (settings : Settings R)

include hop

theorem init_twin {s s' : State R V M} (hs : State.Placed State.Twin s s') :
    Related (Bench.Twin (Memory.Twin keep)) (Option.Rel Delta.Twin) (init op settings s)
      (init op' settings s') := by
  have hcost := hop.serves_cost
  have hgrad := hop.serves_gradient
  rw [hs.2.rest]
  obtain ⟨x, hx⟩ := Option.isSome_iff_exists.mp hs.1
  have hx' : (s.withHessian s'.hessian).param = some x := hx
  unfold init
  rw [hx, hx']
  refine (setWorking_twin _).bind_eq fun _ => ?_
  refine (Bench.inSession_twin (Session.related_of_unheard
    (Session.costValue_beside hcost x))).bind_eq fun cost => (Related.lift _).bind_eq fun _ => ?_
  refine (Bench.inSession_twin (Session.related_of_unheard (hgrad.evaluates x))).bind_eq
    fun grad => (Related.lift _).bind_eq fun converged => ?_
  refine Related.ite (.pure (.some (.refl _))) ?_
  refine (Bench.inSession_twin (hop.hessian_twin (some x))).bind fun h h' hh => ?_
  exact .pure (.some ⟨hh, rfl⟩)

theorem iterate_twin (hsub : sub.Twin keep) {s s' : State R V M}
    (hs : State.Placed State.Twin s s') (grad : V) :
    Related (Bench.Twin (Memory.Twin keep)) Delta.Twin (iterate op sub settings s grad)
      (iterate op' sub settings s' grad) := by
  have hcost := hop.serves_cost
  have hgrad := hop.serves_gradient
  have hparam : s'.param = s.param := hs.2.same fun _ _ => rfl
  have hbefore : s'.cost = s.cost := hs.2.same fun _ _ => rfl
  unfold iterate
  -- the states differ in their Hessians alone, which only the products see
  rw [hparam, hbefore]
  refine Related.get.bind fun b b' hb => ?_
  rw [hb.memory.working]
  refine (prepare_twin hsub _ _ hs.2.hessian).bind_eq fun _ => ?_
  refine (solveModel_twin hop hsub grad).bind_eq fun step => (Related.lift _).bind_eq fun y => ?_
  refine (Bench.inSession_twin (Session.related_of_unheard
    (Session.costValue_beside hcost y))).bind_eq fun cost => ?_
  rw [predicted_congr _ _ hs.2.hessian]
  refine (Related.lift _).bind_eq fun promised => (Related.lift _).bind_eq fun ratio => ?_
  refine (setWorking_twin _).bind_eq fun _ => Related.ite ?_ (.pure (.refl _))
  refine (Bench.inSession_twin (Session.related_of_unheard (hgrad.evaluates y))).bind_eq
    fun grad => ?_
  refine (Bench.inSession_twin (hop.hessian_twin (some y))).bind fun h h' hh => ?_
  exact .pure ⟨hh, rfl⟩

/-- The trust-region method multiplies by the Hessian in what it promises, and is for the rest as
its component is. -/
theorem twin (hsub : sub.Twin keep) :
    Solver.Twin (Memory.Twin keep) (algorithm op sub settings).toSolver
      (algorithm op' sub settings).toSolver := by
  refine Algorithm.toSolver_twin rfl (fun s s' hs => init_twin hop settings hs)
    (fun s s' hs => ?_) fun s s' hs => ?_
  · have hgrad : s'.grad = s.grad := hs.2.same fun _ _ => rfl
    show Related _ Delta.Twin (next op sub settings s) (next op' sub settings s')
    unfold next
    rw [hgrad]
    refine (Related.lift _).bind_eq fun converged => Related.ite (.pure (.refl _)) ?_
    exact (Related.lift _).bind_eq fun grad => iterate_twin hop settings hsub hs grad
  · rw [hs.2.rest]
    exact .lift _

end TrustRegion

/-! ### Methods -/

/-- Two memories that differ in the Hessians of the models they keep, which stand for one map. -/
inductive Memory.Twin : Memory R V M → Memory R V M → Prop
  | same (m : Memory R V M) : Twin m m
  | region {r r' : Region R V M} (h : r.Twin r') : Twin (.region r) (.region r')
  | trust (working : R) {m m' : Memory R V M} (h : Twin m m') :
    Twin (.trust working m) (.trust working m')

namespace Memory.Twin

variable {m m' : Memory R V M}

omit [Space R V] in
theorem model (h : m.Twin m') : m.model.Twin m'.model := by
  cases h with
  | same => exact .refl _
  | region h => exact h
  | trust => exact .refl _

omit [Space R V] in
theorem trusted (h : m.Twin m') (radius : R) :
    TrustRegion.Memory.Twin Twin (m.trusted radius) (m'.trusted radius) := by
  cases h with
  | same => exact ⟨rfl, .same _⟩
  | region => exact ⟨rfl, .same _⟩
  | trust _ h => exact ⟨rfl, h⟩

end Memory.Twin

namespace Method

theorem cauchy_twin : (cauchy.subproblem : Subproblem R V M σ _).Twin Memory.Twin := by
  have hmodel {x y : Act R (Region R V M) Unit} (hxy : Related Region.Twin Eq x y) :
      Related Memory.Twin Eq (onModel x) (onModel y) :=
    hxy.zoom (fun _ _ h => h.model) fun _ _ _ _ _ h => .region h
  have hcauchy : (Cauchy.subproblem : Subproblem R V M σ _).Twin Region.Twin := Cauchy.twin
  exact ⟨hcauchy.solver.widen (fun _ _ h => h.model) fun _ _ h => .region h,
    fun r => hmodel (hcauchy.setRadius r), fun g => hmodel (hcauchy.setGrad g),
    fun h h' hh => hmodel (hcauchy.setHessian h h' hh)⟩

/-- A method that multiplies by the Hessian and does nothing else with it. -/
inductive Multiplies : Method R V M → Prop
  | newtonCG (line : Method R V M) (settings : NewtonCG.Settings R) :
    Multiplies (.newtonCG line settings)
  | trustRegion (settings : TrustRegion.Settings R) : Multiplies (.trustRegion .cauchy settings)

theorem Multiplies.requires_eq {m : Method R V M} (hm : m.Multiplies)
    {a : Solver R V M σ (Memory R V M)} (ha : m.solver op = some a) :
    a.requires = [.cost, .gradient, .hessian] := by
  cases hm <;> cases ha <;> rfl

/-- On operators that differ in what stands for their Hessians only such a method is its own
twin. -/
theorem Multiplies.twin [Nonempty (Session R σ)] {m : Method R V M} (hm : m.Multiplies)
    {a b : Solver R V M σ (Memory R V M)} (ha : m.solver op = some a) (hb : m.solver op' = some b)
    (hop : op.Twin op') : Solver.Twin Memory.Twin a b := by
  cases hm with
  | newtonCG line settings =>
    cases ha
    cases hb
    exact NewtonCG.twin hop (lineSearch_beside hop.serves_cost hop.serves_gradient line)
      (line.overlooks_lineSearch op') settings
  | trustRegion settings =>
    cases ha
    cases hb
    exact (TrustRegion.twin hop settings cauchy_twin).widen (fun _ _ h => h.trusted _)
      fun x y h => h.working ▸ .trust _ h.sub

end Method

/-! ### Functions in the place of matrices -/

/-- The Hessian, the function that multiplies by it where it is a matrix. -/
def Curvature.asFunction : Curvature R → Curvature R
  | matrix t => function t.product
  | function product => function product

omit [Space R V] [LinearAction R V M] in
theorem Curvature.sameMap_asFunction (h : Curvature R) :
    SameMap (Tensor R) h h.asFunction := by
  cases h with
  | matrix t => exact fun _ => rfl
  | function product => exact fun _ => rfl

/-- The operator that answers with the function `v ↦ H v` where this one answers with a matrix
`H`, and is the same otherwise. -/
def Operator.asProducts (op : Operator R (Tensor R) (Curvature R) σ) :
    Operator R (Tensor R) (Curvature R) σ :=
  { op with hessian := op.hessian.map fun f x => Option.map Curvature.asFunction <$> f x }

omit [Space R V] [LinearAction R V M] in
theorem Operator.twin_asProducts (op : Operator R (Tensor R) (Curvature R) σ) :
    op.Twin op.asProducts := by
  refine ⟨rfl, rfl, rfl, rfl, ?_⟩
  show Option.Rel _ op.hessian (op.hessian.map _)
  cases op.hessian with
  | none => exact .none
  | some f =>
    refine .some fun x => ?_
    have hsame : Related Eq (SameMaps (Tensor R)) (f x >>= pure)
        (f x >>= fun h => pure (h.map Curvature.asFunction)) := by
      refine (Related.refl (f x)).bind_eq fun h => .pure ?_
      cases h with
      | none => exact .none
      | some h => exact .some h.sameMap_asFunction
    show Related Eq _ (f x) (Option.map Curvature.asFunction <$> f x)
    rw [bind_pure] at hsame
    rw [map_eq_pure_bind]
    exact hsame

omit [Space R V] [LinearAction R V M] in
/-- **A function computing products is as good as the matrix.**  Newton's method, with whatever line
search, and the trust-region method with the Cauchy point are run on an operator and on the one that
answers with the function `v ↦ H v` for each matrix `H`, from executors that are twins: the same
one, say.  Both operators are accepted or refused alike.  Wherever one run has been the other one
has been, too, in states that differ in their Hessians only, with the same evaluations charged and
made.  Both end with the same fault, or with outcomes that differ in the Hessians of their states
only, and leave such executors. -/
theorem Method.Multiplies.counterparts_asProducts {m : Method R (Tensor R) (Curvature R)}
    (hm : m.Multiplies) {op : Operator R (Tensor R) (Curvature R) σ}
    {a b : Solver R (Tensor R) (Curvature R) σ (Memory R (Tensor R) (Curvature R))}
    (ha : m.solver op = some a) (hb : m.solver op.asProducts = some b)
    {e e' : Executor R (Tensor R) (Curvature R) σ (Memory R (Tensor R) (Curvature R))}
    (he : e.Likened Memory.Twin State.Twin e') :
    Executor.check op a.name a.requires = Executor.check op.asProducts b.name b.requires ∧
      Executor.Counterparts Memory.Twin a b e e' := by
  have : Nonempty (Session R σ) := ⟨e.stage.session⟩
  have htwin : Solver.Twin Memory.Twin a b := hm.twin ha hb op.twin_asProducts
  have hrequires : a.requires = b.requires := (hm.requires_eq ha).trans (hm.requires_eq hb).symm
  refine ⟨?_, Executor.counterparts htwin he⟩
  rw [htwin.name, hrequires]
  exact Executor.check_eq_of_provides fun cap _ => op.twin_asProducts.provides cap

namespace Executor

/-- The trust-region method with Cauchy points, on the bowl with functions for its Hessians. -/
def productSolver : Solver Float (Tensor Float) (Curvature Float) Unit
    (Memory Float (Tensor Float) (Curvature Float)) :=
  Method.widen (Memory.trusted 1.0) (fun m => .trust m.working m.sub)
    (TrustRegion.algorithm bowl.asProducts (Method.subproblem .cauchy) cauchyTrust).toSolver

/-- A trust-region run down the bowl, whose states are kept, converges in two iterations on products
as it does on matrices. -/
theorem counterparts_asProducts_bowl :
    let e : Executor Float (Tensor Float) (Curvature Float) Unit
        (Memory Float (Tensor Float) (Curvature Float)) :=
      ready .plain ⟨{}, (), [], true, 0.0⟩ { param := some (.vector .numpy [2.0]) }
        [{ observer := .history }]
    Counterparts Memory.Twin cauchySolver productSolver e e ∧
      ((run productSolver).run e).1.toOption.map (fun o => (o.state.reason, o.counts)) =
        some (.converged, ⟨3, 3, 3⟩) ∧
      ((run productSolver).run e).2.notices.length = 2 := by
  intro e
  have hm : (Method.trustRegion .cauchy cauchyTrust :
      Method Float (Tensor Float) (Curvature Float)).Multiplies := .trustRegion cauchyTrust
  -- the history looks at no Hessian
  have hunswayed : ∀ entry ∈ e.observers, entry.observer.Unswayed := by
    intro entry hentry
    rw [List.mem_singleton.mp hentry]
    exact fun _ _ _ => rfl
  have he : e.Likened Memory.Twin State.Twin e :=
    ⟨rfl, rfl, hunswayed, rfl, .same _, .refl _, rfl, .nil⟩
  have hmatrix : (Method.trustRegion .cauchy cauchyTrust).solver bowl = some cauchySolver := rfl
  have hproducts : (Method.trustRegion .cauchy cauchyTrust).solver bowl.asProducts =
      some productSolver := rfl
  refine ⟨(hm.counterparts_asProducts hmatrix hproducts he).2, ?_, ?_⟩
  · decide +kernel
  · decide +kernel

end Executor

end Descent
