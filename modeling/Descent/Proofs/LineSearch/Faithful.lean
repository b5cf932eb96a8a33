import Descent.LineSearch.Ray
import Descent.Proofs.LineSearch.Rules
import Descent.Proofs.Scalar.Order
import Descent.Proofs.State.Faithful

/-!
# What the line searches hand back

A ray is looked up by comparing step lengths, and two of them can be equal in the order without
being the same: the two zeros are, and they may lead to different points.  The step lengths of a
search are ahead, and among these the order tells all apart.  So on a ray all of whose entries are
ahead what is found for a step length was met at that very step length (`Ray.Holds.known`), and
`Probe.cost` and `Probe.gradient` answer with the value at the point whether they look it up or
evaluate it.

A line search is faithful if the cost and the gradient it hands back with a step length are those
at the point this one leads to (`LineSearch.Faithful`).  Both searches are, when the constants their
step lengths are made of are ahead: every trial, every end of a bracket and every middle of one is
ahead then, and what is read from the ray is what was met there.
-/

namespace Descent

open Act (Yields)

variable {R V M σ α : Type} [Scalar R] [Space R V]

/-! ### What a ray remembers -/

/-- What a step length says of the point it leads to is so. -/
structure StepLength.Faithful (l : Landscape R V M) (x : Option V) (direction : V)
    (step : StepLength R V) : Prop where
  cost : ∀ c, step.cost = some c → l.costAt (Probe.point x direction step.alpha) = .ok c
  grad : ∀ g, step.grad = some g →
    l.gradientAt (Probe.point x direction step.alpha) = .ok (some g)

namespace StepLength

variable {l : Landscape R V M} {x : Option V} {direction : V} {alpha cost : R} {grad : Option V}

/-- A step length with the cost at the point it leads to, and with no gradient or the one there. -/
theorem faithful_of_cost (hcost : l.costAt (Probe.point x direction alpha) = .ok cost)
    (hgrad : ∀ g, grad = some g →
      l.gradientAt (Probe.point x direction alpha) = .ok (some g)) :
    StepLength.Faithful l x direction ⟨alpha, some cost, grad⟩ where
  cost c hc := by
    cases hc
    exact hcost
  grad := hgrad

/-- A step length with what was evaluated at the point it leads to. -/
theorem faithful_of_gradient (hcost : l.costAt (Probe.point x direction alpha) = .ok cost)
    (hgrad : l.gradientAt (Probe.point x direction alpha) = .ok grad) :
    StepLength.Faithful l x direction ⟨alpha, some cost, grad⟩ := by
  refine faithful_of_cost hcost fun g hg => ?_
  rw [hgrad, hg]

end StepLength

variable [DirectedScalar R]

open DirectedScalar (Ahead)

namespace Ray

variable {x : Option V} {direction : V} {alpha : R}

/-- Every entry is of a step length that is ahead, and is what `f` has at the point it leads to. -/
def Holds (f : Except (Fault R) V → Except (Fault R) α) (x : Option V) (direction : V)
    (entries : List (R × α)) : Prop :=
  ∀ a v, (a, v) ∈ entries → Ahead a ∧ f (Probe.point x direction a) = .ok v

section Holds

variable {f : Except (Fault R) V → Except (Fault R) α} {entries : List (R × α)} {v : α}

/-- What is found for a step length that is ahead was met at that one. -/
theorem Holds.known (h : Holds f x direction entries) (halpha : Ahead alpha)
    (hv : Ray.known alpha entries = some v) : f (Probe.point x direction alpha) = .ok v := by
  induction entries with
  | nil => cases hv
  | cons entry rest ih =>
    obtain ⟨a, w⟩ := entry
    unfold Ray.known at hv
    by_cases hmet : a ≤ alpha ∧ alpha ≤ a
    · rw [if_pos hmet] at hv
      cases hv
      obtain ⟨ha, hfa⟩ := h a v List.mem_cons_self
      -- being ahead is what makes the entry's step length this one and not only equal to it
      have hsame : a = alpha := DirectedScalar.eq_of_le_of_le ha halpha hmet.1 hmet.2
      rw [← hsame]
      exact hfa
    · rw [if_neg hmet] at hv
      exact ih (fun a v hav => h a v (List.mem_cons_of_mem _ hav)) hv

theorem Holds.add (h : Holds f x direction entries) (halpha : Ahead alpha)
    (hv : f (Probe.point x direction alpha) = .ok v) :
    Holds f x direction ((alpha, v) :: entries) := by
  intro a w haw
  rcases List.mem_cons.mp haw with heq | hrest
  · cases heq
    exact ⟨halpha, hv⟩
  · exact h a w hrest

end Holds

/-- The costs and the gradients that are kept are those at the points. -/
structure Faithful (l : Landscape R V M) (x : Option V) (direction : V) (ray : Ray R V) :
    Prop where
  costs : Holds l.costAt x direction ray.costs
  grads : Holds l.gradientAt x direction ray.grads

variable {l : Landscape R V M} {ray : Ray R V}

theorem faithful_empty : Faithful l x direction ({} : Ray R V) := ⟨nofun, nofun⟩

/-- The ray's record of a step length that is ahead. -/
theorem Faithful.stepLength (h : ray.Faithful l x direction) (halpha : Ahead alpha) :
    (ray.stepLength alpha).Faithful l x direction where
  cost _ hc := h.costs.known halpha hc
  grad _ hg := h.grads.known halpha (Option.join_eq_some_iff.mp hg)

end Ray

/-! ### Evaluating along a ray -/

namespace Probe

variable {op : Operator R V M σ} {l : Landscape R V M} {x : Option V} {direction : V} {alpha : R}

/-- The ray of the probe is faithful. -/
def Faithful (l : Landscape R V M) (x : Option V) (direction : V) (p : Probe R V σ) : Prop :=
  p.ray.Faithful l x direction

/-- What a session answers it answers a probe, whose ray it leaves alone. -/
theorem yields_inSession {a : Act R (Session R σ) α} {Q : α → Prop}
    (h : Yields (fun _ => True) a Q) :
    Yields (Faithful l x direction) (inSession a : Act R (Probe R V σ) α) Q :=
  h.zoom (fun _ _ => ⟨⟩) fun _ _ hp _ => hp

/-- The cost at a step length is the one at its point, met before or not. -/
theorem yields_cost (hop : op.Follows l) (halpha : Ahead alpha) :
    Yields (Faithful l x direction) (cost op x direction alpha)
      (fun c => l.costAt (point x direction alpha) = .ok c) := by
  unfold cost
  refine Yields.get.bind fun p hp => ?_
  cases hknown : Ray.known alpha p.ray.costs with
  | some c => exact Yields.pure (hp.costs.known halpha hknown)
  | none =>
    -- not met before: it is evaluated, and the ray keeps it
    refine (Yields.lift _).bind fun y hy => ?_
    refine (yields_inSession (Session.yields_costValue hop _)).bind fun c hc => ?_
    have hc' : l.costAt (point x direction alpha) = .ok c := by rw [hy]; exact hc
    refine Yields.bind (Yields.modify fun q hq => ?_) fun _ _ => Yields.pure hc'
    exact ⟨hq.costs.add halpha hc', hq.grads⟩

/-- The gradient at a step length is the one at its point, met before or not. -/
theorem yields_gradient (hop : op.Follows l) (halpha : Ahead alpha) :
    Yields (Faithful l x direction) (gradient op x direction alpha)
      (fun g => l.gradientAt (point x direction alpha) = .ok g) := by
  unfold gradient
  refine Yields.get.bind fun p hp => ?_
  cases hknown : Ray.known alpha p.ray.grads with
  | some g => exact Yields.pure (hp.grads.known halpha hknown)
  | none =>
    refine (Yields.lift _).bind fun y hy => ?_
    refine (yields_inSession (Session.yields_gradient hop _)).bind fun g hg => ?_
    have hg' : l.gradientAt (point x direction alpha) = .ok g := by rw [hy]; exact hg
    refine Yields.bind (Yields.modify fun q hq => ?_) fun _ _ => Yields.pure hg'
    exact ⟨hq.costs, hq.grads.add halpha hg'⟩

theorem yields_stepLength (halpha : Ahead alpha) :
    Yields (Faithful l x direction) (stepLength alpha : Act R (Probe R V σ) _)
      (StepLength.Faithful l x direction) := by
  unfold stepLength
  exact Yields.get.bind fun p hp => Yields.pure (hp.stepLength halpha)

end Probe

end Descent

namespace Descent

open Act (Triple Yields)
open DirectedScalar (Ahead)

variable {R V M σ α : Type} [Scalar R] [Space R V]

/-! ### The searches -/

/-- What the search hands back with a step length is so at the point this one leads to. -/
def LineSearch.Faithful (l : Landscape R V M) (line : LineSearch R V M σ) : Prop :=
  ∀ direction s, Yields (fun _ => True) (line.search direction s)
    (StepLength.Faithful l s.param direction)

variable [DirectedScalar R] {op : Operator R V M σ} {l : Landscape R V M} {x : Option V}
  {direction : V}

/-- A search begins with an empty ray. -/
theorem LineSearch.yields_along {a : Act R (Probe R V σ) α} {Q : α → Prop}
    (h : Yields (Probe.Faithful l x direction) a Q) :
    Yields (fun _ => True) (LineSearch.along a) Q := by
  intro s y s' _ hy
  have hrun : (a.run ⟨{}, s⟩).1 = .ok y := congrArg Prod.fst hy
  exact ⟨(h ⟨{}, s⟩ y (a.run ⟨{}, s⟩).2 Ray.faithful_empty (Prod.ext hrun rfl)).1, ⟨⟩⟩

namespace Backtracking

/-- The first step length and the factor are ahead. -/
structure Ahead (b : Backtracking R) : Prop where
  alpha0 : DirectedScalar.Ahead b.alpha0
  rho : DirectedScalar.Ahead b.rho

variable {b : Backtracking R}

/-- Every trial begins with a step length that is ahead. -/
theorem yields_trials (hop : op.Follows l) (hb : b.Ahead) (cost slope : R) (N : ℕ) :
    Yields (Probe.Faithful l x direction) (b.trials op x direction cost slope N b.alpha0)
      (StepLength.Faithful l x direction) := by
  refine (triple_trials
    (J := fun _ alpha t => DirectedScalar.Ahead alpha ∧ t.Faithful l x direction)
    (fun t ht => ⟨hb.alpha0, ht⟩) (fun k _ alpha => Triple.assume fun halpha => ?_) ?_).yields
  · refine (Probe.yields_cost hop halpha).triple.post fun trial t ht => ?_
    split
    · exact ⟨StepLength.faithful_of_cost ht.1 nofun, ht.2⟩
    · exact ⟨DirectedScalar.ahead_mul halpha hb.rho, ht.2⟩
  · rintro alpha t ⟨halpha, ht⟩
    exact ⟨⟨fun c hc => ht.costs.known halpha hc, nofun⟩, ht⟩

theorem faithful_lineSearch (hop : op.Follows l) (hb : b.Ahead) :
    (b.lineSearch op).Faithful l := by
  intro direction s
  show Yields _ (b.search op direction s) _
  unfold search
  refine (Yields.trivial _).bind fun current _ => (Yields.trivial _).bind fun slope _ => ?_
  exact LineSearch.yields_along (b.yields_trials hop hb _ _ _)

end Backtracking

namespace Wolfe

variable {w : Wolfe R} {line : Line R V}

/-- A step length that was met along the line. -/
abbrev Met (l : Landscape R V M) (line : Line R V) : StepLength R V → Prop :=
  StepLength.Faithful l line.origin line.direction

/-- Both ends of a bracket are ahead. -/
structure Bracket.Ahead (b : Bracket R) : Prop where
  alo : DirectedScalar.Ahead b.alo
  ahi : DirectedScalar.Ahead b.ahi

theorem Bracket.Ahead.middle {b : Bracket R} (hb : b.Ahead) :
    DirectedScalar.Ahead b.middle :=
  DirectedScalar.ahead_mul DirectedScalar.ahead_half (DirectedScalar.ahead_add hb.alo hb.ahi)

/-- The gradient that comes with a slope is the one at the point. -/
theorem yields_slopeAt (hop : op.Follows l) {alpha : R} (halpha : DirectedScalar.Ahead alpha) :
    Yields (Probe.Faithful l line.origin line.direction) (slopeAt op line alpha)
      (fun m => l.gradientAt (Probe.point line.origin line.direction alpha) = .ok m.1) := by
  unfold slopeAt
  refine (Probe.yields_gradient hop halpha).bind fun grad hgrad => ?_
  exact (Yields.lift _).bind fun slope _ => Yields.pure hgrad

section

variable (hop : op.Follows l)

include hop

/-- A pass leaves a bracket that is ahead. -/
theorem triple_pass_faithful {b : Bracket R} (hb : b.Ahead) :
    Triple (Probe.Faithful l line.origin line.direction) (fun _ => True) (w.pass op line b)
      (Pass.Leads (fun step t => Met l line step ∧ t.Faithful l line.origin line.direction)
        fun b tried t => (b.Ahead ∧ t.Faithful l line.origin line.direction) ∧
          Met l line tried) := by
  refine triple_pass (G := fun trial m t => Met l line ⟨b.middle, some trial, m.1⟩ ∧
    t.Faithful l line.origin line.direction) rfl (Probe.yields_cost hop hb.middle).triple
    ?_ ?_ ?_ ?_
  · rintro trial t ⟨htrial, ht⟩ -
    -- no gradient is evaluated here, but one may have been met at this step length before
    have hmet : Met l line ⟨b.middle, some trial, (Ray.known b.middle t.ray.grads).join⟩ :=
      StepLength.faithful_of_cost htrial (ht.stepLength hb.middle).grad
    exact ⟨⟨⟨hb.alo, hb.middle⟩, ht⟩, hmet⟩
  · refine fun trial _ => Triple.assume fun htrial => ?_
    refine (yields_slopeAt hop hb.middle).triple.post fun m t ht => ⟨?_, ht.2⟩
    exact StepLength.faithful_of_gradient htrial ht.1
  · exact fun _ _ _ _ ht _ => ht
  · rintro trial grad slope t ⟨hmet, ht⟩ -
    refine ⟨⟨⟨hb.middle, ?_⟩, ht⟩, hmet⟩
    -- the other end of the narrowed bracket is one of the ends there were
    dsimp only
    split
    · exact hb.alo
    · exact hb.ahi

omit hop in
theorem yields_settle {b : Bracket R} (hb : b.Ahead) {tried : StepLength R V}
    (htried : Met l line tried) :
    Yields (Probe.Faithful l line.origin line.direction)
      (settle b tried : Act R (Probe R V σ) _) (Met l line) :=
  Yields.ite (fun _ => Probe.yields_stepLength hb.alo) fun _ => Yields.pure htried

/-- The bracket of a zoom stays ahead. -/
theorem yields_zoomInto {b : Bracket R} (hb : b.Ahead) :
    Yields (Probe.Faithful l line.origin line.direction) (w.zoomInto op line b) (Met l line) := by
  refine (triple_zoomInto (J := fun _ b t => b.Ahead ∧ t.Faithful l line.origin line.direction)
    (T := fun _ tried _ => Met l line tried) (fun t ht => ⟨hb, ht⟩) ?_ ?_).yields
  · exact fun j _ b => Triple.assume fun hb => triple_pass_faithful hop hb
  · rintro j b tried - - - t ⟨⟨hb, ht⟩, htried⟩
    exact (yields_settle hb htried).triple t ht

/-- The length of the last trial is one end of every bracket that is zoomed into. -/
theorem yields_trials (hw : Ahead w.alpha0) (N : ℕ) (first : Bool) (costBefore : R) :
    Yields (Probe.Faithful l line.origin line.direction)
      (w.trials op line N first 0.0 costBefore w.alpha0) (Met l line) := by
  refine (triple_trials (J := fun _ _ previous _ alpha t =>
      (Ahead previous ∧ Ahead alpha) ∧ t.Faithful l line.origin line.direction)
    (B := fun b t => b.Ahead ∧ t.Faithful l line.origin line.direction)
    (fun t ht => ⟨⟨DirectedScalar.ahead_zero, hw⟩, ht⟩) ?_ ?_ ?_).yields
  · -- whatever the trials were, what is kept of them came from the problem
    refine fun k _ first previous costBefore alpha => Triple.assume ?_
    rintro ⟨hprevious, halpha⟩
    refine triple_trial (G := fun trial m t => Met l line ⟨alpha, some trial, m.1⟩ ∧
      t.Faithful l line.origin line.direction) (Probe.yields_cost hop halpha).triple ?_ ?_ ?_ ?_ ?_
    · exact fun trial t ht _ => ⟨⟨hprevious, halpha⟩, ht.2⟩
    · refine fun trial _ => Triple.assume fun htrial => ?_
      refine (yields_slopeAt hop halpha).triple.post fun m t ht => ⟨?_, ht.2⟩
      exact StepLength.faithful_of_gradient htrial ht.1
    · exact fun _ _ _ _ ht _ => ht
    · exact fun _ _ _ _ ht _ _ => ⟨⟨halpha, hprevious⟩, ht.2⟩
    · exact fun _ _ _ _ ht _ _ =>
        ⟨⟨halpha, DirectedScalar.ahead_mul halpha DirectedScalar.ahead_two⟩, ht.2⟩
  · -- without trials left the step is what the record holds at its length
    rintro first previous costBefore alpha t ⟨⟨-, halpha⟩, ht⟩
    exact ⟨ht.stepLength halpha, ht⟩
  · exact fun b => Triple.assume fun hb => (yields_zoomInto hop hb).triple

end

theorem faithful_lineSearch (hop : op.Follows l) (hw : Ahead w.alpha0) :
    (w.lineSearch op).Faithful l := by
  intro direction s
  show Yields _ (w.search op direction s) _
  unfold search
  refine (Yields.trivial _).bind fun current _ => (Yields.trivial _).bind fun slope _ => ?_
  refine Yields.ite (fun _ => (Yields.throw _).bind fun _ h => False.elim h) fun _ => ?_
  exact LineSearch.yields_along (yields_trials hop hw _ _ _)

end Wolfe

end Descent
