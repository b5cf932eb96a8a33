import Descent.LineSearch.Backtracking
import Descent.LineSearch.Wolfe
import Descent.Proofs.Act.Triple

/-!
# Rules for line searches

What a line search is known for at each of its steps it is known for in the end.  The rules of this
module say so once, whatever is known: of the trials of backtracking (`Backtracking.triple_trials`),
of the passes of a zoom (`Wolfe.triple_zoomInto`) and of the trials of a strong Wolfe search
(`Wolfe.triple_trials`).  An invariant is indexed by the number of steps that were made.

A pass and a trial are made up of the same parts, a cost and, unless that is rejected, a slope with
its gradient (`Wolfe.slopeAt`).  What they come to then is said in `Wolfe.triple_pass` and in
`Wolfe.triple_trial`.

The trials of a strong Wolfe search come to a step length or to a bracket (`Wolfe.bracketing`), and
a bracket is zoomed into (`Wolfe.trials_eq`).

Before its first trial a search takes the cost and the gradient from the state, and has evaluated
what the state does not know (`LineSearch.triple_current`).
-/

namespace Descent

open Act (Triple)

variable {R V M σ : Type} [Scalar R] [Space R V] {p : Fault R → Prop} {op : Operator R V M σ}

/-! ### The point of a state -/

namespace LineSearch

variable {s : State R V M}

omit [Space R V]

/-- The cost at the point of a state, which is asked for where the state does not know it. -/
def costAt (op : Operator R V M σ) (s : State R V M) : Act R (Session R σ) R := do
  let known ← Act.lift s.cost.measured
  if Scalar.isNaN known then Session.costValue op s.param else pure known

/-- The gradient at the point of a state, which is asked for where the state has none. -/
def gradientAt (op : Operator R V M σ) (s : State R V M) : Act R (Session R σ) (Option V) :=
  match s.grad with
  | some g => pure (some g)
  | none => Session.gradient op s.param

theorem costAt_of_known {known : R} (h : s.cost.measured = .ok known)
    (hknown : Scalar.isNaN known = false) : costAt op s = pure known := by
  unfold costAt
  rw [h]
  show (if Scalar.isNaN known = true then Session.costValue op s.param else pure known) = _
  rw [hknown]
  rfl

theorem costAt_of_unknown {known : R} (h : s.cost.measured = .ok known)
    (hunknown : Scalar.isNaN known = true) : costAt op s = Session.costValue op s.param := by
  unfold costAt
  rw [h]
  exact if_pos hunknown

theorem gradientAt_of_some {g : V} (h : s.grad = some g) : gradientAt op s = pure (some g) := by
  unfold gradientAt
  rw [h]

theorem gradientAt_of_none (h : s.grad = none) :
    gradientAt op s = Session.gradient op s.param := by
  unfold gradientAt
  rw [h]

/-- A search begins with the cost, and then the gradient. -/
theorem current_eq (op : Operator R V M σ) (s : State R V M) :
    current op s = costAt op s >>= fun cost => gradientAt op s >>= fun grad =>
      pure (cost, grad) := by
  unfold current costAt gradientAt
  rw [bind_assoc]
  refine bind_congr fun known => ?_
  cases Scalar.isNaN known <;> cases s.grad <;> rfl

theorem triple_current {I : Session R σ → Prop} {C : R → Session R σ → Prop}
    {Q : R × Option V → Session R σ → Prop} (hcost : Triple I p (costAt op s) C)
    (hgrad : ∀ cost, Triple (C cost) p (gradientAt op s) fun grad => Q (cost, grad)) :
    Triple I p (current op s) Q := by
  rw [current_eq]
  exact hcost.bind fun cost => (hgrad cost).bind fun grad => .pure fun _ ht => ht

end LineSearch

/-! ### Backtracking -/

namespace Backtracking

variable {b : Backtracking R} {x : Option V} {direction : V} {cost slope : R} {N : ℕ}
  {I : Probe R V σ → Prop} {J : ℕ → R → Probe R V σ → Prop}
  {Q : StepLength R V → Probe R V σ → Prop}

/-- **The rule of backtracking.**  What is known after `k` trials of the step length that is next
follows from trial to trial, unless the trial is sufficient. -/
theorem triple_trials {alpha : R} (hstart : ∀ t, I t → J 0 alpha t)
    (htrial : ∀ k < N, ∀ alpha, Triple (J k alpha) p (Probe.cost op x direction alpha)
      fun trial t => if b.isSufficient cost slope alpha trial then Q ⟨alpha, some trial, none⟩ t
        else J (k + 1) (alpha * b.rho) t)
    (hlast : ∀ alpha t, J N alpha t → Q ⟨alpha, Ray.known alpha t.ray.costs, none⟩ t) :
    Triple I p (b.trials op x direction cost slope N alpha) Q := by
  -- `k` trials were made and `left` of them are left
  have hfrom : ∀ left k, k + left = N → ∀ alpha,
      Triple (J k alpha) p (b.trials op x direction cost slope left alpha) Q := by
    intro left
    induction left with
    | zero =>
      rintro k rfl alpha
      refine Triple.get.bind fun t => .pure ?_
      rintro _ ⟨rfl, ht⟩
      exact hlast alpha t ht
    | succ left ih =>
      intro k hk alpha
      unfold trials
      refine (htrial k (by omega) alpha).bind fun trial => ?_
      refine Triple.ite (fun hmet => ?_) fun hnot => ?_
      · exact .pure fun t ht => by rwa [if_pos hmet] at ht
      · refine (ih (k + 1) (by omega) (alpha * b.rho)).pre fun t ht => ?_
        rwa [if_neg hnot] at ht
  exact (hfrom N 0 (Nat.zero_add N) alpha).pre hstart

end Backtracking

/-! ### The strong Wolfe search -/

namespace Wolfe

variable {w : Wolfe R} {line : Line R V} {I : Probe R V σ → Prop} {C : R → Probe R V σ → Prop}
  {G : R → Option V × R → Probe R V σ → Prop} {Q : StepLength R V → Probe R V σ → Prop}

/-- The gradient at a step length, with the slope there. -/
def slopeAt (op : Operator R V M σ) (line : Line R V) (alpha : R) :
    Act R (Probe R V σ) (Option V × R) := do
  let grad ← Probe.gradient op line.origin line.direction alpha
  let slope ← slopeOf line grad
  return (grad, slope)

theorem triple_slopeAt_bind {β : Type} {alpha : R} {G : Option V × R → Probe R V σ → Prop}
    {next : Option V → R → Act R (Probe R V σ) β} {S : β → Probe R V σ → Prop}
    (h : Triple I p (slopeAt op line alpha) G)
    (hnext : ∀ grad slope, Triple (G (grad, slope)) p (next grad slope) S) :
    Triple I p (do
      let grad ← Probe.gradient op line.origin line.direction alpha
      let slope ← slopeOf line grad
      next grad slope) S := by
  have hbind : slopeAt op line alpha >>= (fun measured => next measured.1 measured.2) =
      (Probe.gradient op line.origin line.direction alpha >>= fun grad =>
        slopeOf line grad >>= next grad) := by
    unfold slopeAt
    simp only [bind_assoc, pure_bind]
  rw [← hbind]
  exact h.bind fun measured => hnext measured.1 measured.2

/-! #### The passes of a zoom -/

/-- A pass ends a zoom, or leaves a bracket to go on with, beside the step length it tried. -/
def Pass.Leads (Q : StepLength R V → Probe R V σ → Prop)
    (J : Bracket R → StepLength R V → Probe R V σ → Prop) : Pass R V → Probe R V σ → Prop
  | .accepted step, t => Q step t
  | .narrowed b tried, t => J b tried t

/-- What a pass comes to.  The cost in the middle is rejected, and the middle is the upper end then;
or the slope there is flat enough, and the middle is accepted; or the middle is the lower end, and
the upper one is the end that the slope leads to. -/
theorem triple_pass {b : Bracket R} {middle : R} {P : Pass R V → Probe R V σ → Prop}
    (hmiddle : b.middle = middle)
    (hcost : Triple I p (Probe.cost op line.origin line.direction middle) C)
    (hhigh : ∀ trial t, C trial t →
      (w.tooHigh line middle trial || decide (b.costLow ≤ trial)) = true →
      P (.narrowed { b with ahi := middle }
        ⟨middle, some trial, (Ray.known middle t.ray.grads).join⟩) t)
    (hslope : ∀ trial, ¬ (w.tooHigh line middle trial || decide (b.costLow ≤ trial)) = true →
      Triple (C trial) p (slopeAt op line middle) (G trial))
    (hflat : ∀ trial grad slope t, G trial (grad, slope) t → w.flatEnough line slope = true →
      P (.accepted ⟨middle, some trial, grad⟩) t)
    (hsteep : ∀ trial grad slope t, G trial (grad, slope) t → ¬ w.flatEnough line slope = true →
      P (.narrowed ⟨middle, if 0.0 ≤ slope * (b.ahi - b.alo) then b.alo else b.ahi, trial⟩
        ⟨middle, some trial, grad⟩) t) :
    Triple I p (w.pass op line b) P := by
  unfold pass
  rw [hmiddle]
  refine hcost.bind fun trial => Triple.ite (fun hrejected => ?_) fun hnot => ?_
  · -- a rejected middle takes its gradient from the record, which may hold one already
    refine Triple.get.bind fun t => .pure ?_
    rintro _ ⟨rfl, ht⟩
    exact hhigh trial t ht hrejected
  · refine triple_slopeAt_bind (hslope trial hnot) fun grad slope => ?_
    refine Triple.ite (fun h => .pure fun t ht => ?_) fun h => .pure fun t ht => ?_
    · exact hflat trial grad slope t ht h
    · exact hsteep trial grad slope t ht h

/-- **The rule of the zoom.**  What is known of a bracket after `j` passes follows from pass to
pass, and in the end the zoom settles, with what is known of the step length tried last: after all
passes, or when the bracket is too narrow. -/
theorem triple_zoomInto {J : ℕ → Bracket R → Probe R V σ → Prop}
    {T : Bracket R → StepLength R V → Probe R V σ → Prop} {b : Bracket R}
    (hstart : ∀ t, I t → J 0 b t)
    (hpass : ∀ j < zoomPasses, ∀ b, Triple (J j b) p (w.pass op line b)
      (Pass.Leads Q fun b tried t => J (j + 1) b t ∧ T b tried t))
    (hsettle : ∀ j b tried, 1 ≤ j → j ≤ zoomPasses →
      (j = zoomPasses ∨ Scalar.magnitude (b.ahi - b.alo) < 1e-12) →
      Triple (fun t => J j b t ∧ T b tried t) p (settle b tried) Q) :
    Triple I p (w.zoomInto op line b) Q := by
  -- `j` passes were made and `left` of them are left; the first one replaces what was tried before
  have hfrom : ∀ left j, j + left = zoomPasses → ∀ b tried,
      Triple (fun t => J j b t ∧ (1 ≤ j → T b tried t)) p (w.zoom op line left b tried) Q := by
    intro left
    induction left with
    | zero =>
      intro j hj b tried
      obtain rfl : j = zoomPasses := hj
      refine (hsettle zoomPasses b tried (by decide) (Nat.le_refl _) (.inl rfl)).pre fun t ht => ?_
      exact ⟨ht.1, ht.2 (by decide)⟩
    | succ left ih =>
      intro j hj b tried
      unfold zoom
      refine ((hpass j (by omega) b).pre fun t ht => ht.1).bind fun pass => ?_
      cases pass with
      | accepted step => exact .pure fun t ht => ht
      | narrowed b tried =>
        refine Triple.ite (fun hnarrow => ?_) fun _ => ?_
        · exact hsettle (j + 1) b tried (Nat.le_add_left 1 j) (by omega) (.inr hnarrow)
        · exact (ih (j + 1) (by omega) b tried).pre fun t ht => ⟨ht.1, fun _ => ht.2⟩
  refine (hfrom zoomPasses 0 (Nat.zero_add _) b _).pre fun t ht => ⟨hstart t ht, fun h => ?_⟩
  exact absurd h (by decide)

/-! #### Trials -/

/-- What one trial comes to. -/
inductive Trial (R V : Type) where
  | accepted (step : StepLength R V)
  | closed (bracket : Bracket R)
  | falling (cost : R)

/-- One trial: it is accepted, or there is a bracket between it and the one before, or the value is
still falling. -/
def trial (w : Wolfe R) (op : Operator R V M σ) (line : Line R V) (first : Bool)
    (previous costBefore alpha : R) : Act R (Probe R V σ) (Trial R V) := do
  let trial ← Probe.cost op line.origin line.direction alpha
  if w.tooHigh line alpha trial || (!first && decide (costBefore ≤ trial)) then
    return .closed ⟨previous, alpha, costBefore⟩
  else
    let grad ← Probe.gradient op line.origin line.direction alpha
    let slope ← slopeOf line grad
    if w.flatEnough line slope then return .accepted ⟨alpha, some trial, grad⟩
    else if 0.0 ≤ slope then return .closed ⟨alpha, previous, trial⟩
    else return .falling trial

/-- A trial ends the search, or closes a bracket, or leaves a cost to go on with. -/
def Trial.Leads (Q : StepLength R V → Probe R V σ → Prop) (B : Bracket R → Probe R V σ → Prop)
    (J : R → Probe R V σ → Prop) : Trial R V → Probe R V σ → Prop
  | .accepted step, t => Q step t
  | .closed b, t => B b t
  | .falling cost, t => J cost t

/-- What a trial comes to.  Its cost is rejected, and a bracket reaches up to it; or the slope is
flat enough, and it is accepted; or the value rises, and a bracket reaches back to the trial before;
or the value falls. -/
theorem triple_trial {first : Bool} {previous costBefore alpha : R}
    {P : Trial R V → Probe R V σ → Prop}
    (hcost : Triple I p (Probe.cost op line.origin line.direction alpha) C)
    (hhigh : ∀ trial t, C trial t →
      (w.tooHigh line alpha trial || (!first && decide (costBefore ≤ trial))) = true →
      P (.closed ⟨previous, alpha, costBefore⟩) t)
    (hslope : ∀ trial,
      ¬ (w.tooHigh line alpha trial || (!first && decide (costBefore ≤ trial))) = true →
      Triple (C trial) p (slopeAt op line alpha) (G trial))
    (hflat : ∀ trial grad slope t, G trial (grad, slope) t → w.flatEnough line slope = true →
      P (.accepted ⟨alpha, some trial, grad⟩) t)
    (hrises : ∀ trial grad slope t, G trial (grad, slope) t → ¬ w.flatEnough line slope = true →
      0.0 ≤ slope → P (.closed ⟨alpha, previous, trial⟩) t)
    (hfalls : ∀ trial grad slope t, G trial (grad, slope) t → ¬ w.flatEnough line slope = true →
      ¬ 0.0 ≤ slope → P (.falling trial) t) :
    Triple I p (w.trial op line first previous costBefore alpha) P := by
  unfold Wolfe.trial
  refine hcost.bind fun trial => Triple.ite (fun hrejected => ?_) fun hnot => ?_
  · exact .pure fun t ht => hhigh trial t ht hrejected
  · refine triple_slopeAt_bind (hslope trial hnot) fun grad slope => ?_
    refine Triple.ite (fun h => .pure fun t ht => ?_) fun h => ?_
    · exact hflat trial grad slope t ht h
    -- a slope that rises leads back to the trial before
    refine Triple.ite (fun hup => .pure fun t ht => ?_) fun hdown => .pure fun t ht => ?_
    · exact hrises trial grad slope t ht h hup
    · exact hfalls trial grad slope t ht h hdown

/-- The trials that are left come to a step length, or to a bracket for a zoom. -/
def bracketing (w : Wolfe R) (op : Operator R V M σ) (line : Line R V) :
    Nat → Bool → R → R → R → Act R (Probe R V σ) (StepLength R V ⊕ Bracket R)
  | 0, _, _, _, alpha => do return .inl (← Probe.stepLength alpha)
  | left + 1, first, previous, costBefore, alpha => do
    let trial ← Probe.cost op line.origin line.direction alpha
    if w.tooHigh line alpha trial || (!first && decide (costBefore ≤ trial)) then
      return .inr ⟨previous, alpha, costBefore⟩
    else
      let grad ← Probe.gradient op line.origin line.direction alpha
      let slope ← slopeOf line grad
      if w.flatEnough line slope then return .inl ⟨alpha, some trial, grad⟩
      else if 0.0 ≤ slope then return .inr ⟨alpha, previous, trial⟩
      else w.bracketing op line left false alpha trial (alpha * 2.0)

/-- The trials end as the bracketing does, with a zoom into each bracket. -/
theorem trials_eq (left : ℕ) (first : Bool) (previous costBefore alpha : R) :
    w.trials op line left first previous costBefore alpha =
      w.bracketing op line left first previous costBefore alpha >>=
        Sum.elim pure (w.zoomInto op line) := by
  induction left generalizing first previous costBefore alpha with
  | zero =>
    unfold trials bracketing
    rw [bind_assoc]
    exact (bind_pure _).symm
  | succ left ih =>
    unfold trials bracketing
    rw [bind_assoc]
    refine bind_congr fun trial => ?_
    split
    · exact (pure_bind _ _).symm
    rw [bind_assoc]
    refine bind_congr fun grad => ?_
    rw [bind_assoc]
    refine bind_congr fun slope => ?_
    split
    · exact (pure_bind _ _).symm
    split
    · exact (pure_bind _ _).symm
    · -- only a trial that still falls goes on, with the length doubled
      exact ih false alpha trial (alpha * 2.0)

/-- After a trial the bracketing goes on, twice as far, where the value falls. -/
theorem bracketing_succ (left : ℕ) (first : Bool) (previous costBefore alpha : R) :
    w.bracketing op line (left + 1) first previous costBefore alpha =
      w.trial op line first previous costBefore alpha >>= fun
        | .accepted step => pure (.inl step)
        | .closed b => pure (.inr b)
        | .falling cost => w.bracketing op line left false alpha cost (alpha * 2.0) := by
  conv_lhs => unfold bracketing
  unfold Wolfe.trial
  rw [bind_assoc]
  refine bind_congr fun trial => ?_
  split
  · exact (pure_bind _ _).symm
  rw [bind_assoc]
  refine bind_congr fun grad => ?_
  rw [bind_assoc]
  refine bind_congr fun slope => ?_
  split
  · exact (pure_bind _ _).symm
  split <;> exact (pure_bind _ _).symm

section

variable {N : ℕ} {J : ℕ → Bool → R → R → R → Probe R V σ → Prop}
  {B : Bracket R → Probe R V σ → Prop} {first : Bool} {previous costBefore alpha : R}
  (hstart : ∀ t, I t → J 0 first previous costBefore alpha t)
  (htrial : ∀ k < N, ∀ first previous costBefore alpha,
    Triple (J k first previous costBefore alpha) p
      (w.trial op line first previous costBefore alpha)
      (Trial.Leads Q B fun cost => J (k + 1) false alpha cost (alpha * 2.0)))
  (hlast : ∀ first previous costBefore alpha t,
    J N first previous costBefore alpha t → Q (t.ray.stepLength alpha) t)

include hstart htrial hlast

/-- **The rule of bracketing.**  What is known before the `k`-th trial follows from trial to trial,
until one is accepted or a bracket is closed. -/
theorem triple_bracketing :
    Triple I p (w.bracketing op line N first previous costBefore alpha)
      fun out t => Sum.elim (Q · t) (B · t) out := by
  -- `k` trials were made and `left` of them are left
  have hfrom : ∀ left k, k + left = N → ∀ first previous costBefore alpha,
      Triple (J k first previous costBefore alpha) p
        (w.bracketing op line left first previous costBefore alpha)
        fun out t => Sum.elim (Q · t) (B · t) out := by
    intro left
    induction left with
    | zero =>
      rintro k rfl first previous costBefore alpha
      unfold bracketing Probe.stepLength
      rw [bind_assoc]
      refine Triple.get.bind fun t => ?_
      rw [pure_bind]
      refine .pure ?_
      rintro _ ⟨rfl, ht⟩
      exact hlast first previous costBefore alpha t ht
    | succ left ih =>
      intro k hk first previous costBefore alpha
      rw [bracketing_succ]
      refine (htrial k (by omega) first previous costBefore alpha).bind fun r => ?_
      cases r with
      | accepted step => exact .pure fun t ht => ht
      | closed b => exact .pure fun t ht => ht
      | falling cost => exact ih (k + 1) (by omega) false alpha cost (alpha * 2.0)
  exact (hfrom N 0 (Nat.zero_add N) first previous costBefore alpha).pre hstart

/-- **The rule of the strong Wolfe search.**  Its trials come to what a bracketing does, and each
bracket to what a zoom into it does. -/
theorem triple_trials (hzoom : ∀ b, Triple (B b) p (w.zoomInto op line b) Q) :
    Triple I p (w.trials op line N first previous costBefore alpha) Q := by
  rw [trials_eq]
  refine (triple_bracketing hstart htrial hlast).bind fun out => ?_
  cases out with
  | inl step => exact .pure fun t ht => ht
  | inr b => exact hzoom b

end

end Wolfe

end Descent
