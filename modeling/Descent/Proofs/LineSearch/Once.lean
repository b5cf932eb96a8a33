import Descent.Proofs.LineSearch.Best
import Descent.Proofs.LineSearch.Noted

/-!
# Each point is paid for once

Along its line a search asks for the cost and for the gradient at points of trials only, for neither
of them twice at one point, and for the gradient only where it has asked for the cost (`Frugal`).
What keeps it from asking again is the ray, which recalls the answers to all calls and nothing else
(`Ray.Recalls`).

A search returns what its ray recalls at a step length among its trials (`Ray.Returns`), so that all
that comes with it was asked for, and what does not come with it was not.  Whoever needs the rest
can ask for it and does not pay for it twice (`Frugal.cost`, `Frugal.gradient`).  This is shown of
backtracking from trial to trial (`Backtracking.succeeds_trials_once`), and of the strong Wolfe
search from pass to pass of a zoom (`Wolfe.succeeds_pass_once`) and from trial to trial before it
(`Wolfe.succeeds_trial_once`).
-/

open scoped RealInnerProductSpace

namespace Descent

open Act (Succeeds Triple)
open Exact

variable {n : ℕ} {M σ : Type} {op : Operator Exact (Vec n) M σ} {x y d g : Vec n} {α c : ℝ}
  {trial : ℝ → Prop} {start : Counts} {before calls calls' : List (Evaluation Exact (Vec n) M)}
  {ray : Ray Exact (Vec n)}

/-- Wherever it is called the operator answers with a real cost and with a gradient. -/
structure Operator.RealValued (op : Operator Exact (Vec n) M σ) : Prop where
  cost : ∀ y, op.CostsWith y fun c => ∃ r, c = real r
  gradient : ∀ y, op.GradientWith y fun _ => True

/-! ### Calls -/

/-- There was a call at the point. -/
def Called (calls : List (Evaluation Exact (Vec n) M)) (cap : Capability) (y : Vec n) : Prop :=
  (cap, y) ∈ calls.map Evaluation.query

/-- The cost at the point was asked for, and the answer was this number. -/
def CostAnswered (calls : List (Evaluation Exact (Vec n) M)) (y : Vec n) (c : ℝ) : Prop :=
  ∃ v, Evaluation.cost y (.ok v) ∈ calls ∧ v.toReal = .ok (real c)

/-- The gradient at the point was asked for, and the answer was this vector. -/
def GradientAnswered (calls : List (Evaluation Exact (Vec n) M)) (y g : Vec n) : Prop :=
  Evaluation.gradient y (.ok (some g)) ∈ calls

theorem CostAnswered.called (h : CostAnswered calls y c) : Called calls .cost y := by
  obtain ⟨v, hv, -⟩ := h
  exact List.mem_map_of_mem hv

theorem GradientAnswered.called (h : GradientAnswered calls y g) : Called calls .gradient y :=
  List.mem_map_of_mem h

theorem CostAnswered.mono (h : CostAnswered calls y c) (hsub : calls ⊆ calls') :
    CostAnswered calls' y c := by
  obtain ⟨v, hv, hc⟩ := h
  exact ⟨v, hsub hv, hc⟩

theorem called_append {e : Evaluation Exact (Vec n) M} {cap : Capability} :
    Called (calls ++ [e]) cap y ↔ Called calls cap y ∨ e.query = (cap, y) := by
  rw [Called, List.map_append, List.mem_append, List.map_singleton, List.mem_singleton,
    eq_comm (a := (cap, y))]
  rfl

/-- The calls are for the cost or the gradient at points of trials ahead.  No two of them are for
the same at one point, and where the gradient was asked for so was the cost. -/
structure Frugal (trial : ℝ → Prop) (x d : Vec n) (calls : List (Evaluation Exact (Vec n) M)) :
    Prop where
  once : (calls.map Evaluation.query).Nodup
  ahead : ∀ e ∈ calls, ∃ α, 0 < α ∧ trial α ∧
    (e.query = (.cost, x + α • d) ∨ e.query = (.gradient, x + α • d))
  costed : ∀ y, Called calls .gradient y → Called calls .cost y

namespace Frugal

theorem nothing : Frugal trial x d ([] : List (Evaluation Exact (Vec n) M)) where
  once := List.nodup_nil
  ahead := nofun
  costed := nofun

variable (h : Frugal trial x d calls) (hα : 0 < α) (htrial : trial α)

include h

/-- A call for something new is added. -/
theorem once_append {e : Evaluation Exact (Vec n) M} {cap : Capability} {y : Vec n}
    (he : e.query = (cap, y)) (hnew : ¬ Called calls cap y) :
    ((calls ++ [e]).map Evaluation.query).Nodup := by
  rw [List.map_append, List.map_singleton, he]
  refine List.nodup_append.mpr ⟨h.once, List.nodup_singleton _, ?_⟩
  rintro q hq _ hmem rfl
  obtain rfl := List.mem_singleton.mp hmem
  exact hnew hq

include hα htrial

theorem cost (hnew : ¬ Called calls .cost (x + α • d))
    (answer : Except (Fault Exact) (Value Exact)) :
    Frugal trial x d (calls ++ [.cost (x + α • d) answer]) where
  once := h.once_append rfl hnew
  ahead := List.forall_mem_append.mpr
    ⟨h.ahead, List.forall_mem_singleton.mpr ⟨α, hα, htrial, .inl rfl⟩⟩
  costed y hy := by
    rw [called_append] at hy ⊢
    rcases hy with hy | hy
    · exact .inl (h.costed y hy)
    · cases hy

theorem gradient (hcost : Called calls .cost (x + α • d))
    (hnew : ¬ Called calls .gradient (x + α • d)) (answer : Except (Fault Exact) (Option (Vec n))) :
    Frugal trial x d (calls ++ [.gradient (x + α • d) answer]) where
  once := h.once_append rfl hnew
  ahead := List.forall_mem_append.mpr
    ⟨h.ahead, List.forall_mem_singleton.mpr ⟨α, hα, htrial, .inr rfl⟩⟩
  costed y hy := by
    rw [called_append] at hy ⊢
    rcases hy with hy | hy
    · exact .inl (h.costed y hy)
    · cases hy
      exact .inl hcost

end Frugal

/-! ### Rays -/

namespace Ray

/-- The ray recalls the answers to the calls, and where it recalls nothing there was no call. -/
structure Recalls (x d : Vec n) (calls : List (Evaluation Exact (Vec n) M))
    (ray : Ray Exact (Vec n)) : Prop where
  cost : ∀ α c, known (real α) ray.costs = some c →
    ∃ r, c = real r ∧ CostAnswered calls (x + α • d) r
  gradient : ∀ α o, known (real α) ray.grads = some o →
    ∃ g, o = some g ∧ GradientAnswered calls (x + α • d) g
  new_cost : ∀ α, known (real α) ray.costs = none → ¬ Called calls .cost (x + α • d)
  new_gradient : ∀ α, known (real α) ray.grads = none → ¬ Called calls .gradient (x + α • d)

/-- What was paid for along a line is frugal, and the ray recalls it. -/
structure Keeps (trial : ℝ → Prop) (x d : Vec n) (calls : List (Evaluation Exact (Vec n) M))
    (ray : Ray Exact (Vec n)) : Prop where
  frugal : Frugal trial x d calls
  recalls : ray.Recalls x d calls

/-- Different step lengths lead to different points. -/
theorem point_injective (hd : d ≠ 0) {α β : ℝ} (h : x + α • d = x + β • d) : α = β :=
  smul_left_injective ℝ hd (add_left_cancel h)

namespace Keeps

theorem nothing : Keeps trial x d ([] : List (Evaluation Exact (Vec n) M)) {} where
  frugal := .nothing
  recalls := ⟨nofun, nofun, nofun, nofun⟩

variable (h : ray.Keeps trial x d calls) (hd : d ≠ 0) (hα : 0 < α) (htrial : trial α)

include h hd hα htrial

/-- The cost at a new step length is kept. -/
theorem cost (hnew : known (real α) ray.costs = none) {v : Value Exact}
    (hv : v.toReal = .ok (real c)) :
    Keeps trial x d (calls ++ [.cost (x + α • d) (.ok v)])
      { ray with costs := (real α, real c) :: ray.costs } where
  frugal := h.frugal.cost hα htrial (h.recalls.new_cost α hnew) _
  recalls := by
    refine ⟨fun β c' hβ => ?_, fun β o hβ => ?_, fun β hβ => ?_, fun β hβ => ?_⟩
    · rw [known_cons_real] at hβ
      -- the costs known are the new one and those known before
      split at hβ
      next heq =>
        cases hβ
        exact ⟨c, rfl, v, by simp [heq], hv⟩
      next =>
        obtain ⟨r, rfl, hr⟩ := h.recalls.cost β c' hβ
        exact ⟨r, rfl, hr.mono (List.subset_append_left _ _)⟩
    · obtain ⟨g, rfl, hg⟩ := h.recalls.gradient β o hβ
      exact ⟨g, rfl, List.mem_append_left _ hg⟩
    · rw [known_cons_real] at hβ
      split at hβ
      next => cases hβ
      next hne =>
        rw [called_append, not_or]
        exact ⟨h.recalls.new_cost β hβ, fun heq =>
          hne (point_injective hd (congrArg Prod.snd heq)).symm⟩
    · rw [called_append, not_or]
      exact ⟨h.recalls.new_gradient β hβ, nofun⟩

/-- The gradient at a new step length is kept, if the cost is. -/
theorem gradient {cost : Exact} (hcost : known (real α) ray.costs = some cost)
    (hnew : known (real α) ray.grads = none) (g : Vec n) :
    Keeps trial x d (calls ++ [.gradient (x + α • d) (.ok (some g))])
      { ray with grads := (real α, some g) :: ray.grads } where
  frugal := by
    -- the cost was asked for at this trial before its gradient
    obtain ⟨r, -, hr⟩ := h.recalls.cost α cost hcost
    exact h.frugal.gradient hα htrial hr.called (h.recalls.new_gradient α hnew) _
  recalls := by
    refine ⟨fun β c' hβ => ?_, fun β o hβ => ?_, fun β hβ => ?_, fun β hβ => ?_⟩
    · obtain ⟨r, rfl, hr⟩ := h.recalls.cost β c' hβ
      exact ⟨r, rfl, hr.mono (List.subset_append_left _ _)⟩
    · rw [known_cons_real] at hβ
      split at hβ
      next heq =>
        cases hβ
        exact ⟨g, rfl, by simp [GradientAnswered, heq]⟩
      next =>
        obtain ⟨g', rfl, hg'⟩ := h.recalls.gradient β o hβ
        exact ⟨g', rfl, List.mem_append_left _ hg'⟩
    · rw [called_append, not_or]
      exact ⟨h.recalls.new_cost β hβ, nofun⟩
    · rw [known_cons_real] at hβ
      split at hβ
      next => cases hβ
      next hne =>
        rw [called_append, not_or]
        exact ⟨h.recalls.new_gradient β hβ, fun heq =>
          hne (point_injective hd (congrArg Prod.snd heq)).symm⟩

end Keeps

/-- A step length of a trial ahead is returned with what the ray recalls there. -/
inductive Returns (trial : ℝ → Prop) (ray : Ray Exact (Vec n)) : StepLength Exact (Vec n) → Prop
  | intro {α : ℝ} (hα : 0 < α) (htrial : trial α) : Returns trial ray (ray.stepLength (real α))

end Ray

/-- The record of a step length is put together from what the ray recalls. -/
theorem Ray.Returns.of_known {cost : Exact} {o : Option (Option (Vec n))}
    (hcost : known (real α) ray.costs = some cost) (hgrad : known (real α) ray.grads = o)
    (hα : 0 < α) (htrial : trial α) : ray.Returns trial ⟨real α, some cost, o.join⟩ := by
  rw [← hcost, ← hgrad]
  exact .intro hα htrial

theorem Ray.Returns.of_cost (hgrads : ray.grads = []) (hα : 0 < α) (htrial : trial α) :
    ray.Returns trial ⟨real α, known (real α) ray.costs, none⟩ := by
  have hreturned : ray.stepLength (real α) = ⟨real α, known (real α) ray.costs, none⟩ := by
    rw [stepLength, hgrads]
    rfl
  exact hreturned ▸ .intro hα htrial

namespace Probe

/-- What was paid for before is noted, and then what the ray keeps. -/
def Keeps (start : Counts) (before : List (Evaluation Exact (Vec n) M)) (trial : ℝ → Prop)
    (x d : Vec n) (P : Ray Exact (Vec n) → Prop)
    (p : Probe Exact (Vec n) (σ × List (Evaluation Exact (Vec n) M))) : Prop :=
  ∃ calls ray, (ray.Keeps trial x d calls ∧ P ray) ∧ p.Stands start (before ++ calls) ray

theorem Keeps.mono {P Q : Ray Exact (Vec n) → Prop}
    {p : Probe Exact (Vec n) (σ × List (Evaluation Exact (Vec n) M))}
    (h : p.Keeps start before trial x d P) (hPQ : ∀ ray, P ray → Q ray) :
    p.Keeps start before trial x d Q := by
  obtain ⟨calls, ray, ⟨hkeeps, hP⟩, hp⟩ := h
  exact ⟨calls, ray, ⟨hkeeps, hPQ ray hP⟩, hp⟩

/-- A step that succeeds does so where more is known of the ray. -/
theorem succeeds_of_keeps {β : Type} {P P' : Ray Exact (Vec n) → Prop}
    {a : Act Exact (Probe Exact (Vec n) (σ × List (Evaluation Exact (Vec n) M))) β}
    {Q : β → Probe Exact (Vec n) (σ × List (Evaluation Exact (Vec n) M)) → Prop}
    (h : Succeeds (Keeps start before trial x d P) a Q) (hP : ∀ ray, P' ray → P ray) :
    Succeeds (Keeps start before trial x d P') a Q :=
  h.pre fun _ hp => hp.mono hP

section

variable (hop : op.RealValued) (hd : d ≠ 0) (hα : 0 < α) (htrial : trial α)

include hop hd hα htrial

/-- The cost of a trial is looked up or paid for. -/
theorem succeeds_cost_once {P : Ray Exact (Vec n) → Prop}
    (hP : ∀ ray entry, P ray → P { ray with costs := entry :: ray.costs }) :
    Succeeds (Keeps start before trial x d P) (cost op.recorded (some x) d (real α)) fun c =>
      Keeps start before trial x d fun ray => P ray ∧ Ray.known (real α) ray.costs = some c := by
  refine Triple.of_exists fun calls => Triple.of_exists fun ray => Triple.assume ?_
  rintro ⟨h, hray⟩
  cases hknown : Ray.known (real α) ray.costs with
  | some c =>
    refine (succeeds_cost_known hknown).post ?_
    rintro _ p ⟨rfl, hp⟩
    exact ⟨calls, ray, ⟨h, hray, hknown⟩, hp⟩
  | none =>
    refine (succeeds_cost_new (hop.cost _) hknown).post ?_
    rintro _ p ⟨v, ⟨hv, c, rfl⟩, hp⟩
    rw [List.append_assoc] at hp
    refine ⟨_, _, ⟨h.cost hd hα htrial hknown hv, hP _ _ hray, ?_⟩, hp⟩
    rw [Ray.known_cons_real, if_pos rfl]

/-- The gradient of a trial whose cost was paid for is looked up or paid for. -/
theorem succeeds_gradient_once {cost : Exact} :
    Succeeds (Keeps start before trial x d fun ray => Ray.known (real α) ray.costs = some cost)
      (gradient op.recorded (some x) d (real α)) fun o p => ∃ g, o = some g ∧
        p.Keeps start before trial x d fun ray =>
          Ray.known (real α) ray.costs = some cost ∧
            Ray.known (real α) ray.grads = some (some g) := by
  refine Triple.of_exists fun calls => Triple.of_exists fun ray => Triple.assume ?_
  rintro ⟨h, hcost⟩
  cases hknown : Ray.known (real α) ray.grads with
  | some o =>
    obtain ⟨g, rfl, -⟩ := h.recalls.gradient α o hknown
    refine (succeeds_gradient_known hknown).post ?_
    rintro _ p ⟨rfl, hp⟩
    exact ⟨g, rfl, calls, ray, ⟨h, hcost, hknown⟩, hp⟩
  | none =>
    refine (succeeds_gradient_new (hop.gradient _) hknown).post ?_
    rintro _ p ⟨g, ⟨rfl, -⟩, hp⟩
    rw [List.append_assoc] at hp
    refine ⟨g, rfl, _, _, ⟨h.gradient hd hα htrial hcost hknown g, hcost, ?_⟩, hp⟩
    rw [Ray.known_cons_real, if_pos rfl]

end

end Probe

/-- A search has settled on a step length that its ray recalls. -/
def Session.Settles (start : Counts) (before : List (Evaluation Exact (Vec n) M)) (trial : ℝ → Prop)
    (x d : Vec n) (step : StepLength Exact (Vec n))
    (u : Session Exact (σ × List (Evaluation Exact (Vec n) M))) : Prop :=
  ∃ calls ray, (Ray.Keeps trial x d calls ray ∧ ray.Returns trial step) ∧
    u.Noted start (before ++ calls)

namespace LineSearch

/-- A search along a ray that keeps what it pays for settles on what it returns. -/
theorem succeeds_along_once
    {a : Act Exact (Probe Exact (Vec n) (σ × List (Evaluation Exact (Vec n) M))) _}
    (h : Succeeds (Probe.Keeps start before trial x d fun ray => ray = {}) a fun step =>
      Probe.Keeps start before trial x d fun ray => ray.Returns trial step) :
    Succeeds (Session.Noted start before) (along a) (Session.Settles start before trial x d) := by
  refine succeeds_along_noted (h.imp (fun p hp => ?_) ?_)
  · rw [← List.append_nil before] at hp
    exact ⟨[], {}, ⟨.nothing, rfl⟩, hp⟩
  · rintro step p ⟨calls, ray, h, hp⟩
    exact ⟨calls, ray, h, hp.noted⟩

variable {s : State Exact (Vec n) M}

section

variable {cost : Exact} (hcost : s.cost.measured = .ok cost) (hknown : Scalar.isNaN cost = false)
  (hgrad : s.grad = some g)

include hcost hknown hgrad

/-- At the point of a state with the cost and the gradient nothing is evaluated. -/
theorem run_current_told (u : Session Exact σ) :
    (current op s).run u = (.ok (cost, some g), u) := by
  rw [current_eq, costAt_of_known hcost hknown, gradientAt_of_some hgrad]
  rfl

theorem succeeds_current_told {I : Session Exact σ → Prop} :
    Succeeds I (current op s) fun known u => known = (cost, some g) ∧ I u :=
  Act.succeeds_iff.mpr fun u hu => ⟨_, u, run_current_told hcost hknown hgrad u, rfl, hu⟩

end

end LineSearch

variable {s : State Exact (Vec n) M}

/-! ### Backtracking -/

namespace Backtracking

variable {α₀ ρ c₁ : ℝ} {cost : Exact} {maxIter : Int} {N : ℕ}

/-- A trial of a search, or the step length after all of them. -/
def Tries (α₀ ρ : ℝ) (N : ℕ) (α : ℝ) : Prop := ∃ k ≤ N, α = α₀ * ρ ^ k

section

variable (hop : op.RealValued) (hd : d ≠ 0) (hα₀ : 0 < α₀) (hρ : 0 < ρ)

include hop hd hα₀ hρ

/-- The gradient is not asked for, so that none is returned. -/
theorem succeeds_trials_once (cost slope : Exact) (N : ℕ) :
    Succeeds (Probe.Keeps start before (Tries α₀ ρ N) x d fun ray => ray.grads = [])
      ((ofReal α₀ ρ c₁ maxIter).trials op.recorded (some x) d cost slope N (real α₀))
      fun step => Probe.Keeps start before (Tries α₀ ρ N) x d fun ray =>
        ray.Returns (Tries α₀ ρ N) step := by
  have hpos : ∀ k, 0 < α₀ * ρ ^ k := fun k => mul_pos hα₀ (pow_pos hρ k)
  refine triple_trials (J := fun k alpha p => alpha = real (α₀ * ρ ^ k) ∧
      p.Keeps start before (Tries α₀ ρ N) x d fun ray => ray.grads = [])
    (fun p hp => ⟨?_, hp⟩) (fun k hk alpha => Triple.assume ?_) ?_
  · rw [pow_zero, mul_one]
  · rintro rfl
    have htrial : Tries α₀ ρ N (α₀ * ρ ^ k) := ⟨k, hk.le, rfl⟩
    refine (Probe.succeeds_cost_once hop hd (hpos k) htrial fun _ _ => id).post fun trial p hp => ?_
    split
    · refine hp.mono ?_
      rintro ray ⟨hgrads, hknown⟩
      exact hknown ▸ .of_cost hgrads (hpos k) htrial
    · exact ⟨real_shrunk α₀ ρ k, hp.mono fun _ => And.left⟩
  · rintro _ p ⟨rfl, calls, ray, ⟨h, hgrads⟩, hp⟩
    rw [hp.ray]
    exact ⟨calls, ray, ⟨h, .of_cost hgrads (hpos N) ⟨N, le_rfl, rfl⟩⟩, hp⟩

/-- A search from a state with the cost and the gradient pays for nothing twice. -/
theorem succeeds_search_once (hx : s.param = some x) (hcost : s.cost.measured = .ok cost)
    (hknown : Scalar.isNaN cost = false) (hgrad : s.grad = some g) :
    Succeeds (Session.Noted start before) ((ofReal α₀ ρ c₁ maxIter).search op.recorded d s)
      (Session.Settles start before (Tries α₀ ρ maxIter.toNat) x d) := by
  unfold search
  refine (LineSearch.succeeds_current_told hcost hknown hgrad).bind fun current => Triple.assume ?_
  rintro rfl
  refine (Triple.lift (r := .ok (real ⟪g, d⟫)) (Act.Raises.ok _)).bind fun slope =>
    Triple.assume fun _ => ?_
  rw [hx]
  exact LineSearch.succeeds_along_once (Probe.succeeds_of_keeps
    (succeeds_trials_once hop hd hα₀ hρ cost slope maxIter.toNat) fun _ => congrArg Ray.grads)

end

end Backtracking

/-! ### The strong Wolfe search -/

namespace Wolfe

variable {w : Wolfe Exact} {α₀ c₁ c₂ lo hi : ℝ} {maxIter : Int} {N j k m : ℕ}

/-- The points that `j` halvings make of the interval from the trial before the `k`-th up to it. -/
noncomputable def division (α₀ : ℝ) (k j m : ℕ) : ℝ :=
  behind α₀ k + (behind α₀ (k + 1) - behind α₀ k) * (m / (2 ^ j : ℕ))

/-- A trial of a search or the step length after all of them, or a point that the halvings of a zoom
lead to below one. -/
def Tries (α₀ : ℝ) (N : ℕ) (α : ℝ) : Prop :=
  ∃ k ≤ N, ∃ j ≤ zoomPasses, ∃ m, 0 < m ∧ m ≤ 2 ^ j ∧ α = division α₀ k j m

theorem division_zero (α₀ : ℝ) (k j : ℕ) : division α₀ k j 0 = behind α₀ k := by
  simp [division]

theorem division_one (α₀ : ℝ) (k : ℕ) : division α₀ k 0 1 = α₀ * 2 ^ k := by
  simp [division, behind_succ]

theorem division_double (α₀ : ℝ) (k j m : ℕ) :
    division α₀ k (j + 1) (2 * m) = division α₀ k j m := by
  unfold division
  rw [pow_succ, Nat.cast_mul, Nat.cast_mul, Nat.cast_two, mul_comm 2,
    mul_div_mul_right _ _ two_ne_zero]

theorem middle_division (α₀ : ℝ) (k j m : ℕ) :
    0.5 * (division α₀ k j m + division α₀ k j (m + 1)) = division α₀ k (j + 1) (2 * m + 1) := by
  unfold division
  push_cast
  field_simp
  ring

theorem tries_doubled (hk : k ≤ N) : Tries α₀ N (α₀ * 2 ^ k) :=
  ⟨k, hk, 0, Nat.zero_le _, 1, one_pos, le_rfl, (division_one α₀ k).symm⟩

/-- The ends of a bracket are neighbours after `j` halvings. -/
inductive Bracket.Neighbours (α₀ : ℝ) (k j : ℕ) : ℝ → ℝ → Prop
  | up {m : ℕ} (hm : m < 2 ^ j) : Neighbours α₀ k j (division α₀ k j m) (division α₀ k j (m + 1))
  | down {m : ℕ} (hm : m < 2 ^ j) : Neighbours α₀ k j (division α₀ k j (m + 1)) (division α₀ k j m)

theorem division_pos (hα₀ : 0 < α₀) (hm : 0 < m) : 0 < division α₀ k j m := by
  have hwidth : 0 < behind α₀ (k + 1) - behind α₀ k := by
    rw [behind_succ]
    exact sub_pos.mpr (behind_lt hα₀ k)
  have hpart : 0 < (behind α₀ (k + 1) - behind α₀ k) * (m / (2 ^ j : ℕ)) := by positivity
  exact add_pos_of_nonneg_of_pos (behind_nonneg hα₀ k) hpart

/-- A point of the division that is ahead is a trial; the first one is the trial before. -/
theorem tries_division (hk : k ≤ N) (hj : j ≤ zoomPasses) (hm : m ≤ 2 ^ j)
    (hpos : 0 < division α₀ k j m) : Tries α₀ N (division α₀ k j m) := by
  rcases Nat.eq_zero_or_pos m with rfl | hm0
  · rw [division_zero] at hpos ⊢
    cases k with
    | zero => exact absurd hpos (lt_irrefl 0)
    | succ k =>
      rw [behind_succ]
      exact tries_doubled (Nat.le_of_succ_le hk)
  · exact ⟨k, hk, j, hj, m, hm0, hm, rfl⟩

namespace Bracket.Neighbours

theorem closed (α₀ : ℝ) (k : ℕ) : Neighbours α₀ k 0 (behind α₀ k) (α₀ * 2 ^ k) := by
  rw [← division_zero α₀ k 0, ← division_one]
  exact .up one_pos

variable (h : Neighbours α₀ k j lo hi)

include h

theorem symm : Neighbours α₀ k j hi lo := by
  cases h with
  | up hm => exact .down hm
  | down hm => exact .up hm

/-- The middle is the neighbour of both ends after one more halving. -/
theorem half : Neighbours α₀ k (j + 1) (0.5 * (lo + hi)) hi := by
  cases h with
  | @up m hm =>
    rw [middle_division, ← division_double α₀ k j (m + 1)]
    exact .up (by rw [pow_succ]; omega)
  | @down m hm =>
    rw [add_comm (division α₀ k j (m + 1)), middle_division, ← division_double α₀ k j m]
    exact .down (by rw [pow_succ]; omega)

theorem half_lower : Neighbours α₀ k (j + 1) lo (0.5 * (lo + hi)) := by
  rw [add_comm lo hi]
  exact h.symm.half.symm

theorem middle_pos (hα₀ : 0 < α₀) : 0 < 0.5 * (lo + hi) := by
  cases h with
  | up hm =>
    rw [middle_division]
    exact division_pos hα₀ (Nat.succ_pos _)
  | down hm =>
    rw [add_comm, middle_division]
    exact division_pos hα₀ (Nat.succ_pos _)

theorem tries_lower (hk : k ≤ N) (hj : j ≤ zoomPasses) (hpos : 0 < lo) : Tries α₀ N lo := by
  cases h with
  | up hm => exact tries_division hk hj hm.le hpos
  | down hm => exact tries_division hk hj hm hpos

theorem tries_middle (hα₀ : 0 < α₀) (hk : k ≤ N) (hj : j < zoomPasses) :
    Tries α₀ N (0.5 * (lo + hi)) :=
  h.half.tries_lower hk hj (h.middle_pos hα₀)

end Bracket.Neighbours

/-! #### The zoom -/

/-- The ends of the bracket are neighbours after `j` halvings. -/
def Bracket.Divides (α₀ : ℝ) (k j : ℕ) (b : Bracket Exact) : Prop :=
  ∃ lo hi low, b = ⟨real lo, real hi, low⟩ ∧ Neighbours α₀ k j lo hi

variable {low cost slope : Exact}

section

variable (hop : op.RealValued) (hd : d ≠ 0)

include hop hd

/-- With the gradient at a trial the ray has all that is returned with it. -/
theorem succeeds_slopeAt_once {trialCost : Exact} (hα : 0 < α) (htrial : trial α) :
    Succeeds (Probe.Keeps start before trial x d fun ray =>
        Ray.known (real α) ray.costs = some trialCost)
      (slopeAt op.recorded ⟨some x, d, cost, some g, slope⟩ (real α)) fun m p =>
        p.Keeps start before trial x d fun ray =>
          ray.Returns trial ⟨real α, some trialCost, m.1⟩ := by
  unfold slopeAt
  refine (Probe.succeeds_gradient_once hop hd hα htrial).bind fun grad =>
    Triple.of_exists fun v => Triple.assume ?_
  rintro rfl
  -- a slope is measured wherever there is a gradient
  refine (Triple.lift (Act.Raises.ok (real ⟪v, d⟫))).bind fun slope => Triple.assume fun _ => ?_
  exact .pure fun p hp => hp.mono fun ray hray => .of_known hray.1 hray.2 hα htrial

variable (hα₀ : 0 < α₀) (hk : k ≤ N)

include hα₀ hk

/-- A pass tries the middle. -/
theorem succeeds_pass_once (hends : Bracket.Neighbours α₀ k j lo hi) (hj : j < zoomPasses) :
    Succeeds (Probe.Keeps start before (Tries α₀ N) x d fun _ => True)
      (w.pass op.recorded ⟨some x, d, cost, some g, slope⟩ ⟨real lo, real hi, low⟩)
      (Pass.Leads (fun step => Probe.Keeps start before (Tries α₀ N) x d fun ray =>
          ray.Returns (Tries α₀ N) step)
        fun b tried p => b.Divides α₀ k (j + 1) ∧
          p.Keeps start before (Tries α₀ N) x d fun ray => ray.Returns (Tries α₀ N) tried) := by
  have hpos := hends.middle_pos hα₀
  have htrial := hends.tries_middle hα₀ hk hj
  have hmiddle : (⟨real lo, real hi, low⟩ : Bracket Exact).middle = real (0.5 * (lo + hi)) := by
    rw [Bracket.middle, ofScientific_eq, real_add, real_mul]
  refine triple_pass (G := fun trial m p => p.Keeps start before (Tries α₀ N) x d fun ray =>
      ray.Returns (Tries α₀ N) ⟨real (0.5 * (lo + hi)), some trial, m.1⟩)
    hmiddle (Probe.succeeds_cost_once hop hd hpos htrial fun _ _ => id) ?_ ?_ ?_ ?_
  · -- a rejected middle is returned with the gradient that the ray has there, if any
    rintro trial p ⟨calls, ray, ⟨h, -, hcost⟩, hp⟩ -
    rw [hp.ray]
    exact ⟨⟨_, _, _, rfl, hends.half_lower⟩, calls, ray, ⟨h, .of_known hcost rfl hpos htrial⟩, hp⟩
  · exact fun trial _ => Probe.succeeds_of_keeps (succeeds_slopeAt_once hop hd hpos htrial)
      fun _ => And.right
  · exact fun _ _ _ _ hp _ => hp
  · refine fun trial grad slope' p hp _ => ⟨?_, hp⟩
    -- the other end is one of the two there were
    dsimp only
    split
    · exact ⟨_, _, _, rfl, hends.half_lower.symm⟩
    · exact ⟨_, _, _, rfl, hends.half⟩

omit hop hd hα₀ in
/-- A zoom settles for the lower end, with what the ray recalls there, or for the last middle. -/
theorem succeeds_settle_once (hends : Bracket.Neighbours α₀ k j lo hi) (hj : j ≤ zoomPasses)
    (tried : StepLength Exact (Vec n)) :
    Succeeds (Probe.Keeps start before (Tries α₀ N) x d fun ray => ray.Returns (Tries α₀ N) tried)
      (settle ⟨real lo, real hi, low⟩ tried :
        Act Exact (Probe Exact (Vec n) (σ × List (Evaluation Exact (Vec n) M))) _)
      fun step => Probe.Keeps start before (Tries α₀ N) x d fun ray =>
        ray.Returns (Tries α₀ N) step := by
  refine Triple.ite (fun hpos => ?_) fun _ => .pure fun p hp => hp
  rw [zero_lt_real] at hpos
  refine Triple.of_exists fun calls => Triple.of_exists fun ray => Triple.assume ?_
  rintro ⟨h, -⟩
  refine Triple.get_bind fun p hp => ?_
  rw [hp.ray]
  exact .pure fun p hp => ⟨calls, ray, ⟨h, .intro hpos (hends.tries_lower hk hj hpos)⟩, hp⟩

/-- The bracket that the `k`-th trial closed is zoomed into. -/
theorem succeeds_zoomInto_once {b : Bracket Exact} (hb : b.Divides α₀ k 0) :
    Succeeds (Probe.Keeps start before (Tries α₀ N) x d fun _ => True)
      (w.zoomInto op.recorded ⟨some x, d, cost, some g, slope⟩ b)
      fun step => Probe.Keeps start before (Tries α₀ N) x d fun ray =>
        ray.Returns (Tries α₀ N) step := by
  refine triple_zoomInto (J := fun j b p => b.Divides α₀ k j ∧
      p.Keeps start before (Tries α₀ N) x d fun _ => True)
    (T := fun _ tried p => p.Keeps start before (Tries α₀ N) x d fun ray =>
      ray.Returns (Tries α₀ N) tried) (fun p hp => ⟨hb, hp⟩) ?_ ?_
  · refine fun j hj b => Triple.assume ?_
    rintro ⟨lo, hi, low, rfl, hends⟩
    refine (succeeds_pass_once hop hd hα₀ hk hends hj).post fun pass p hpass => ?_
    cases pass with
    | accepted step => exact hpass
    | narrowed b tried => exact ⟨⟨hpass.1, hpass.2.mono fun _ _ => trivial⟩, hpass.2⟩
  · rintro j _ tried - hj - p ⟨⟨⟨lo, hi, low, rfl, hends⟩, -⟩, hp⟩
    exact succeeds_settle_once hk hends hj tried p hp

end

/-! #### The search -/

section

variable (hop : op.RealValued) (hd : d ≠ 0) (hα₀ : 0 < α₀)

include hop hd hα₀

/-- The `k`-th trial is returned, or closes a bracket, or leads to the next one. -/
theorem succeeds_trial_once (hk : k < N) (first : Bool) (costBefore : Exact) :
    Succeeds (Probe.Keeps start before (Tries α₀ N) x d fun _ => True)
      (w.trial op.recorded ⟨some x, d, cost, some g, slope⟩ first (real (behind α₀ k)) costBefore
        (real (α₀ * 2 ^ k)))
      (Trial.Leads (fun step => Probe.Keeps start before (Tries α₀ N) x d fun ray =>
          ray.Returns (Tries α₀ N) step)
        (fun b p => b.Divides α₀ k 0 ∧ p.Keeps start before (Tries α₀ N) x d fun _ => True)
        fun _ => Probe.Keeps start before (Tries α₀ N) x d fun _ => True) := by
  have hpos := trial_pos hα₀ k
  have htrial : Tries α₀ N (α₀ * 2 ^ k) := tries_doubled hk.le
  have hclosed := Bracket.Neighbours.closed α₀ k
  refine triple_trial (G := fun trial m p => p.Keeps start before (Tries α₀ N) x d fun ray =>
      ray.Returns (Tries α₀ N) ⟨real (α₀ * 2 ^ k), some trial, m.1⟩)
    (Probe.succeeds_cost_once hop hd hpos htrial fun _ _ => id) ?_ ?_ ?_ ?_ ?_
  · exact fun _ _ hp _ => ⟨⟨_, _, _, rfl, hclosed⟩, hp.mono fun _ _ => trivial⟩
  · exact fun trial _ => Probe.succeeds_of_keeps (succeeds_slopeAt_once hop hd hpos htrial)
      fun _ => And.right
  · exact fun _ _ _ _ hp _ => hp
  · exact fun _ _ _ _ hp _ _ => ⟨⟨_, _, _, rfl, hclosed.symm⟩, hp.mono fun _ _ => trivial⟩
  · exact fun _ _ _ _ hp _ _ => hp.mono fun _ _ => trivial

/-- The trials lead to a step length that is returned, or to a zoom. -/
theorem succeeds_trials_once (N : ℕ) (first : Bool) (costBefore : Exact) :
    Succeeds (Probe.Keeps start before (Tries α₀ N) x d fun _ => True)
      (w.trials op.recorded ⟨some x, d, cost, some g, slope⟩ N first (real 0) costBefore (real α₀))
      fun step => Probe.Keeps start before (Tries α₀ N) x d fun ray =>
        ray.Returns (Tries α₀ N) step := by
  refine triple_trials (J := fun k _ previous _ alpha p =>
      (previous = real (behind α₀ k) ∧ alpha = real (α₀ * 2 ^ k)) ∧
        p.Keeps start before (Tries α₀ N) x d fun _ => True)
    (B := fun b p => (∃ k ≤ N, b.Divides α₀ k 0) ∧
      p.Keeps start before (Tries α₀ N) x d fun _ => True)
    (fun p hp => ⟨⟨rfl, ?_⟩, hp⟩) ?_ ?_ ?_
  · rw [pow_zero, mul_one]
  · -- the `k`th trial doubles the first one `k` times
    refine fun k hk first _ costBefore _ => Triple.assume ?_
    rintro ⟨rfl, rfl⟩
    refine (succeeds_trial_once hop hd hα₀ hk first costBefore).post fun trial p hp => ?_
    cases trial with
    | accepted step => exact hp
    | closed b => exact ⟨⟨k, hk.le, hp.1⟩, hp.2⟩
    | falling cost => exact ⟨⟨congrArg real (behind_succ α₀ k).symm, real_doubled α₀ k⟩, hp⟩
  · rintro first _ costBefore _ p ⟨⟨-, rfl⟩, calls, ray, ⟨h, -⟩, hp⟩
    rw [hp.ray]
    exact ⟨calls, ray, ⟨h, .intro (trial_pos hα₀ N) (tries_doubled le_rfl)⟩, hp⟩
  · refine fun b => Triple.assume ?_
    rintro ⟨k, hk, hb⟩
    exact succeeds_zoomInto_once hop hd hα₀ hk hb

/-- Down a slope, a search from a state with the cost and the gradient pays for nothing twice. -/
theorem succeeds_search_once (hx : s.param = some x) (hcost : s.cost.measured = .ok cost)
    (hknown : Scalar.isNaN cost = false) (hgrad : s.grad = some g) (hslope : ⟪g, d⟫ < 0) :
    Succeeds (Session.Noted start before) ((ofReal α₀ c₁ c₂ maxIter).search op.recorded d s)
      (Session.Settles start before (Tries α₀ maxIter.toNat) x d) := by
  unfold search
  refine (LineSearch.succeeds_current_told hcost hknown hgrad).bind fun current => Triple.assume ?_
  rintro rfl
  refine (Triple.lift (r := .ok (real ⟪g, d⟫)) (Act.Raises.ok _)).bind fun slope =>
    Triple.assume fun hslope' => ?_
  cases hslope'
  refine Triple.ite (fun hup => ?_) fun _ => ?_
  · rw [zero_eq, real_le] at hup
    exact absurd hslope (not_lt.mpr hup)
  · rw [hx, zero_eq]
    exact LineSearch.succeeds_along_once (Probe.succeeds_of_keeps
      (succeeds_trials_once hop hd hα₀ maxIter.toNat true cost) fun _ _ => trivial)

end

end Wolfe

end Descent
