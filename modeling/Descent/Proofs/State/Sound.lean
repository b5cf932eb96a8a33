import Descent.Proofs.Scalar.Order
import Descent.Proofs.State.Merge

/-!
# States that pass their check

A state is sound if its best cost is one, none of what it keeps contradicts it, and it has a
parameter (`State.Sound`).  A merge leads from a sound state to a sound one and does not raise the
best cost (`State.Sound.merge`).  Such a state passes the check of the invariants
(`State.check`) once its counter has advanced by one, to no more than the ceiling
(`State.Sound.check`).
-/

namespace Descent.State

variable {R V M : Type} [Scalar R]

/-- The state has a parameter and the best cost `b`, which the current cost does not lie below, and
which is finite only if it was met at some parameter. -/
structure Sound (s : State R V M) (b : R) : Prop where
  placed : s.param.isSome
  best : s.bestCost = .real b
  cost : ∃ c, s.cost = .real c ∧ ¬ c < b
  kept : Scalar.isFinite b = true → s.bestParam.isSome

namespace Sound

variable {s s' : State R V M} {b : R}

/-- The counter, the reason and the time do not bear on soundness. -/
theorem of_merged (h : s.Sound b) (k : Value R) (r : Reason) :
    Sound { s with curIter := k, reason := r } b :=
  ⟨h.placed, h.best, h.cost, h.kept⟩

/-- A known cost does not undercut the best one, and an unknown one is not compared with it. -/
theorem undercutsBest (h : s.Sound b) : s.undercutsBest = .ok false := by
  obtain ⟨c, hc, hle⟩ := h.cost
  have hisNaN : s.cost.isNaN = .ok (Scalar.isNaN c) := by
    rw [hc]
    rfl
  unfold State.undercutsBest
  rw [hisNaN, h.best, hc]
  cases Scalar.isNaN c with
  | true => rfl
  | false => exact congrArg Except.ok (decide_eq_false hle)

/-- A sound state that counted one iteration, not beyond its ceiling, and whose best cost did not
rise passes the check. -/
theorem check (h : s.Sound b) {k ceiling : Int} {before : R} (hk : 0 ≤ k)
    (hcounter : s.curIter = .int (k + 1)) (hceiling : s.maxIters.number? = some (.int ceiling))
    (hle : k + 1 ≤ ceiling) (hrise : ¬ before < b) : s.check (.int k) (.real before) = .ok () := by
  -- each of the checks passes
  have hnegative : s.curIter.lt (.int 0) = .ok false := by
    rw [hcounter]
    exact congrArg Except.ok (decide_eq_false (by omega))
  have hbeyond : s.curIter.gt s.maxIters = .ok false := by
    rw [hcounter, Value.gt_of_number? rfl hceiling]
    exact congrArg Except.ok (decide_eq_false (by omega))
  have hfollows : follows s.curIter (.int k : Value R) = .ok true := by
    rw [hcounter]
    show Except.ok (decide _ && decide _) = _
    simp
  have hrose : s.bestCost.gt (.real before) = .ok false := by
    rw [h.best]
    exact congrArg Except.ok (decide_eq_false hrise)
  have hfinite : s.bestCost.isFinite = .ok (Scalar.isFinite b) := by
    rw [h.best]
    rfl
  have hlacking : (Scalar.isFinite b && s.bestParam.isNone) = false := by
    cases hb : Scalar.isFinite b with
    | false => rfl
    | true => rw [Option.isNone_eq_false_iff.mpr (h.kept hb), Bool.and_false]
  unfold State.check
  simp only [hnegative, hbeyond, hfollows, h.undercutsBest, Value.given?, hrose, hfinite, hlacking,
    bind, Except.bind, Bool.not_true, Bool.false_eq_true, if_false]
  rfl

variable [OrderedScalar R]

/-- Before anything was merged the cost is unknown and the best one is at the end of the order. -/
theorem of_start (hinf : Scalar.isFinite (Scalar.inf : R) = false) (hparam : s.param.isSome)
    (hcost : s.cost = .real Scalar.nan) (hbest : s.bestCost = .real Scalar.inf) :
    s.Sound Scalar.inf where
  placed := hparam
  best := hbest
  cost := by
    refine ⟨Scalar.nan, hcost, fun hlt => ?_⟩
    have hknown := (OrderedScalar.known_of_lt hlt).1
    rw [OrderedScalar.isNaN_nan] at hknown
    cases hknown
  kept hfinite := by
    rw [hinf] at hfinite
    cases hfinite

/-- A merge keeps a state sound, and does not raise its best cost. -/
theorem merge (h : s.Sound b) {d : Delta R V M} {newBest : Bool}
    (hmerge : s.merge d = (.ok newBest, s')) : ∃ b', s'.Sound b' ∧ ¬ b < b' := by
  have hplaced : s'.param.isSome := by
    have hparam := s.merge_param d
    rw [hmerge] at hparam
    rw [hparam, Option.isSome_or, h.placed, Bool.or_true]
  cases hd : d.cost with
  | none =>
    rw [merge_of_none hd] at hmerge
    cases hmerge
    exact ⟨b, ⟨hplaced, h.best, h.cost, h.kept⟩, OrderedScalar.lt_irrefl b⟩
  | some v =>
    cases hv : v.toReal with
    | error f =>
      rw [merge_of_error hd hv] at hmerge
      cases hmerge
    | ok x =>
      rw [merge_of_ok hd hv] at hmerge
      have hbest : (s.facing d).bestCost = .real b := h.best
      by_cases hlt : x < b
      · -- the cost becomes the best one, and the parameter is kept with it
        rw [mergeCost_of_lt hbest hlt] at hmerge
        cases hmerge
        refine ⟨x, ⟨hplaced, rfl, ⟨x, rfl, OrderedScalar.lt_irrefl x⟩, fun _ => hplaced⟩, ?_⟩
        exact fun hrise => OrderedScalar.not_le_of_lt hlt (OrderedScalar.le_of_lt hrise)
      · rw [mergeCost_of_not_lt hbest hlt] at hmerge
        cases hmerge
        exact ⟨b, ⟨hplaced, h.best, ⟨x, rfl, hlt⟩, h.kept⟩, OrderedScalar.lt_irrefl b⟩

end Sound

end Descent.State
