import Descent.Proofs.Method.Construct
import Descent.Proofs.Scalar.Rounded

/-!
# Constants that pass the checks

A constructor checks its constants as the numbers they were given as and keeps them as machine
floats.  The floats pass the same checks (`Method.Checked`), so a method can be made again of the
constants it keeps: each constructor has a lemma of what it accepts, and one that it accepts what
passes its checks.

`Method.Made` is a method that the constructors made with components of the right kind;
`Method.Made.sound` is what is known of it.
-/

namespace Descent

open Act (bind_eq_ok)

/-! ### The checks -/

/-- The constants of a backtracking search pass the checks of its constructor. -/
structure Backtracking.Checked (b : Backtracking Float) : Prop where
  decrease : Construct.inUnit (.real b.c) = true
  shrink : Construct.inUnit (.real b.rho) = true
  firstStep : (Number.real b.alpha0).le (.int 0) = false

/-- The constants of a strong Wolfe search pass the checks of its constructor. -/
structure Wolfe.Checked (w : Wolfe Float) : Prop where
  decrease : (Number.int 0).lt (.real w.c1) = true
  order : (Number.real w.c1).lt (.real w.c2) = true
  curvature : (Number.real w.c2).lt (.int 1) = true
  firstStep : (Number.real w.alpha0).le (.int 0) = false

/-- The tolerances of Newton's method pass the checks of its constructor. -/
structure NewtonCG.Settings.Checked (s : NewtonCG.Settings Float) : Prop where
  tolGrad : Construct.isNegative (.real s.tolGrad) = false
  tolCost : Construct.isNegative (.real s.tolCost) = false

/-- The constants of a trust-region method pass the checks of its constructor. -/
structure TrustRegion.Settings.Checked (s : TrustRegion.Settings Float) : Prop where
  radius : (Number.int 0).lt (.real s.radius) = true
  finite : Scalar.isFinite s.radius = true
  bound : (Number.real s.maxRadius).lt (.real s.radius) = false
  threshold : (Number.real 0.0).le (.real s.eta) = true
  quarter : (Number.real s.eta).lt (.real 0.25) = true

namespace Method

variable {V M : Type}

/-- The constants of a method and of its components pass the checks of their constructors. -/
def Checked : Method Float V M → Prop
  | backtracking b => b.Checked
  | wolfe w => w.Checked
  | cauchy | dogleg => True
  | steepestDescent line tol => line.Checked ∧ Construct.isNegative (.real tol) = false
  | newtonCG line s => line.Checked ∧ s.Checked
  | trustRegion sub s => sub.Checked ∧ s.Checked
  | halving _ | scripted _ | other _ _ => False

/-- Whether a method is a line search. -/
def isLineSearch : Method Float V M → Bool
  | backtracking _ | wolfe _ => true
  | _ => false

/-- Whether a method is a subproblem solver. -/
def isSubproblem : Method Float V M → Bool
  | cauchy | dogleg => true
  | _ => false

/-- The components of a method, and theirs, are of the kind that is wanted in their place. -/
def WellPlaced : Method Float V M → Prop
  | steepestDescent line _ => line.isLineSearch = true ∧ line.WellPlaced
  | newtonCG line _ => line.isLineSearch = true ∧ line.WellPlaced
  | trustRegion sub _ => sub.isSubproblem = true ∧ sub.WellPlaced
  | _ => True

/-- Every limit on passes in the method is a plain value. -/
def Plain : Method Float V M → Prop
  | steepestDescent line _ => line.Plain
  | newtonCG line s => line.Plain ∧ ∃ v, s.cgMaxIter = .value v
  | trustRegion sub _ => sub.Plain
  | _ => True

/-- What is known of a method that the constructors made. -/
structure Sound (m : Method Float V M) : Prop where
  checked : m.Checked
  wellPlaced : m.WellPlaced
  plain : m.Plain

theorem sound_of_isSubproblem {m : Method Float V M} (h : m.isSubproblem = true) : m.Sound := by
  cases m with
  | cauchy | dogleg => exact ⟨trivial, trivial, trivial⟩
  | backtracking | wolfe | steepestDescent | newtonCG | trustRegion | halving | scripted
  | other => cases h

end Method

namespace Construct

variable {V M : Type}

/-! ### What is accepted passes the checks -/

/-- No integer lies strictly between zero and one. -/
theorem inUnit_toReal {n : Number Float} {x : Float} (h : inUnit n = true)
    (hx : n.toReal = .ok x) : inUnit (.real x) = true := by
  cases n with
  | real y =>
    cases hx
    exact h
  | int n =>
    have hn : (decide (0 < n) && decide (n < 1)) = true := h
    simp only [Bool.and_eq_true, decide_eq_true_eq] at hn
    omega

/-- Two numbers in order strictly between zero and one are no integers. -/
theorem exists_real_of_order {c1 c2 : Number Float} (h₁ : (Number.int 0).lt c1 = true)
    (h₂ : c1.lt c2 = true) (h₃ : c2.lt (.int 1) = true) :
    ∃ x y, c1 = .real x ∧ c2 = .real y := by
  cases c1 with
  | real x =>
    cases c2 with
    | real y => exact ⟨x, y, rfl, rfl⟩
    | int m =>
      -- no integer lies between a positive number and `1`
      have hm : m < 1 := of_decide_eq_true h₃
      have hnot : Number.realLeInt x 0 = false := Number.not_le_zero_of_zero_lt h₁
      rw [Number.realLeInt_of_realLtInt h₂ (by omega)] at hnot
      cases hnot
  | int n =>
    have hn : 0 < n := of_decide_eq_true h₁
    cases c2 with
    | int m =>
      have hm : m < 1 := of_decide_eq_true h₃
      have hnm : n < m := of_decide_eq_true h₂
      omega
    | real y =>
      have hy : (!Scalar.isNaN y && !Number.realLeInt y n) = true := h₂
      rw [Number.realLeInt_of_realLtInt h₃ (by omega)] at hy
      simp at hy

/-- An acceptance threshold that passes the check becomes a float that does. -/
theorem threshold_toReal {eta : Number Float} {x : Float} (hzero : (Number.real 0.0).le eta = true)
    (hquarter : eta.lt (.real 0.25) = true) (h : eta.toReal = .ok x) :
    (Number.real 0.0).le (.real x) = true ∧ (Number.real x).lt (.real 0.25) = true := by
  cases eta with
  | real y =>
    have hy : y = x := Except.ok.inj h
    rw [← hy]
    exact ⟨hzero, hquarter⟩
  | int n =>
    obtain rfl := eq_zero_of_threshold hzero hquarter
    have hof : Binary.ofInt? 0 = some 0.0 := by decide +kernel
    have hx : 0.0 = x := Option.some_inj.mp (hof.symm.trans (Number.toReal_int_eq_ok.mp h))
    rw [← hx]
    exact ⟨by decide +kernel, by decide +kernel⟩

theorem checked_backtracking {args : Arguments V M} {rig : Rig Float V M}
    (h : backtracking args = .ok rig) : ∃ b, rig = ⟨.backtracking b, .plain⟩ ∧ b.Checked := by
  obtain ⟨b, alpha0, rho, c, rfl, ⟨halpha0, hreal₁⟩, ⟨hrho, hreal₂⟩, hc, hreal₃⟩ :=
    backtracking_eq_ok h
  exact ⟨b, rfl, inUnit_toReal hc hreal₃, inUnit_toReal hrho hreal₂,
    Number.not_le_zero_toReal halpha0 hreal₁⟩

theorem checked_wolfe {args : Arguments V M} {rig : Rig Float V M} (h : wolfe args = .ok rig) :
    ∃ w, rig = ⟨.wolfe w, .plain⟩ ∧ w.Checked := by
  obtain ⟨w, alpha0, c1, c2, rfl, ⟨halpha0, hreal₁⟩, ⟨hc1, horder, hc2⟩, hreal₂, hreal₃⟩ :=
    wolfe_eq_ok h
  obtain ⟨x, y, rfl, rfl⟩ := exists_real_of_order hc1 horder hc2
  cases hreal₂
  cases hreal₃
  exact ⟨w, rfl, hc1, horder, hc2, Number.not_le_zero_toReal halpha0 hreal₁⟩

/-- A method of steepest descent is made of a line search and a tolerance that passes the check. -/
theorem checked_steepestDescent {args : Arguments V M} {rig : Rig Float V M}
    (h : steepestDescent args = .ok rig) :
    ∃ tol, isNegative (.real tol) = false ∧
      let line := args.component "line_search" ⟨.backtracking Backtracking.default, .plain⟩
      rig = ⟨.steepestDescent line.method tol, .around line.memory⟩ := by
  unfold steepestDescent at h
  obtain ⟨_, -, h⟩ := bind_eq_ok.mp h
  obtain ⟨tol, -, h⟩ := bind_eq_ok.mp h
  obtain ⟨_, htol, h⟩ := bind_eq_ok.mp h
  obtain ⟨tol', hreal, h⟩ := bind_eq_ok.mp h
  cases h
  rw [check_eq_ok, Bool.not_eq_true'] at htol
  exact ⟨tol', Number.not_lt_zero_toReal htol hreal, rfl⟩

/-- Newton's method is made of a line search, tolerances that pass the checks and the limit that
was given. -/
theorem checked_newtonCG {args : Arguments V M} {rig : Rig Float V M}
    (h : newtonCG args = .ok rig) :
    ∃ s : NewtonCG.Settings Float, s.Checked ∧ s.cgMaxIter = args.limit "cg_max_iter" ∧
      let line := args.component "line_search" ⟨.wolfe Wolfe.default, .plain⟩
      rig = ⟨.newtonCG line.method s, .around line.memory⟩ := by
  unfold newtonCG at h
  obtain ⟨_, -, h⟩ := bind_eq_ok.mp h
  obtain ⟨tolGrad, -, h⟩ := bind_eq_ok.mp h
  obtain ⟨_, htolGrad, h⟩ := bind_eq_ok.mp h
  obtain ⟨tolCost, -, h⟩ := bind_eq_ok.mp h
  obtain ⟨_, htolCost, h⟩ := bind_eq_ok.mp h
  obtain ⟨tolGrad', hreal₁, h⟩ := bind_eq_ok.mp h
  obtain ⟨tolCost', hreal₂, h⟩ := bind_eq_ok.mp h
  cases h
  rw [check_eq_ok, Bool.not_eq_true'] at htolGrad htolCost
  exact ⟨_, ⟨Number.not_lt_zero_toReal htolGrad hreal₁, Number.not_lt_zero_toReal htolCost hreal₂⟩,
    rfl, rfl⟩

/-- A trust-region method is made of a subproblem solver and constants that pass the checks; it
starts from its radius. -/
theorem checked_trustRegion {args : Arguments V M} {rig : Rig Float V M}
    (h : trustRegion args = .ok rig) :
    ∃ s : TrustRegion.Settings Float, s.Checked ∧
      let sub := args.component "subproblem" ⟨.cauchy, .region Region.unset⟩
      rig = ⟨.trustRegion sub.method s, .trust s.radius sub.memory⟩ := by
  unfold trustRegion at h
  obtain ⟨_, -, h⟩ := bind_eq_ok.mp h
  obtain ⟨radius, -, h⟩ := bind_eq_ok.mp h
  obtain ⟨_, hradius, h⟩ := bind_eq_ok.mp h
  obtain ⟨initial, hreal₁, h⟩ := bind_eq_ok.mp h
  obtain ⟨_, hfinite, h⟩ := bind_eq_ok.mp h
  obtain ⟨maxRadius, -, h⟩ := bind_eq_ok.mp h
  obtain ⟨_, hbound, h⟩ := bind_eq_ok.mp h
  obtain ⟨eta, -, h⟩ := bind_eq_ok.mp h
  obtain ⟨_, heta, h⟩ := bind_eq_ok.mp h
  obtain ⟨maxRadius', hreal₂, h⟩ := bind_eq_ok.mp h
  obtain ⟨eta', hreal₃, h⟩ := bind_eq_ok.mp h
  obtain ⟨gradTol, -, h⟩ := bind_eq_ok.mp h
  cases h
  rw [check_eq_ok] at hradius hfinite hbound heta
  rw [Bool.not_eq_true'] at hbound
  rw [Bool.and_eq_true] at heta
  -- the checks were made on the numbers given, and hold of what they convert to
  obtain ⟨hthreshold, hquarter⟩ := threshold_toReal heta.1 heta.2 hreal₃
  have hs : TrustRegion.Settings.Checked ⟨initial, maxRadius', eta', gradTol⟩ :=
    ⟨Number.zero_lt_toReal hradius hreal₁, hfinite,
      Number.not_lt_toReal hradius hbound hreal₂ hreal₁, hthreshold, hquarter⟩
  exact ⟨_, hs, rfl⟩

/-! ### What passes the checks is accepted -/

/-- A search is made again of its constants. -/
theorem backtracking_of_checked {b : Backtracking Float} (h : b.Checked) :
    backtracking ([("alpha0", .value (.real b.alpha0)), ("rho", .value (.real b.rho)),
      ("c", .value (.real b.c)), ("max_iter", .value (.int b.maxIter))] : Arguments V M) =
      .ok ⟨.backtracking b, .plain⟩ := by
  have hc : check (inUnit (.real b.c)) .sufficientDecreaseRange = .ok () :=
    check_eq_ok.mpr h.decrease
  have hrho : check (inUnit (.real b.rho)) .shrinkRange = .ok () := check_eq_ok.mpr h.shrink
  have halpha0 : check (!(Number.real b.alpha0).le (.int 0)) .firstStepSign = .ok () :=
    check_eq_ok.mpr (by rw [h.firstStep]; rfl)
  show (do
    check (inUnit (.real b.c)) .sufficientDecreaseRange
    check (inUnit (.real b.rho)) .shrinkRange
    check (!(Number.real b.alpha0).le (.int 0)) .firstStepSign
    return ⟨.backtracking b, .plain⟩ : Except (Fault Float) (Rig Float V M)) = _
  rw [hc, hrho, halpha0]
  rfl

theorem wolfe_of_checked {w : Wolfe Float} (h : w.Checked) :
    wolfe ([("alpha0", .value (.real w.alpha0)), ("c1", .value (.real w.c1)),
      ("c2", .value (.real w.c2)), ("max_iter", .value (.int w.maxIter))] : Arguments V M) =
      .ok ⟨.wolfe w, .plain⟩ := by
  have hc1 : check ((Number.int 0).lt (.real w.c1)) .wolfeOrder = .ok () :=
    check_eq_ok.mpr h.decrease
  have hc2 : check ((Number.real w.c1).lt (.real w.c2) && (Number.real w.c2).lt (.int 1))
      .wolfeOrder = .ok () :=
    check_eq_ok.mpr (by rw [h.order, h.curvature]; rfl)
  have halpha0 : check (!(Number.real w.alpha0).le (.int 0)) .firstStepSign = .ok () :=
    check_eq_ok.mpr (by rw [h.firstStep]; rfl)
  show (do
    check ((Number.int 0).lt (.real w.c1)) .wolfeOrder
    check ((Number.real w.c1).lt (.real w.c2) && (Number.real w.c2).lt (.int 1)) .wolfeOrder
    check (!(Number.real w.alpha0).le (.int 0)) .firstStepSign
    return ⟨.wolfe w, .plain⟩ : Except (Fault Float) (Rig Float V M)) = _
  rw [hc1, hc2, halpha0]
  rfl

theorem steepestDescent_of_checked (line : Rig Float V M) {tol : Float}
    (h : isNegative (.real tol) = false) :
    steepestDescent [("line_search", .component line), ("tol_grad", .value (.real tol))] =
      .ok ⟨.steepestDescent line.method tol, .around line.memory⟩ := by
  have htol : check (!isNegative (.real tol)) .gradientToleranceSign = .ok () :=
    check_eq_ok.mpr (by rw [h]; rfl)
  show (do
    check (!isNegative (.real tol)) .gradientToleranceSign
    return ⟨.steepestDescent line.method tol, .around line.memory⟩ :
      Except (Fault Float) (Rig Float V M)) = _
  rw [htol]
  rfl

theorem newtonCG_of_checked (line : Rig Float V M) {s : NewtonCG.Settings Float}
    {limit : Value Float} (h : s.Checked) (hlimit : s.cgMaxIter = .value limit) :
    newtonCG [("line_search", .component line), ("tol_grad", .value (.real s.tolGrad)),
      ("tol_cost", .value (.real s.tolCost)), ("cg_max_iter", .value limit)] =
      .ok ⟨.newtonCG line.method s, .around line.memory⟩ := by
  have htolGrad : check (!isNegative (.real s.tolGrad)) .tolerancesSign = .ok () :=
    check_eq_ok.mpr (by rw [h.tolGrad]; rfl)
  have htolCost : check (!isNegative (.real s.tolCost)) .tolerancesSign = .ok () :=
    check_eq_ok.mpr (by rw [h.tolCost]; rfl)
  show (do
    check (!isNegative (.real s.tolGrad)) .tolerancesSign
    check (!isNegative (.real s.tolCost)) .tolerancesSign
    return ⟨.newtonCG line.method ⟨s.tolGrad, s.tolCost, .value limit⟩, .around line.memory⟩ :
      Except (Fault Float) (Rig Float V M)) = _
  rw [htolGrad, htolCost, ← hlimit]
  rfl

theorem trustRegion_of_checked (sub : Rig Float V M) {s : TrustRegion.Settings Float}
    (h : s.Checked) :
    trustRegion [("subproblem", .component sub), ("radius", .value (.real s.radius)),
      ("max_radius", .value (.real s.maxRadius)), ("eta", .value (.real s.eta)),
      ("grad_tol", .value (.real s.gradTol))] =
      .ok ⟨.trustRegion sub.method s, .trust s.radius sub.memory⟩ := by
  have hradius : check ((Number.int 0).lt (.real s.radius)) .initialRadius = .ok () :=
    check_eq_ok.mpr h.radius
  have hfinite : check s.radius.isFinite .initialRadius = .ok () := check_eq_ok.mpr h.finite
  have hbound : check (!(Number.real s.maxRadius).lt (.real s.radius)) .radiusBound = .ok () :=
    check_eq_ok.mpr (by rw [h.bound]; rfl)
  have heta : check ((Number.real 0.0).le (.real s.eta) && (Number.real s.eta).lt (.real 0.25))
      .acceptanceRange = .ok () :=
    check_eq_ok.mpr (by rw [h.threshold, h.quarter]; rfl)
  show (do
    check ((Number.int 0).lt (.real s.radius)) .initialRadius
    check s.radius.isFinite .initialRadius
    check (!(Number.real s.maxRadius).lt (.real s.radius)) .radiusBound
    check ((Number.real 0.0).le (.real s.eta) && (Number.real s.eta).lt (.real 0.25))
      .acceptanceRange
    return ⟨.trustRegion sub.method s, .trust s.radius sub.memory⟩ :
      Except (Fault Float) (Rig Float V M)) = _
  rw [hradius, hfinite, hbound, heta]
  rfl

theorem subproblem_eq_ok {method : Method Float V M} {args : Arguments V M} {rig : Rig Float V M}
    (h : subproblem method args = .ok rig) : rig = ⟨method, .region Region.unset⟩ := by
  unfold subproblem at h
  obtain ⟨_, -, h⟩ := bind_eq_ok.mp h
  cases h
  rfl

end Construct

namespace Method

variable {V M : Type}

theorem Searches.sound {m : Method Float V M} (h : m.Searches) :
    m.Sound ∧ m.isLineSearch = true := by
  cases h with
  | backtracking h =>
    obtain ⟨b, rfl, hb⟩ := Construct.checked_backtracking h
    exact ⟨⟨hb, trivial, trivial⟩, rfl⟩
  | wolfe h =>
    obtain ⟨w, rfl, hw⟩ := Construct.checked_wolfe h
    exact ⟨⟨hw, trivial, trivial⟩, rfl⟩

/-- A method that the constructors made of arguments that they accept: a line search where one is
wanted, a subproblem solver where one is wanted, and a plain value as the limit on passes. -/
inductive Made : Method Float V M → Prop
  | search {m : Method Float V M} (h : m.Searches) : Made m
  | cauchy {args : Arguments V M} {rig : Rig Float V M}
      (h : Construct.subproblem .cauchy args = .ok rig) : Made rig.method
  | dogleg {args : Arguments V M} {rig : Rig Float V M}
      (h : Construct.subproblem .dogleg args = .ok rig) : Made rig.method
  | steepestDescent {args : Arguments V M} {rig : Rig Float V M}
      (hline : (args.component "line_search"
        ⟨.backtracking Backtracking.default, .plain⟩).method.Searches)
      (h : Construct.steepestDescent args = .ok rig) : Made rig.method
  | newtonCG {args : Arguments V M} {rig : Rig Float V M} {limit : Value Float}
      (hline : (args.component "line_search" ⟨.wolfe Wolfe.default, .plain⟩).method.Searches)
      (hlimit : args.limit "cg_max_iter" = .value limit)
      (h : Construct.newtonCG args = .ok rig) : Made rig.method
  | trustRegion {args : Arguments V M} {rig : Rig Float V M}
      (hsub : (args.component "subproblem"
        ⟨.cauchy, .region Region.unset⟩).method.isSubproblem = true)
      (h : Construct.trustRegion args = .ok rig) : Made rig.method

theorem Made.sound {m : Method Float V M} (h : m.Made) : m.Sound := by
  cases h with
  | search h => exact h.sound.1
  | cauchy h =>
    rw [Construct.subproblem_eq_ok h]
    exact ⟨trivial, trivial, trivial⟩
  | dogleg h =>
    rw [Construct.subproblem_eq_ok h]
    exact ⟨trivial, trivial, trivial⟩
  | steepestDescent hline h =>
    obtain ⟨tol, htol, rfl⟩ := Construct.checked_steepestDescent h
    obtain ⟨hsound, hkind⟩ := hline.sound
    exact ⟨⟨hsound.checked, htol⟩, ⟨hkind, hsound.wellPlaced⟩, hsound.plain⟩
  | newtonCG hline hlimit h =>
    -- the limit is not checked, so it is passed on as it is given
    obtain ⟨s, hs, hpasses, rfl⟩ := Construct.checked_newtonCG h
    obtain ⟨hsound, hkind⟩ := hline.sound
    exact ⟨⟨hsound.checked, hs⟩, ⟨hkind, hsound.wellPlaced⟩, hsound.plain, _,
      hpasses.trans hlimit⟩
  | trustRegion hsub h =>
    obtain ⟨s, hs, rfl⟩ := Construct.checked_trustRegion h
    have hsound := sound_of_isSubproblem hsub
    exact ⟨⟨hsound.checked, hs⟩, ⟨hsub, hsound.wellPlaced⟩, hsound.plain⟩

end Method

end Descent
