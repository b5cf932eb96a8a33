import Descent.Method.Construct
import Descent.Proofs.LineSearch.Faithful
import Descent.Proofs.Scalar.Sign

/-!
# What a constructor accepts

A line search that a constructor made has constants that were checked as the numbers they were given
as, and then converted (`Construct.backtracking_eq_ok`, `Construct.wolfe_eq_ok`).  So the step
lengths it makes of them are ahead.  The acceptance threshold of a trust-region method, which was
checked in the same way (`Construct.trustRegion_eq_ok`), is not negative.
-/

namespace Descent

open Act (bind_eq_ok)

namespace Construct

variable {V M : Type}

theorem check_eq_ok {ok : Bool} {fault : Fault Float} {u : Unit} :
    check ok fault = .ok u ↔ ok = true := by
  unfold check
  cases ok with
  | false => exact ⟨nofun, nofun⟩
  | true => exact ⟨fun _ => rfl, fun _ => rfl⟩

/-- What a constructor of backtracking searches checked of the constants it was given, and what
it made of them. -/
theorem backtracking_eq_ok {args : Arguments V M} {rig : Rig Float V M}
    (h : backtracking args = .ok rig) :
    ∃ (b : Backtracking Float) (alpha0 rho c : Number Float),
      rig = ⟨.backtracking b, .plain⟩ ∧
        (alpha0.le (.int 0) = false ∧ alpha0.toReal = .ok b.alpha0) ∧
        (inUnit rho = true ∧ rho.toReal = .ok b.rho) ∧
        inUnit c = true ∧ c.toReal = .ok b.c := by
  unfold backtracking at h
  obtain ⟨_, -, h⟩ := bind_eq_ok.mp h
  obtain ⟨c, -, h⟩ := bind_eq_ok.mp h
  obtain ⟨_, hc, h⟩ := bind_eq_ok.mp h
  obtain ⟨rho, -, h⟩ := bind_eq_ok.mp h
  obtain ⟨_, hrho, h⟩ := bind_eq_ok.mp h
  obtain ⟨alpha0, -, h⟩ := bind_eq_ok.mp h
  obtain ⟨_, halpha0, h⟩ := bind_eq_ok.mp h
  obtain ⟨alpha0', hreal₁, h⟩ := bind_eq_ok.mp h
  obtain ⟨rho', hreal₂, h⟩ := bind_eq_ok.mp h
  obtain ⟨c', hreal₃, h⟩ := bind_eq_ok.mp h
  obtain ⟨maxIter, -, h⟩ := bind_eq_ok.mp h
  -- three checks and four conversions
  cases h
  rw [check_eq_ok] at hc hrho halpha0
  rw [Bool.not_eq_true'] at halpha0
  exact ⟨_, alpha0, rho, c, rfl, ⟨halpha0, hreal₁⟩, ⟨hrho, hreal₂⟩, hc, hreal₃⟩

/-- What a constructor of strong Wolfe searches checked of the constants it was given, and what it
made of them. -/
theorem wolfe_eq_ok {args : Arguments V M} {rig : Rig Float V M} (h : wolfe args = .ok rig) :
    ∃ (w : Wolfe Float) (alpha0 c1 c2 : Number Float),
      rig = ⟨.wolfe w, .plain⟩ ∧
        (alpha0.le (.int 0) = false ∧ alpha0.toReal = .ok w.alpha0) ∧
        ((Number.int 0).lt c1 = true ∧ c1.lt c2 = true ∧ c2.lt (.int 1) = true) ∧
        c1.toReal = .ok w.c1 ∧ c2.toReal = .ok w.c2 := by
  unfold wolfe at h
  obtain ⟨_, -, h⟩ := bind_eq_ok.mp h
  obtain ⟨c1, -, h⟩ := bind_eq_ok.mp h
  obtain ⟨_, hc1, h⟩ := bind_eq_ok.mp h
  obtain ⟨c2, -, h⟩ := bind_eq_ok.mp h
  obtain ⟨_, hc2, h⟩ := bind_eq_ok.mp h
  obtain ⟨alpha0, -, h⟩ := bind_eq_ok.mp h
  obtain ⟨_, halpha0, h⟩ := bind_eq_ok.mp h
  obtain ⟨alpha0', hreal₁, h⟩ := bind_eq_ok.mp h
  obtain ⟨c1', hreal₂, h⟩ := bind_eq_ok.mp h
  obtain ⟨c2', hreal₃, h⟩ := bind_eq_ok.mp h
  obtain ⟨maxIter, -, h⟩ := bind_eq_ok.mp h
  -- the order of the two constants is checked before any is converted
  cases h
  rw [check_eq_ok] at hc1 hc2 halpha0
  rw [Bool.not_eq_true'] at halpha0
  rw [Bool.and_eq_true] at hc2
  exact ⟨_, alpha0, c1, c2, rfl, ⟨halpha0, hreal₁⟩, ⟨hc1, hc2⟩, hreal₂, hreal₃⟩

/-- What the constructor of trust-region methods checked of the acceptance threshold it was given,
and what it made of it. -/
theorem trustRegion_eq_ok {args : Arguments V M} {rig : Rig Float V M}
    (h : trustRegion args = .ok rig) :
    ∃ (sub : Method Float V M) (settings : TrustRegion.Settings Float) (eta : Number Float),
      rig.method = .trustRegion sub settings ∧ (Number.real 0.0).le eta = true ∧
        eta.lt (.real 0.25) = true ∧ eta.toReal = .ok settings.eta := by
  unfold trustRegion at h
  obtain ⟨_, -, h⟩ := bind_eq_ok.mp h
  obtain ⟨radius, -, h⟩ := bind_eq_ok.mp h
  obtain ⟨_, -, h⟩ := bind_eq_ok.mp h
  obtain ⟨initial, -, h⟩ := bind_eq_ok.mp h
  obtain ⟨_, -, h⟩ := bind_eq_ok.mp h
  obtain ⟨maxRadius, -, h⟩ := bind_eq_ok.mp h
  obtain ⟨_, -, h⟩ := bind_eq_ok.mp h
  obtain ⟨eta, -, h⟩ := bind_eq_ok.mp h
  obtain ⟨_, heta, h⟩ := bind_eq_ok.mp h
  obtain ⟨maxRadius', -, h⟩ := bind_eq_ok.mp h
  obtain ⟨eta', hreal, h⟩ := bind_eq_ok.mp h
  obtain ⟨gradTol, -, h⟩ := bind_eq_ok.mp h
  cases h
  rw [check_eq_ok, Bool.and_eq_true] at heta
  exact ⟨_, _, eta, rfl, heta.1, heta.2, hreal⟩

/-- Of the integers only zero is accepted as a threshold. -/
theorem eq_zero_of_threshold {n : Int} (hzero : (Number.real (0.0 : Float)).le (.int n) = true)
    (hquarter : (Number.int n).lt (.real (0.25 : Float)) = true) : n = 0 := by
  have hfloor₀ : Scalar.isFinite (0.0 : Float) = true ∧ Scalar.floor (0.0 : Float) = 0 := by
    decide +kernel
  have hfloor₁ : Scalar.isFinite (0.25 : Float) = true ∧ Scalar.floor (0.25 : Float) = 0 := by
    decide +kernel
  have hle : 0 ≤ n := by
    have hzero : Number.realLeInt (0.0 : Float) n = true := hzero
    rw [Number.realLeInt, if_pos hfloor₀.1, hfloor₀.2, Bool.or_eq_true, Bool.and_eq_true,
      decide_eq_true_iff, decide_eq_true_iff] at hzero
    omega
  have hnot : ¬ 0 < n := by
    have hquarter : (!Scalar.isNaN (0.25 : Float) && !Number.realLeInt 0.25 n) = true := hquarter
    rw [Number.realLeInt, if_pos hfloor₁.1, hfloor₁.2] at hquarter
    intro hn
    rw [decide_eq_true hn] at hquarter
    simp at hquarter
  omega

/-- A threshold that was accepted is not negative. -/
theorem zero_le_of_threshold {eta : Number Float} {x : Float}
    (hzero : (Number.real 0.0).le eta = true) (hquarter : eta.lt (.real 0.25) = true)
    (h : eta.toReal = .ok x) : 0.0 ≤ x := by
  cases eta with
  | real y =>
    cases h
    exact of_decide_eq_true hzero
  | int n =>
    obtain rfl := eq_zero_of_threshold hzero hquarter
    have hof : (Scalar.ofInt? 0 : Option Float) = some 0.0 := by decide +kernel
    rw [Number.toReal, hof] at h
    cases h
    decide +kernel

end Construct

namespace Method

variable {V M σ : Type}

/-- A line search that a constructor made. -/
inductive Searches : Method Float V M → Prop
  | backtracking {args : Arguments V M} {rig : Rig Float V M}
      (h : Construct.backtracking args = .ok rig) : Searches rig.method
  | wolfe {args : Arguments V M} {rig : Rig Float V M}
      (h : Construct.wolfe args = .ok rig) : Searches rig.method

/-- A line search that a constructor made is faithful, whatever constants it was given. -/
theorem Searches.faithful [Space Float V] {op : Operator Float V M σ} {l : Landscape Float V M}
    {line : Method Float V M} (h : line.Searches) (hop : op.Follows l) :
    (line.lineSearch op).Faithful l := by
  cases h with
  | backtracking h =>
    obtain ⟨b, alpha0, rho, -, rfl, ⟨halpha0, hreal₁⟩, ⟨hrho, hreal₂⟩, -⟩ :=
      Construct.backtracking_eq_ok h
    refine Backtracking.faithful_lineSearch hop ⟨Number.ahead_toReal halpha0 hreal₁, ?_⟩
    -- the factor was checked to lie above zero, the first step length not to lie at or below it
    rw [Construct.inUnit, Bool.and_eq_true] at hrho
    exact Number.ahead_toReal (Number.not_le_zero_of_zero_lt hrho.1) hreal₂
  | wolfe h =>
    obtain ⟨w, alpha0, -, -, rfl, ⟨halpha0, hreal⟩, -⟩ := Construct.wolfe_eq_ok h
    exact Wolfe.faithful_lineSearch hop (Number.ahead_toReal halpha0 hreal)

end Method

end Descent
