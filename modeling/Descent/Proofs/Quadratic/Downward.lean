import Descent.Proofs.Exact.Space
import Descent.Proofs.Quadratic.Conjugate
import Descent.Proofs.Solver.Refusals

/-!
# Directions that a Wolfe search does not refuse

A Wolfe search refuses a direction along which the slope is not negative.  From a gradient that is
not zero the inner solve of Newton's method answers with no such direction: on a symmetric matrix,
however it curves, the model falls towards the answer (`ConjugateGradient.direction_falls`).  The
solve asks for products with the Hessian only, so it does not matter in which representation this is
given (`ConjugateGradient.direction_congr`): as a matrix, or as a function that computes the
products (`Exact.Products`).

So an iteration of Newton's method with a Wolfe search is refused its direction only if a function
of the operator raises that refusal (`NewtonCG.never_refused`).
-/

open scoped RealInnerProductSpace

namespace Descent

open Exact
open Act (Raises FaultsIn Triple)

variable {n : ℕ} {M σ : Type} [LinearAction Exact (Vec n) M]

/-- Every Hessian that the operator answers with acts as a symmetric matrix. -/
def Operator.Symmetric (op : Operator Exact (Vec n) M σ) : Prop :=
  ∀ f x w h w', op.hessian = some f → (f x).run w = (.ok (some h), w') →
    ∃ A : Mat n, A.IsSymm ∧ Acts h A

/-! ### Directions -/

namespace ConjugateGradient

variable {g : Vec n} {limit : Option Int}

theorem direction_falls_of_acts {h : M} {A : Mat n} (hA : A.IsSymm) (hh : Acts h A) (hg : g ≠ 0)
    (hlimit : ∀ k, limit = some k → 0 ≤ k) :
    ∃ p, direction g (some h) limit = .ok p ∧ ⟪g, p⟫ < 0 := by
  have himage : ∀ x : Vec n, Space.imageUnder (some h) x = Space.imageUnder (some A) x := hh
  rw [direction_congr himage]
  exact direction_falls hA hg (passes_ne_zero hlimit n)

/-- Without a Hessian there is no direction. -/
theorem isSome_of_direction {hess : Option M} {d : Vec n} (hlimit : ∀ k, limit = some k → 0 ≤ k)
    (hd : direction g hess limit = .ok d) : ∃ h, hess = some h := by
  cases hess with
  | some h => exact ⟨h, rfl⟩
  | none =>
    -- the first pass is refused the image
    obtain ⟨left, hleft⟩ := Nat.exists_eq_succ_of_ne_zero (passes_ne_zero hlimit n)
    have hsize : passes limit (Space.size g) = left + 1 := hleft
    unfold direction at hd
    rw [hsize] at hd
    cases hd

end ConjugateGradient

namespace NewtonCG

/-- What an iteration may end in: not in a refusal of its direction, unless a function of the
operator raises that. -/
def Unrefused (op : Operator Exact (Vec n) M σ) (f : Fault Exact) : Prop :=
  f = .notDescent → Raised op.cost op.gradient op.hessian .notDescent

/-- The Hessian, if there is one, acts as a symmetric matrix. -/
def Symmetric (n : ℕ) {M : Type} [LinearAction Exact (Vec n) M] (hess : Option M) : Prop :=
  ∀ h, hess = some h → ∃ A : Mat n, A.IsSymm ∧ Acts h A

section

variable {op : Operator Exact (Vec n) M σ} {settings : Settings Exact}

theorem unrefused_of_ordinary {f : Fault Exact} (hf : f.Ordinary) : Unrefused op f := by
  rintro rfl
  exact hf.elim

theorem unrefused_of_raised {f : Fault Exact} (hf : Raised op.cost op.gradient op.hessian f) :
    Unrefused op f :=
  fun h => h ▸ hf

theorem refuses_unrefused : Space.Refuses (Unrefused op) (Vec n) :=
  ⟨fun _ _ => .ok _, fun _ _ => unrefused_of_ordinary trivial,
    fun _ => unrefused_of_ordinary trivial, fun _ _ => .ok _, fun _ _ => .ok _⟩

theorem answers_unrefused : Session.Answers (Unrefused op) op where
  cost := Session.faultsIn_costValue (fun _ => unrefused_of_ordinary) (fun _ => nofun)
    fun _ _ => Raised.faultsIn_cost fun _ => unrefused_of_raised
  gradient := Session.faultsIn_gradient (fun _ => unrefused_of_ordinary) (fun _ => nofun)
    fun _ _ => Raised.faultsIn_gradient fun _ => unrefused_of_raised

theorem triple_hessian_symmetric (hop : op.Symmetric) (x : Option (Vec n)) :
    Triple (fun _ => True) (Unrefused op) (Session.hessian op x) fun hess _ =>
      Symmetric n hess := by
  refine Session.triple_evaluate (fun _ => unrefused_of_ordinary) (fun _ => nofun)
    (fun _ f hf x w _ => ⟨fun hess w' hrun h hh => ?_, fun f' w' hrun => ?_⟩) x
  · exact hop f x w h w' hf (hh ▸ hrun)
  · exact unrefused_of_raised (.hessian hf hrun)

/-- A product that is refused is so for want of a Hessian. -/
theorem raises_image {hess : Option M} (hhess : Symmetric n hess) (x : Vec n) :
    Raises (Unrefused op) (Space.imageUnder hess x) := by
  cases hess with
  | none => exact .error (unrefused_of_ordinary trivial)
  | some h =>
    obtain ⟨A, -, hh⟩ := hhess h rfl
    show Raises _ (LinearAction.apply h x)
    rw [hh x]
    exact .ok _

variable (hlimit : ∀ k, settings.cgMaxIter.passes = .ok (some k) → 0 ≤ k)

include hlimit

theorem slope_direction {g d : Vec n} (hg : g ≠ 0) {hess : Option M}
    (hhess : Symmetric n hess) (hd : direction settings (some g) hess = .ok d) : ⟪g, d⟫ < 0 := by
  unfold direction at hd
  obtain ⟨g', hg', hd⟩ := Act.bind_eq_ok.mp hd
  cases hg'
  obtain ⟨limit, hpasses, hd⟩ := Act.bind_eq_ok.mp hd
  have hnonneg : ∀ k, limit = some k → 0 ≤ k := fun k hk => hlimit k (hk ▸ hpasses)
  obtain ⟨h, rfl⟩ := ConjugateGradient.isSome_of_direction hnonneg hd
  obtain ⟨A, hA, hh⟩ := hhess h rfl
  obtain ⟨p, hp, hfalls⟩ := ConjugateGradient.direction_falls_of_acts hA hh hg hnonneg
  cases hp.symm.trans hd
  exact hfalls

theorem faultsIn_next_unrefused (hop : op.Symmetric) (w : Wolfe Exact)
    {s : State Exact (Vec n) M} {g : Vec n} (hgrad : s.grad = some g) (hg : g ≠ 0) :
    FaultsIn (Unrefused op) (next op (w.lineSearch op) settings s) := by
  have hp : ∀ f : Fault Exact, f.Ordinary → Unrefused op f := fun _ => unrefused_of_ordinary
  refine (triple_hessian_symmetric hop s.param).bind_faultsIn fun hess hhess => ?_
  refine .lift_bind (raises_direction hp refuses_unrefused settings s.grad (raises_image hhess))
    fun d hd => ?_
  rw [hgrad] at hd
  have hfalls := slope_direction hlimit hg hhess hd
  refine Descending.faultsIn_advance hp refuses_unrefused answers_unrefused
    (Wolfe.faultsIn_search hp refuses_unrefused answers_unrefused w ?_)
  -- the slope that the search refuses is that of the direction
  intro grad slope hsame hslope hup
  rw [hsame g hgrad] at hslope
  cases hslope
  rw [zero_eq, real_le] at hup
  exact absurd hfalls hup.not_gt

end

/-- **Newton's method is not refused its direction.**  From a gradient that is not zero the inner
solve on a Hessian that acts as a symmetric matrix, in whatever representation, answers with a
direction along which the model falls.  So an iteration with a Wolfe search that ends in the refusal
of a direction has it from a function of the operator. -/
theorem never_refused :
    (∀ (A : Mat n) (h : M) (g : Vec n) (limit : Option Int), A.IsSymm → Acts h A → g ≠ 0 →
      (∀ k, limit = some k → 0 ≤ k) →
        ∃ p, ConjugateGradient.direction g (some h) limit = .ok p ∧ ⟪g, p⟫ < 0) ∧
    ∀ (op : Operator Exact (Vec n) M σ) (w : Wolfe Exact) (settings : Settings Exact)
      (solver : Solver Exact (Vec n) M σ (Memory Exact (Vec n) M)),
      (Method.newtonCG (.wolfe w) settings).solver op = some solver → op.Symmetric →
      (∀ k, settings.cgMaxIter.passes = .ok (some k) → 0 ≤ k) →
      ∀ t t' g, t.state.grad = some g → g ≠ 0 → solver.next.run t = (.error .notDescent, t') →
        Raised op.cost op.gradient op.hessian .notDescent := by
  constructor
  · intro A h g limit hA hh hg hlimit
    exact ConjugateGradient.direction_falls_of_acts hA hh hg hlimit
  · intro op w settings solver hsolver hop hlimit t t' g hgrad hg hrun
    cases hsolver
    have hstage : (Algorithm.onStage fun s => some <$> Bench.inSession
        (next op (w.lineSearch op) settings s)).run t = (.error .notDescent, t') := hrun
    obtain ⟨b, hb⟩ := Algorithm.exists_of_onStage hstage
    have hnext : FaultsIn (Unrefused op) (some <$> (Bench.inSession
        (next op (w.lineSearch op) settings t.state) :
          Act Exact (Bench Exact σ (Memory Exact (Vec n) M)) _)) :=
      (faultsIn_next_unrefused hlimit hop w hgrad hg).zoom.map
    exact hnext _ _ b hb rfl

/-- A dome whose cost refuses the direction, with the products of its Hessian. -/
noncomputable def dome : Operator Exact (Vec 1) (Products 1) Unit where
  label := "Dome"
  cost := some fun _ => throw .notDescent
  gradient := some fun x => pure (some (-x))
  hessian := some fun _ => pure (some ⟨fun x => .ok (image (-1) x)⟩)

/-- The model falls towards the answer on the dome, and the iteration that ends in a refusal of the
direction has it from the cost. -/
theorem never_refused_dome :
    ∃ p : Vec 1, ConjugateGradient.direction (EuclideanSpace.single 0 1)
        (some (⟨fun x => .ok (image (-1) x)⟩ : Products 1)) (some 0) = .ok p ∧
      ⟪EuclideanSpace.single 0 1, p⟫ < 0 ∧
      Raised dome.cost dome.gradient dome.hessian .notDescent := by
  have hsymm : (-1 : Mat 1).IsSymm := Matrix.isSymm_one.neg
  have hacts := acts_products (-1 : Mat 1)
  have hg : (EuclideanSpace.single 0 1 : Vec 1) ≠ 0 := by simp
  obtain ⟨hfalls, hraised⟩ := never_refused (n := 1) (M := Products 1) (σ := Unit)
  obtain ⟨p, hp, hslope⟩ := hfalls (-1) _ _ (some 0) hsymm hacts hg (by simp)
  refine ⟨p, hp, hslope, ?_⟩
  -- the dome answers with a matrix that is its own transpose
  have hdome : dome.Symmetric := by
    intro f x w h w' hf hh
    cases hf
    cases hh
    exact ⟨-1, hsymm, hacts⟩
  let settings : Settings Exact := ⟨real 0, real 0, .value (.int 0)⟩
  let s : State Exact (Vec 1) (Products 1) :=
    { param := some (-EuclideanSpace.single 0 1), grad := some (EuclideanSpace.single 0 1) }
  let session : Session Exact Unit := ⟨{}, (), [], false, real 0⟩
  have hnext : ∃ session', (next dome (Wolfe.default.lineSearch dome) settings s).run session =
      (.error .notDescent, session') := by
    have hdirection : direction settings s.grad
        (some (⟨fun x => .ok (image (-1) x)⟩ : Products 1)) = .ok p := hp
    -- the matrix is asked for first, and then the search, whose gradient call raises
    have hhess : (Session.hessian dome s.param).run session =
      (.ok (some ⟨fun x => .ok (image (-1) x)⟩), { session with counts := ⟨0, 0, 1⟩ }) := rfl
    refine ⟨{ session with counts := ⟨1, 0, 1⟩ }, ?_⟩
    unfold next
    rw [Act.run_bind_of_ok hhess, Act.run_bind_of_ok (Act.run_lift_eq.mpr ⟨hdirection, rfl⟩)]
    rfl
  obtain ⟨session', hnext⟩ := hnext
  have hbench : (Bench.inSession (next dome (Wolfe.default.lineSearch dome) settings s)).run
      ⟨(.plain : Memory Exact (Vec 1) (Products 1)), session⟩ =
        (.error .notDescent, ⟨.plain, session'⟩) :=
    Act.run_zoom_eq.mpr ⟨session', hnext, rfl⟩
  have hrun := Algorithm.run_onStage
    (t := ⟨(.plain : Memory Exact (Vec 1) (Products 1)), s, session⟩)
    (fun s => some <$> Bench.inSession (next dome (Wolfe.default.lineSearch dome) settings s))
    (Act.run_bind_of_error hbench)
  have hlimit : ∀ k, settings.cgMaxIter.passes = .ok (some k) → 0 ≤ k := by
    rintro k ⟨⟩
    exact le_refl 0
  exact hraised dome Wolfe.default settings _ rfl hdome hlimit _ _ _ rfl hg hrun

end NewtonCG

end Descent
