import Descent.Proofs.Run.Restart

/-!
# What a solver makes of what it kept

A trust-region method gives its component a whole model before it asks it for a step, and a
component that takes a model keeps nothing of the one before (`Subproblem.Overwrites`).  So an
iteration does the same whatever the component kept, also if that was left halfway through an
earlier run (`TrustRegion.iterate_forgets`).  With the working radius, which the preparation sets,
nothing of the memory is left to read: a run of a method that minimises does the same whatever
memory it begins with (`Method.Forgets.same`).
-/

namespace Descent

open Act

variable {R V M σ μ : Type} [Scalar R]

/-! ### Subproblem solvers -/

namespace Subproblem

/-- Give the whole model to the subproblem solver. -/
def give (sub : Subproblem R V M σ μ) (radius : R) (grad : Option V) (hessian : Option M) :
    Act R μ Unit := do
  sub.setRadius radius
  sub.setGrad grad
  sub.setHessian hessian

/-- A model is refused, or replaces all that was kept, whatever that was. -/
def Overwrites (sub : Subproblem R V M σ μ) : Prop :=
  ∀ radius grad hessian,
    (∃ f, ∀ m, ∃ m', (sub.give radius grad hessian).run m = (.error f, m')) ∨
      ∃ m', ∀ m, (sub.give radius grad hessian).run m = (.ok (), m')

/-- A model that is kept is replaced, unless the radius is refused. -/
theorem overwrites_ofRegion [Space R V] [LinearAction R V M]
    (a : Algorithm R V M σ (Region R V M)) :
    (Method.widenSubproblem (.ofRegion a)).Overwrites := by
  intro radius grad hessian
  by_cases hrefused : (!Scalar.isFinite radius || decide (radius ≤ 0.0)) = true
  · -- a refused radius is refused before anything is set
    left
    refine ⟨.radiusRefused radius, fun m => ⟨.region m.model, ?_⟩⟩
    have hset : (Region.setRadius radius).run m.model =
        (.error (.radiusRefused radius), m.model) := by
      unfold Region.setRadius
      rw [if_pos hrefused]
      rfl
    have hgiven : (zoom Memory.model (fun r _ => .region r) (Region.setRadius radius)).run m =
        (.error (.radiusRefused radius), .region m.model) := run_zoom_eq.mpr ⟨_, hset, rfl⟩
    exact run_bind_of_error hgiven
  · -- otherwise all three parts are replaced
    right
    refine ⟨.region ⟨radius, grad, hessian⟩, fun m => ?_⟩
    have hset : (Region.setRadius radius).run m.model =
        (.ok (), { m.model with radius := radius }) := by
      unfold Region.setRadius
      rw [if_neg hrefused]
      rfl
    have hgiven : (zoom Memory.model (fun r _ => .region r) (Region.setRadius radius)).run m =
        (.ok (), .region { m.model with radius := radius }) := run_zoom_eq.mpr ⟨_, hset, rfl⟩
    exact run_bind_of_ok hgiven

end Subproblem

/-! ### The trust-region method -/

namespace TrustRegion

variable [Space R V] [LinearAction R V M] {sub : Subproblem R V M σ μ}

omit [Space R V] [LinearAction R V M] in
/-- The model is given to the component in a part of the memory. -/
theorem prepare_eq (sub : Subproblem R V M σ μ) (radius : R) (grad : V) (hessian : Option M) :
    prepare sub radius grad hessian = (Bench.inMemory (zoom Memory.sub
      (fun m (t : Memory R μ) => { t with sub := m }) (sub.give radius (some grad) hessian)) :
        Act R (Bench R σ (Memory R μ)) Unit) := rfl

omit [Space R V] [LinearAction R V M] in
/-- Nothing else is changed. -/
theorem run_prepare {radius : R} {grad : V} {hessian : Option M} {m m' : μ}
    {r : Except (Fault R) Unit} (h : (sub.give radius (some grad) hessian).run m = (r, m'))
    (working : R) (session : Session R σ) :
    (prepare sub radius grad hessian).run ⟨⟨working, m⟩, session⟩ =
      (r, ⟨⟨working, m'⟩, session⟩) := by
  have hpart : (zoom Memory.sub (fun m (t : Memory R μ) => { t with sub := m })
      (sub.give radius (some grad) hessian)).run ⟨working, m⟩ = (r, ⟨working, m'⟩) :=
    run_zoom_eq.mpr ⟨m', h, rfl⟩
  rw [prepare_eq]
  exact run_zoom_eq.mpr ⟨_, hpart, rfl⟩

/-- An iteration does the same whatever the component kept. -/
theorem iterate_forgets (hsub : sub.Overwrites) (op : Operator R V M σ) (settings : Settings R)
    (s : State R V M) (grad : V) :
    Related (Bench.Alike (Memory.Alike fun _ _ => True)) Eq (iterate op sub settings s grad)
      (iterate op sub settings s grad) := by
  rintro ⟨⟨working, m⟩, session⟩ ⟨⟨_, m'⟩, _⟩ ⟨⟨hworking, -⟩, hsession⟩
  cases hworking
  cases hsession
  unfold iterate
  rw [run_bind_of_ok (run_get _), run_bind_of_ok (run_get _)]
  rcases hsub working (some grad) s.hessian with ⟨f, hf⟩ | ⟨kept, hkept⟩
  · obtain ⟨n, hn⟩ := hf m
    obtain ⟨n', hn'⟩ := hf m'
    rw [run_bind_of_error (run_prepare hn working session),
      run_bind_of_error (run_prepare hn' working session)]
    exact ⟨⟨⟨rfl, trivial⟩, rfl⟩, .error f⟩
  · -- from here on the two benches are one
    rw [run_bind_of_ok (run_prepare (hkept m) working session),
      run_bind_of_ok (run_prepare (hkept m') working session)]
    exact ⟨⟨⟨rfl, trivial⟩, rfl⟩, .refl _⟩

/-- The method does the same on memories with one working radius. -/
theorem forgets (hsub : sub.Overwrites) (op : Operator R V M σ) (settings : Settings R) :
    Solver.Alike (Memory.Alike fun _ _ => True) (algorithm op sub settings).toSolver
      (algorithm op sub settings).toSolver := by
  refine Algorithm.toSolver_alike rfl (init_alike op settings) (fun s => ?_) fun s => .lift _
  show Related _ Eq (next op sub settings s) (next op sub settings s)
  unfold next
  refine (Related.lift _).bind_eq fun converged => Related.ite (.pure rfl) ?_
  exact (Related.lift _).bind_eq fun grad => iterate_forgets hsub op settings s grad

end TrustRegion

/-! ### Methods -/

namespace Method

/-- The methods that minimise and read nothing that an earlier run left: a descent along a line, or
a trust region around one of the two subproblem solvers. -/
inductive Forgets : Method R V M → Prop
  | steepestDescent (line : Method R V M) (tolGrad : R) : Forgets (.steepestDescent line tolGrad)
  | newtonCG (line : Method R V M) (settings : NewtonCG.Settings R) :
    Forgets (.newtonCG line settings)
  | cauchy (settings : TrustRegion.Settings R) : Forgets (.trustRegion .cauchy settings)
  | dogleg (settings : TrustRegion.Settings R) : Forgets (.trustRegion .dogleg settings)

variable [Space R V] [LinearAction R V M] {op : Operator R V M σ} {m : Method R V M}
  {solver : Solver R V M σ (Memory R V M)}

omit [Space R V] [LinearAction R V M] in
theorem Forgets.descends (hm : m.Forgets) : m.Descends := by
  cases hm with
  | steepestDescent line tolGrad => exact .steepestDescent line tolGrad
  | newtonCG line settings => exact .newtonCG line settings
  | cauchy settings => exact .trustRegion .cauchy settings
  | dogleg settings => exact .trustRegion .dogleg settings

/-- Runs around a component that keeps nothing of an earlier model do the same whatever memories
they begin with. -/
theorem same_of_overwrites {sub : Method R V M} {settings : TrustRegion.Settings R}
    (hsub : (sub.subproblem (σ := σ)).Overwrites)
    (hsolver : (Method.trustRegion sub settings).solver op = some solver)
    (memory memory' : Memory R V M) (session : Session R σ) (config : Config R V)
    (observers : List (ObserverEntry R V M)) :
    Executor.Same solver (.ready memory session config observers)
      (.ready memory' session config observers) := by
  have hrewound (p : Memory R V M) : Executor.Same solver (.ready p session config observers)
      (.ready ((Method.trustRegion sub settings).rewound p) session config observers) :=
    Executor.same_of_init rfl (run_init_rewound hsolver p)
  -- rewound, the memories have one working radius
  have halike : Solver.Alike (fun p q : Memory R V M => TrustRegion.Memory.Alike (fun _ _ => True)
      (p.trusted settings.radius) (q.trusted settings.radius)) solver solver := by
    cases hsolver
    exact (TrustRegion.forgets hsub op settings).widen (fun _ _ h => h) fun _ _ h => h
  have hsame : Executor.Same solver
      (.ready ((Method.trustRegion sub settings).rewound memory) session config observers)
      (.ready ((Method.trustRegion sub settings).rewound memory') session config observers) := by
    refine Executor.same_of_alike halike (fun _ _ h => ⟨h.working.symm, trivial⟩) ?_
    exact ⟨rfl, rfl, rfl, ⟨⟨rfl, trivial⟩, rfl, rfl⟩, rfl⟩
  exact (hrewound memory).trans (hsame.trans (hrewound memory').symm)

/-- Runs of a method that minimises do the same whatever memories they begin with. -/
theorem Forgets.same (hm : m.Forgets) (hsolver : m.solver op = some solver)
    (memory memory' : Memory R V M) (session : Session R σ) (config : Config R V)
    (observers : List (ObserverEntry R V M)) :
    Executor.Same solver (.ready memory session config observers)
      (.ready memory' session config observers) := by
  cases hm with
  | steepestDescent line tolGrad => exact same_of_matches hsolver trivial session config observers
  | newtonCG line settings => exact same_of_matches hsolver trivial session config observers
  | cauchy settings =>
    have hsub : ((Method.cauchy : Method R V M).subproblem (σ := σ)).Overwrites :=
      Subproblem.overwrites_ofRegion _
    exact same_of_overwrites hsub hsolver _ _ session config observers
  | dogleg settings =>
    have hsub : ((Method.dogleg : Method R V M).subproblem (σ := σ)).Overwrites :=
      Subproblem.overwrites_ofRegion _
    exact same_of_overwrites hsub hsolver _ _ session config observers

end Method

end Descent
