import Descent.Method.Basic
import Descent.Proofs.Operator.Refusals
import Descent.Proofs.Run.Lower
import Descent.Proofs.Run.Unchecked

/-!
# Solving the model with the steps of a function

`Region.component` is the component of a trust-region method that answers with the steps of a
function.  Given a model, it refuses a radius that is not allowed and nothing else
(`Region.prepare_of_allowed`, `Region.prepare_of_not_allowed`).  The model is solved in a run of one
iteration, which in any arithmetic has no faults of its own: it ends with the step that the function
gives for the model (`Region.solveModel_of_step`), or fails as the function does
(`Region.solveModel_of_fault`).
-/

namespace Descent.Region

open Act
open Executor (Quiet Reached begun check continues drive_of_step_eq_error fuel iterate
  iterate_of_merge lt_fuel prepare prepare_eq_ok reached_zero run_of_drive_eq_error
  run_of_terminated step_of_iterate step_of_next_eq_error)

variable {R V M σ : Type} [Scalar R] {radius : R}

/-! ### Radii -/

/-- A radius that a model may have. -/
def Allowed (radius : R) : Prop := Scalar.isFinite radius = true ∧ ¬ radius ≤ 0.0

theorem run_setRadius_of_allowed (h : Allowed radius) (r : Region R V M) :
    (setRadius radius).run r = (.ok (), { r with radius := radius }) := by
  unfold setRadius
  rw [h.1, decide_eq_false h.2]
  rfl

theorem run_setRadius_of_not_allowed (h : ¬ Allowed radius) (r : Region R V M) :
    (setRadius radius).run r = (.error (.radiusRefused radius), r) := by
  have hrefused : (!Scalar.isFinite radius || decide (radius ≤ 0.0)) = true := by
    cases hfinite : Scalar.isFinite radius with
    | false => rfl
    | true => exact decide_eq_true (Decidable.of_not_not fun hpos => h ⟨hfinite, hpos⟩)
  unfold setRadius
  rw [hrefused]
  rfl

/-- What a model may have for a radius is a known value. -/
theorem Allowed.isNaN_eq_false [ReductionScalar R] (h : Allowed radius) :
    Scalar.isNaN radius = false :=
  (OrderedScalar.known_of_lt (ReductionScalar.lt_inf h.1)).1

/-! ### The component of a function -/

/-- The component that answers with the steps of a function. -/
def component (σ : Type) (name label : String)
    (step : V → M → R → Except (Fault R) (Delta R V M)) : Subproblem R V M σ (Memory R V M) :=
  Method.widenSubproblem (.ofRegion (algorithm name label step))

variable {name label : String} {step : V → M → R → Except (Fault R) (Delta R V M)} {g : V} {h : M}
  {b : Bench R σ (TrustRegion.Memory R (Memory R V M))}

theorem prepare_of_allowed (hradius : Allowed radius) (g : V) (hessian : Option M)
    (b : Bench R σ (TrustRegion.Memory R (Memory R V M))) :
    (TrustRegion.prepare (component σ name label step) radius g hessian).run b =
      (.ok (), ⟨⟨b.memory.working, .region ⟨radius, some g, hessian⟩⟩, b.session⟩) := by
  have hset : ((component σ name label step).setRadius radius).run b.memory.sub =
      (.ok (), .region { b.memory.sub.model with radius := radius }) := by
    show (Method.onModel (setRadius radius)).run b.memory.sub = _
    unfold Method.onModel
    rw [run_zoom, run_setRadius_of_allowed hradius]
  unfold TrustRegion.prepare Bench.inMemory
  rw [run_zoom, run_zoom, run_bind_of_ok hset]
  rfl

theorem prepare_of_not_allowed (hradius : ¬ Allowed radius) (g : V) (hessian : Option M)
    (b : Bench R σ (TrustRegion.Memory R (Memory R V M))) :
    ∃ b', (TrustRegion.prepare (component σ name label step) radius g hessian).run b =
      (.error (.radiusRefused radius), b') := by
  have hset : ((component σ name label step).setRadius radius).run b.memory.sub =
      (.error (.radiusRefused radius), .region b.memory.sub.model) := by
    show (Method.onModel (setRadius radius)).run b.memory.sub = _
    unfold Method.onModel
    rw [run_zoom, run_setRadius_of_not_allowed hradius]
  unfold TrustRegion.prepare Bench.inMemory
  rw [run_zoom, run_zoom, run_bind_of_error hset]
  exact ⟨_, rfl⟩

/-- With all parts of a model the algorithm answers as the function does. -/
theorem run_next_of_parts {r : Bench R σ (Region R V M)}
    (hparts : r.memory.parts label = .ok (g, h, radius)) (s : State R V M) :
    ((algorithm name label step).next s).run r = (step g h radius, r) := by
  unfold algorithm
  dsimp only
  rw [run_bind_of_ok (run_get r), run_bind_of_ok (run_lift_eq.mpr ⟨hparts, rfl⟩)]
  exact run_lift _ _

/-- So does the component once it was given a model. -/
theorem run_next_component {t : Stage R V M σ (Memory R V M)}
    (hmemory : t.memory = .region ⟨radius, some g, some h⟩)
    (hknown : Scalar.isNaN radius = false) :
    (component σ name label step).solver.next.run t = (some <$> step g h radius, t) := by
  obtain ⟨memory, s, session⟩ := t
  obtain rfl : memory = .region ⟨radius, some g, some h⟩ := hmemory
  have hparts : (⟨radius, some g, some h⟩ : Region R V M).parts label = .ok (g, h, radius) := by
    unfold parts
    dsimp only
    rw [hknown]
    rfl
  have hanswer : (some <$> (algorithm (σ := σ) name label step).next s).run
      ⟨⟨radius, some g, some h⟩, session⟩ =
        (some <$> step g h radius, ⟨⟨radius, some g, some h⟩, session⟩) := by
    show ((algorithm (σ := σ) name label step).next s >>= fun d => pure (some d)).run _ = _
    rw [run_bind, run_next_of_parts hparts]
    cases step g h radius <;> rfl
  exact Method.run_within_onStage (t := ⟨Memory.region ⟨radius, some g, some h⟩, s, session⟩)
    Memory.model Memory.region (fun s => some <$> (algorithm name label step).next s) hanswer

/-! ### The run that solves its model -/

section

variable [Space R V] (hmemory : b.memory.sub = .region ⟨radius, some g, some h⟩)

include hmemory

/-- Such a run begins with its one iteration. -/
theorem prepare_modelRun :
    (prepare (component σ name label step).solver).run
        (begun (component σ name label step).solver (TrustRegion.modelRun g b)) =
      (.ok (), begun (component σ name label step).solver (TrustRegion.modelRun g b)) := by
  obtain ⟨⟨working, memory⟩, session⟩ := b
  obtain rfl : memory = .region ⟨radius, some g, some h⟩ := hmemory
  refine prepare_eq_ok.mpr ⟨none, _, ?_, rfl⟩
  exact Method.run_within_onStage Memory.model Memory.region (fun _ => pure none) rfl

variable (hknown : Scalar.isNaN radius = false)
  (hbottom : Scalar.isNaN (Scalar.negInf : R) = false)

include hbottom

omit hmemory in
theorem validate_innerConfig (g : V) :
    (TrustRegion.innerConfig (R := R) g).validate = .ok () := by
  have htarget : (TrustRegion.innerConfig (R := R) g).targetCost.isNaN = .ok false :=
    congrArg Except.ok hbottom
  unfold Config.validate
  rw [htarget]
  rfl

include hknown

/-- It fails as the function does. -/
theorem run_of_fault {f : Fault R} (hf : f.isInterrupt = false)
    (hstep : step g h radius = .error f) :
    ∃ e, (Executor.run (component σ name label step).solver).run (TrustRegion.modelRun g b) =
      (.error f, e) := by
  have hnext : (component σ name label step).solver.next.run
      (begun (component σ name label step).solver (TrustRegion.modelRun g b)).stage =
        (.error f, (begun (component σ name label step).solver
          (TrustRegion.modelRun g b)).stage) := by
    rw [run_next_component hmemory hknown, hstep]
    rfl
  have hfuel : 0 < fuel (TrustRegion.innerConfig (R := R) g).maxIters := by
    have hlt : (1 : Int) < fuel (TrustRegion.innerConfig (R := R) g).maxIters := lt_fuel rfl
    omega
  have hdrive := drive_of_step_eq_error (reached_zero.mpr (prepare_modelRun hmemory)) hfuel rfl
    (step_of_next_eq_error hnext)
  exact ⟨_, run_of_drive_eq_error rfl (validate_innerConfig hbottom g) hf hdrive⟩

/-- It ends with the step that the function gives. -/
theorem run_of_step [ReductionScalar R] {p : V} {kv : List (String × Value R)}
    (hstep : step g h radius = .ok { param := some p, kv := kv }) :
    ∃ outcome e,
      (Executor.run (component σ name label step).solver).run (TrustRegion.modelRun g b) =
        (.ok outcome, e) ∧ outcome.state.param = some p := by
  set d : Delta R V M := { param := some p, kv := kv } with hd
  set solver := (component (M := M) σ name label step).solver with hsolver
  set e := begun solver (TrustRegion.modelRun g b) with he
  have habstains : solver.Abstains := (Algorithm.abstains_toSolver _).widen
  have hnext : solver.next.run e.stage = (.ok (some d), e.stage) := by
    rw [hsolver, run_next_component hmemory hknown, hstep]
    rfl
  set s : State R V M := { e.stage.state.mergeParts d with curIter := .int (0 + 1) } with hs
  have hterminate : solver.terminate.run (e.stage.withState s) =
      (.ok .maxItersReached, e.stage.withState s) := by
    obtain ⟨⟨working, memory⟩, session⟩ := b
    obtain rfl : memory = .region ⟨radius, some g, some h⟩ := hmemory
    exact Method.run_within_onStage Memory.model Memory.region (fun s => lift (terminate s)) rfl
  have htarget : (e.stage.state.mergeParts d).targetReached =
      .ok (Number.le (.real Scalar.inf) (.real (Scalar.negInf : R))) :=
    Value.le_of_number? rfl rfl
  obtain ⟨reason, hiterate, -, hfinal⟩ :=
    iterate_of_merge rfl rfl hnext (State.merge_of_none rfl) rfl hterminate htarget
  obtain rfl := hfinal rfl
  -- the only iteration is the last one that the ceiling allows
  have hprepare : (prepare solver).run e = (.ok (), e) := prepare_modelRun hmemory
  have hreached := reached_zero.mpr hprepare
  have hvalid := validate_innerConfig hbottom g
  have hcheck := TrustRegion.unrefused_modelRun habstains g b hvalid 0 e _ _ hreached rfl hiterate
  obtain ⟨u, hdone, huntold⟩ := step_of_iterate hiterate rfl nofun fun _ => hcheck
  have hfuel : 1 ≤ fuel (TrustRegion.innerConfig (R := R) g).maxIters := by
    have hlt : (1 : Int) < fuel (TrustRegion.innerConfig (R := R) g).maxIters := lt_fuel rfl
    omega
  have hstopped : u.stage.state.terminated = true :=
    congrArg (fun e => e.stage.state.terminated) huntold
  obtain ⟨outcome, e', hrun, hstate⟩ :=
    run_of_terminated rfl hvalid (hreached.more rfl hdone) hfuel hstopped
  refine ⟨outcome, e', hrun, ?_⟩
  rw [hstate]
  exact congrArg (fun e => e.stage.state.param) huntold

variable {op : Operator R V M σ} (hop : op.provides .cost = true)

omit [Space R V] hmemory hknown hbottom in
include hop in
theorem check_component : check op (component σ name label step).solver.name
    (component σ name label step).solver.requires = .ok () := by
  have hprovides : ∀ cap ∈ (component σ name label step).solver.requires,
      op.provides cap = true := by
    intro cap hcap
    obtain rfl := List.mem_singleton.mp hcap
    exact hop
  rw [Executor.check_of_provides hprovides]
  rfl

include hop

/-- A component that was given a model hands back the step that the function gives for it. -/
theorem solveModel_of_step [ReductionScalar R] {p : V} {kv : List (String × Value R)}
    (hstep : step g h radius = .ok { param := some p, kv := kv }) :
    ∃ b', (TrustRegion.solveModel op (component σ name label step) g).run b = (.ok p, b') := by
  obtain ⟨outcome, e, hrun, hparam⟩ := run_of_step hmemory hknown hbottom hstep
  rw [TrustRegion.solveModel_eq, run_bind_of_ok (run_lift_eq.mpr ⟨check_component hop, rfl⟩)]
  refine ⟨⟨⟨b.memory.working, e.stage.memory⟩, e.stage.session⟩, ?_⟩
  refine run_bind_eq_ok.mpr ⟨outcome, _, run_zoom_eq.mpr ⟨e, hrun, rfl⟩, ?_⟩
  rw [hparam]
  rfl

/-- Where the function fails it fails, too. -/
theorem solveModel_of_fault {f : Fault R} (hf : f.isInterrupt = false)
    (hstep : step g h radius = .error f) :
    ∃ b', (TrustRegion.solveModel op (component σ name label step) g).run b = (.error f, b') := by
  obtain ⟨e, hrun⟩ := run_of_fault hmemory hknown hbottom hf hstep
  rw [TrustRegion.solveModel_eq, run_bind_of_ok (run_lift_eq.mpr ⟨check_component hop, rfl⟩)]
  exact ⟨_, run_bind_of_error (run_zoom_eq.mpr ⟨e, hrun, rfl⟩)⟩

end

end Descent.Region
