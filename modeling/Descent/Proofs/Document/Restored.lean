import Descent.Proofs.Document.Method
import Descent.Proofs.Run.Restart

/-!
# Solvers read back

A rig that is read back from its document has the same method, with the same constants and
components, and its subproblem solvers have the models that they were given.  What a method keeps
beyond this is made anew when a run begins (`Method.matches_settled`), so a run of the rig goes
where a run of the one that was written goes, whatever runs this one was used in before
(`Document.decodeRig_encodeRig`).
-/

namespace Descent

variable {V M : Type}

theorem Memory.inner_trusted (memory : Memory Float V M) (radius : Float) :
    (memory.trusted radius).sub = memory.inner := by
  cases memory <;> rfl

namespace Method

/-- A subproblem solver keeps its model when it is read back. -/
theorem model_settled {m : Method Float V M} (h : m.isSubproblem = true)
    (memory : Memory Float V M) : (m.settled memory).model = memory.model := by
  cases m with
  | cauchy | dogleg => rfl
  | backtracking | wolfe | steepestDescent | newtonCG | trustRegion | halving | scripted
  | other => cases h

/-- What a solver is read back with is, in what it reads of it, what it starts a run from. -/
theorem matches_settled {m : Method Float V M} (hplaced : m.WellPlaced) (hchecked : m.Checked)
    (memory : Memory Float V M) (hsolver : m.isLineSearch = false) :
    m.Matches (m.rewound memory) (m.settled memory) := by
  cases m with
  | backtracking | wolfe => cases hsolver
  | cauchy | dogleg => rfl
  | steepestDescent | newtonCG => trivial
  | trustRegion sub s =>
    refine ⟨rfl, ?_⟩
    show (memory.trusted s.radius).sub.model = (sub.settled memory.inner).model
    rw [memory.inner_trusted, model_settled hplaced.1]
  | halving | scripted | other => exact hchecked.elim

end Method

/-- A rig is what another one is restored to: its method, with what that keeps once it was read
back, and any run of the one goes as a run of the other. -/
structure Rig.Restored [Space Float V] [LinearAction Float V M] (rig rig' : Rig Float V M) :
    Prop where
  method : rig'.method = rig.method
  memory : rig'.memory = rig.method.settled rig.memory
  same : ∀ {σ : Type} (op : Operator Float V M σ)
    {solver : Solver Float V M σ (Memory Float V M)}, rig.method.solver op = some solver →
      ∀ (session : Session Float σ) (config : Config Float V)
        (observers : List (ObserverEntry Float V M)),
        Executor.Same solver (.ready rig.memory session config observers)
          (.ready rig'.memory session config observers)

/-- Every rig of a method that the constructors made, with arrays of these kinds, is restored by
reading its document. -/
def ArrayCodec.RoundTrips [Space Float V] [LinearAction Float V M] (codec : ArrayCodec V M)
    (vector : V → Prop) (matrix : M → Prop) : Prop :=
  ∀ rig : Rig Float V M, rig.method.Made → rig.method.Stores vector matrix rig.memory →
    ∃ doc rig', Document.encodeRig codec rig = .ok doc ∧ Document.decodeRig codec doc = .ok rig' ∧
      rig.Restored rig'

/-- A codec that restores arrays restores rigs. -/
theorem ArrayCodec.Restores.roundTrips [Space Float V] [LinearAction Float V M]
    {codec : ArrayCodec V M} {vector : V → Prop} {matrix : M → Prop}
    (h : codec.Restores vector matrix) : codec.RoundTrips vector matrix := by
  intro rig hmade hstores
  have hsound := hmade.sound
  obtain ⟨doc, hencode, hdecode⟩ :=
    Document.decodeRig_encodeMethod h hsound.checked hsound.plain hstores
  refine ⟨doc, _, hencode, hdecode, rfl, rfl, ?_⟩
  intro σ op solver hsolver session config observers
  have hkind : rig.method.isLineSearch = false := by
    cases hm : rig.method with
    | backtracking | wolfe =>
      rw [hm] at hsolver
      cases hsolver
    | cauchy | dogleg | steepestDescent | newtonCG | trustRegion | halving | scripted
    | other => rfl
  exact Method.same_of_matches hsolver
    (Method.matches_settled hsound.wellPlaced hsound.checked rig.memory hkind) session config
    observers

namespace Document

/-- A rig of a method that the constructors made is written, and read back with the same method and
models; runs of it visit the states that runs of the one that was written visit and end as they do.
The arrays are of floating types, as they are stored or as measured values. -/
theorem decodeRig_encodeRig :
    (∀ [Space Float StoredArray] [LinearAction Float StoredArray StoredArray],
      ArrayCodec.stored.RoundTrips StoredArray.Floating StoredArray.Floating) ∧
    ArrayCodec.tensors.RoundTrips (fun t => (StoredArray.ofTensor t).Floating)
      fun h => ∃ t, h = .matrix t ∧ (StoredArray.ofTensor t).Floating :=
  ⟨ArrayCodec.stored_restores.roundTrips, ArrayCodec.tensors_restores.roundTrips⟩

/-- A trust-region method with a dogleg solver, in which a run has left a working radius, a gradient
and a Hessian. -/
def usedRig : Rig Float (Tensor Float) (Curvature Float) where
  method := .trustRegion .dogleg ⟨1.0, 2.0, 0.125, 1e-8⟩
  memory := .trust 0.5 (.region
    ⟨0.5, some ⟨.numpy, [1], [3.0]⟩, some (.matrix ⟨.numpy, [1, 1], [2.0]⟩)⟩)

theorem made_usedRig : usedRig.method.Made := by
  have hchecked : (⟨1.0, 2.0, 0.125, 1e-8⟩ : TrustRegion.Settings Float).Checked := by
    constructor <;> decide +kernel
  have hmake := Construct.trustRegion_of_checked
    (⟨.dogleg, .region Region.unset⟩ : Rig Float (Tensor Float) (Curvature Float)) hchecked
  have hmade := Method.Made.trustRegion rfl hmake
  exact hmade

theorem stores_usedRig : usedRig.method.Stores (fun t => (StoredArray.ofTensor t).Floating)
    (fun h => ∃ t, h = .matrix t ∧ (StoredArray.ofTensor t).Floating) usedRig.memory := by
  have hgrad : (StoredArray.ofTensor ⟨.numpy, [1], [3.0]⟩).Floating := by
    refine ⟨?_, ⟨[3.0], rfl, ?_⟩, rfl, ?_, rfl⟩
    all_goals decide +kernel
  have hhessian : (StoredArray.ofTensor ⟨.numpy, [1, 1], [2.0]⟩).Floating := by
    refine ⟨?_, ⟨[2.0], rfl, ?_⟩, rfl, ?_, rfl⟩
    all_goals decide +kernel
  refine ⟨?_, ?_⟩
  · rintro _ ⟨⟩
    exact hgrad
  · rintro _ ⟨⟩
    exact ⟨_, rfl, hhessian⟩

/-- The used method is read back, its working radius being the one that it starts from. -/
theorem decodeRig_encodeRig_usedRig :
    ∃ doc rig', encodeRig ArrayCodec.tensors usedRig = .ok doc ∧
      decodeRig ArrayCodec.tensors doc = .ok rig' ∧ usedRig.Restored rig' ∧
      rig'.memory = .trust 1.0 (.region
        ⟨0.5, some ⟨.numpy, [1], [3.0]⟩, some (.matrix ⟨.numpy, [1, 1], [2.0]⟩)⟩) := by
  obtain ⟨doc, rig', hencode, hdecode, hrestored⟩ :=
    decodeRig_encodeRig.2 usedRig made_usedRig stores_usedRig
  exact ⟨doc, rig', hencode, hdecode, hrestored, hrestored.memory⟩

end Document

end Descent
