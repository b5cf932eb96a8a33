import Descent.Proofs.Document.Method

/-!
# Strict documents of methods

A document is printed strictly only if every number in it is finite.  Arrays and the radius of a
subproblem solver never stand in the way, since what is not finite in them is written as a word
(`ArrayCodec.stored_strict`, `ArrayCodec.tensors_strict`).  The constants of a method are written
as they are.  The checks of the constructors leave only finite values to the ratios of the line
searches, the initial radius and the acceptance threshold, but not to first steps, tolerances, the
greatest radius and the limit on passes.

`Method.Bounded` says that these are finite, in the method and its components.  It is the exact
condition for a strict document, of every method that the constructors make
(`Document.isStrict_encodeRig`).
-/

namespace Descent

open Act (bind_eq_ok)

/-! ### Finite machine floats -/

/-- Parts that are ahead stand for a value at or above zero. -/
theorem Unpacked.zero_le_rank {u : Float.Model.UnpackedFloat} (h : Ahead u) :
    toLex (0, toLex (0, 0)) ≤ rank u := by
  rcases u with ⟨s⟩ | _ | ⟨s⟩ | ⟨s, m, e, hm⟩ <;>
    cases h <;>
    first
    | exact le_refl _
    | exact (toLex_lt_of_lt (by decide)).le

namespace Machine

theorem zero_le_of_ahead {x : Float} (h : Ahead x) (hnan : x.isNaN = false) : 0.0 ≤ x := by
  rw [le_iff_rank, rank_zero]
  exact ⟨⟨by decide +kernel, hnan⟩, Unpacked.zero_le_rank h.unpack⟩

/-- From zero on, what lies below another float is finite. -/
theorem isFinite_of_lt {x y : Float} (hx : 0.0 ≤ x) (h : x < y) : x.isFinite = true := by
  by_contra hfinite
  obtain ⟨hknown, hknown'⟩ := OrderedScalar.known_of_lt h
  have hneg : ¬ x < 0.0 := fun hlt => OrderedScalar.not_le_of_lt hlt hx
  exact OrderedScalar.not_le_of_lt h
    (le_of_not_isFinite hknown hknown' (Bool.eq_false_iff.mpr hfinite) hneg)

end Machine

namespace Number

theorem zero_le_of_zero_lt {x : Float} (h : (Number.int 0).lt (.real x) = true) : 0.0 ≤ x :=
  Machine.zero_le_of_ahead (ahead_of_zero_lt h).1 (ahead_of_zero_lt h).2

/-- From zero on, what lies below an integer is finite. -/
theorem isFinite_of_realLtInt {x : Float} {n : ℤ} (hx : 0.0 ≤ x) (h : realLtInt x n = true) :
    x.isFinite = true := by
  by_contra hfinite
  have hscalar : ¬ Scalar.isFinite x = true := hfinite
  rw [realLtInt, if_neg hscalar] at h
  exact OrderedScalar.not_le_of_lt (of_decide_eq_true h) hx

end Number

/-! ### Constants that are finite -/

theorem Construct.isFinite_of_inUnit {x : Float} (h : inUnit (.real x) = true) :
    x.isFinite = true := by
  obtain ⟨hzero, hone⟩ := Bool.and_eq_true_iff.mp h
  exact Number.isFinite_of_realLtInt (Number.zero_le_of_zero_lt hzero) hone

theorem Wolfe.Checked.isFinite {w : Wolfe Float} (h : w.Checked) :
    w.c1.isFinite = true ∧ w.c2.isFinite = true := by
  have hc1 := Number.zero_le_of_zero_lt h.decrease
  have horder : w.c1 < w.c2 := of_decide_eq_true h.order
  have hc2 : 0.0 ≤ w.c2 := OrderedScalar.le_trans hc1 (OrderedScalar.le_of_lt horder)
  exact ⟨Machine.isFinite_of_lt hc1 horder, Number.isFinite_of_realLtInt hc2 h.curvature⟩

theorem TrustRegion.Settings.Checked.isFinite_eta {s : TrustRegion.Settings Float}
    (h : s.Checked) : s.eta.isFinite = true :=
  Machine.isFinite_of_lt (of_decide_eq_true h.threshold) (of_decide_eq_true h.quarter)

/-! ### Arrays -/

namespace ArrayCodec

variable {V M : Type}

/-- What is written of arrays holds no number that is not finite. -/
structure Strict (codec : ArrayCodec V M) : Prop where
  vector : ∀ x doc, codec.encodeVector x = .ok doc → Json.isStrict doc = true
  matrix : ∀ h doc, codec.encodeMatrix h = .ok doc → Json.isStrict doc = true

theorem stored_strict : ArrayCodec.stored.Strict :=
  ⟨fun _ _ => Document.isStrict_encode, fun _ _ => Document.isStrict_encode⟩

theorem tensors_strict : ArrayCodec.tensors.Strict := by
  refine ⟨fun _ _ => Document.isStrict_encode, fun h doc hdoc => ?_⟩
  cases h with
  | matrix t => exact Document.isStrict_encode hdoc
  | function => cases hdoc

end ArrayCodec

/-! ### Methods -/

namespace Method

variable {V M : Type}

/-- The constants that the checks of the constructors leave open are finite, in a method and its
components. -/
def Bounded : Method Float V M → Prop
  | backtracking b => b.alpha0.isFinite = true
  | wolfe w => w.alpha0.isFinite = true
  | steepestDescent line tol => line.Bounded ∧ tol.isFinite = true
  | newtonCG line s =>
    line.Bounded ∧ s.tolGrad.isFinite = true ∧ s.tolCost.isFinite = true ∧
      ∀ v, s.cgMaxIter = .value v → Json.isStrict v = true
  | trustRegion sub s => sub.Bounded ∧ s.maxRadius.isFinite = true ∧ s.gradTol.isFinite = true
  | cauchy | dogleg | halving _ | scripted _ | other _ _ => True

/-- Whether a method is of a type that the constructors do not make. -/
def isForeign : Method Float V M → Bool
  | halving _ | scripted _ | other _ _ => true
  | _ => false

/-- A method that the constructors made of any arguments that they accept.  A component may be any
other such method, or a foreign one. -/
inductive Assembled : Method Float V M → Prop
  | search {m : Method Float V M} (h : m.Searches) : Assembled m
  | cauchy {args : Arguments V M} {rig : Rig Float V M}
      (h : Construct.subproblem .cauchy args = .ok rig) : Assembled rig.method
  | dogleg {args : Arguments V M} {rig : Rig Float V M}
      (h : Construct.subproblem .dogleg args = .ok rig) : Assembled rig.method
  | steepestDescent {args : Arguments V M} {rig : Rig Float V M}
      (hline : Assembled (args.component "line_search"
        ⟨.backtracking Backtracking.default, .plain⟩).method)
      (h : Construct.steepestDescent args = .ok rig) : Assembled rig.method
  | newtonCG {args : Arguments V M} {rig : Rig Float V M}
      (hline : Assembled (args.component "line_search" ⟨.wolfe Wolfe.default, .plain⟩).method)
      (h : Construct.newtonCG args = .ok rig) : Assembled rig.method
  | trustRegion {args : Arguments V M} {rig : Rig Float V M}
      (hsub : Assembled (args.component "subproblem" ⟨.cauchy, .region Region.unset⟩).method)
      (h : Construct.trustRegion args = .ok rig) : Assembled rig.method
  | foreign {m : Method Float V M} (h : m.isForeign = true) : Assembled m

end Method

namespace Document

variable {V M : Type} {codec : ArrayCodec V M}

theorem isStrict_methodDocument {type : String} {params : List (String × Document)} :
    Json.isStrict (methodDocument type params) = true ↔
      ∀ f ∈ params, Json.isStrict f.2 = true := by
  show (true && (true && (true && (Json.fieldsStrict params && true)))) = true ↔ _
  simp only [Bool.true_and, Bool.and_true, fieldsStrict_eq_true]

theorem isStrict_encodeOption {α : Type} {encode : α → Except (Fault Float) Document}
    (hencode : ∀ x doc, encode x = .ok doc → Json.isStrict doc = true) {o : Option α}
    {doc : Document} (h : ArrayCodec.encodeOption encode o = .ok doc) :
    Json.isStrict doc = true := by
  cases o with
  | none =>
    cases h
    rfl
  | some x => exact hencode x doc h

/-- A subproblem solver is written without a number that is not finite, whatever model it was
given. -/
theorem isStrict_encodeModel (hcodec : codec.Strict) {r : Region Float V M}
    {params : List (String × Document)} (h : encodeModel codec r = .ok params) (type : String) :
    Json.isStrict (methodDocument type params) = true := by
  unfold encodeModel at h
  obtain ⟨grad, hgrad, h⟩ := bind_eq_ok.mp h
  obtain ⟨hessian, hhessian, h⟩ := bind_eq_ok.mp h
  cases h
  rw [isStrict_methodDocument]
  simp only [List.forall_mem_cons, List.not_mem_nil, false_imp_iff, implies_true, and_true]
  exact ⟨isStrict_ofReal _, isStrict_encodeOption hcodec.vector hgrad,
    isStrict_encodeOption hcodec.matrix hhessian⟩

/-- What is written of a method whose constants pass the checks is strict exactly if the others
are finite. -/
theorem isStrict_encodeMethod (hcodec : codec.Strict) {m : Method Float V M}
    (hchecked : m.Checked) {memory : Memory Float V M} {doc : Document}
    (h : encodeMethod codec m memory = .ok doc) : Json.isStrict doc = true ↔ m.Bounded := by
  -- the document of a component stands in that of the method
  induction m generalizing memory doc with
  | backtracking b =>
    cases h
    have hrho := Construct.isFinite_of_inUnit hchecked.shrink
    have hc := Construct.isFinite_of_inUnit hchecked.decrease
    rw [isStrict_methodDocument]
    simp [Json.isStrict, Method.Bounded, hrho, hc]
  | wolfe w =>
    cases h
    obtain ⟨hc1, hc2⟩ := hchecked.isFinite
    rw [isStrict_methodDocument]
    simp [Json.isStrict, Method.Bounded, hc1, hc2]
  | cauchy | dogleg =>
    rw [encodeMethod] at h
    obtain ⟨params, hparams, h⟩ := bind_eq_ok.mp h
    cases h
    exact iff_of_true (isStrict_encodeModel hcodec hparams _) trivial
  | steepestDescent line tol ih =>
    rw [encodeMethod] at h
    obtain ⟨part, hpart, h⟩ := bind_eq_ok.mp h
    cases h
    rw [isStrict_methodDocument]
    simp [Json.isStrict, Method.Bounded, ih hchecked.1 hpart]
  | newtonCG line s ih =>
    rw [encodeMethod] at h
    obtain ⟨part, hpart, h⟩ := bind_eq_ok.mp h
    obtain ⟨limit, hlimit, h⟩ := bind_eq_ok.mp h
    cases h
    have hvalue : s.cgMaxIter = .value limit := by
      cases hs : s.cgMaxIter with
      | value v =>
        rw [hs] at hlimit
        cases hlimit
        rfl
      | other =>
        rw [hs] at hlimit
        cases hlimit
    rw [isStrict_methodDocument]
    simp [Json.isStrict, Method.Bounded, ih hchecked.1 hpart, hvalue]
  | trustRegion sub s ih =>
    rw [encodeMethod] at h
    obtain ⟨part, hpart, h⟩ := bind_eq_ok.mp h
    cases h
    obtain ⟨hsub, hs⟩ := hchecked
    have hradius : s.radius.isFinite = true := hs.finite
    rw [isStrict_methodDocument]
    simp [Json.isStrict, Method.Bounded, ih hsub hpart, hradius, hs.isFinite_eta]
  | halving | scripted | other => exact hchecked.elim

/-- No foreign method is written, so what is written has constants that pass the checks. -/
theorem checked_of_encodeMethod {m : Method Float V M} (hm : m.Assembled)
    {memory : Memory Float V M} {doc : Document} (h : encodeMethod codec m memory = .ok doc) :
    m.Checked := by
  induction hm generalizing memory doc with
  | search hsearches => exact hsearches.sound.1.checked
  | cauchy hmake | dogleg hmake =>
    rw [Construct.subproblem_eq_ok hmake]
    trivial
  | steepestDescent hline hmake ih =>
    obtain ⟨tol, htol, rfl⟩ := Construct.checked_steepestDescent hmake
    obtain ⟨part, hpart, -⟩ := bind_eq_ok.mp h
    exact ⟨ih hpart, htol⟩
  | newtonCG hline hmake ih =>
    obtain ⟨s, hs, -, rfl⟩ := Construct.checked_newtonCG hmake
    obtain ⟨part, hpart, -⟩ := bind_eq_ok.mp h
    exact ⟨ih hpart, hs⟩
  | trustRegion hsub hmake ih =>
    obtain ⟨s, hs, rfl⟩ := Construct.checked_trustRegion hmake
    obtain ⟨part, hpart, -⟩ := bind_eq_ok.mp h
    exact ⟨ih hpart, hs⟩
  | @foreign m hforeign =>
    -- a method of another make is not written at all
    cases m with
    | halving | scripted | other => cases h
    | backtracking | wolfe | cauchy | dogleg | steepestDescent | newtonCG | trustRegion =>
      cases hforeign

/-- Strict printing refuses exactly the documents that are not strict. -/
theorem exists_printStrict {layout : Json.Layout} {doc : Document} :
    (∃ text, Json.printStrict layout doc = .ok text) ↔ Json.isStrict doc = true := by
  unfold Json.printStrict
  constructor
  · rintro ⟨text, h⟩
    by_contra hstrict
    rw [if_neg hstrict] at h
    cases h
  · intro hstrict
    exact ⟨_, if_pos hstrict⟩

end Document

/-- The codecs of arrays as they are stored and of measured values, each with the vectors and
matrices that stand for floating arrays. -/
inductive ArrayCodec.Standard :
    {V M : Type} → ArrayCodec V M → (V → Prop) → (M → Prop) → Prop
  | stored : Standard ArrayCodec.stored StoredArray.Floating StoredArray.Floating
  | tensors : Standard ArrayCodec.tensors (fun t => (StoredArray.ofTensor t).Floating)
      fun h => ∃ t, h = .matrix t ∧ (StoredArray.ofTensor t).Floating

namespace ArrayCodec.Standard

variable {V M : Type} {codec : ArrayCodec V M} {vector : V → Prop} {matrix : M → Prop}

theorem restores (h : codec.Standard vector matrix) : codec.Restores vector matrix := by
  cases h with
  | stored => exact ArrayCodec.stored_restores
  | tensors => exact ArrayCodec.tensors_restores

theorem strict (h : codec.Standard vector matrix) : codec.Strict := by
  cases h with
  | stored => exact ArrayCodec.stored_strict
  | tensors => exact ArrayCodec.tensors_strict

end ArrayCodec.Standard

namespace Document

/-- A method that the constructors made is written if its components are of the right kinds and the
arrays left in it are floating ones.  What was written of it is strict, and printed as text in any
layout, exactly if the first steps, tolerances, greatest radius and limit on passes in it and its
components are finite.  What else is not finite is written as a word or refused by the
constructors. -/
theorem isStrict_encodeRig {V M : Type} {codec : ArrayCodec V M} {vector : V → Prop}
    {matrix : M → Prop} (hcodec : codec.Standard vector matrix) (rig : Rig Float V M)
    (hassembled : rig.method.Assembled) :
    (rig.method.Made → rig.method.Stores vector matrix rig.memory →
      ∃ doc, encodeRig codec rig = .ok doc) ∧
    ∀ doc, encodeRig codec rig = .ok doc →
      (Json.isStrict doc = true ↔ rig.method.Bounded) ∧
      ∀ layout, (∃ text, Json.printStrict layout doc = .ok text) ↔ rig.method.Bounded := by
  constructor
  · intro hmade hstores
    have hsound := hmade.sound
    obtain ⟨doc, hencode, -⟩ :=
      decodeRig_encodeMethod hcodec.restores hsound.checked hsound.plain hstores
    exact ⟨doc, hencode⟩
  · intro doc hdoc
    have hchecked := checked_of_encodeMethod hassembled hdoc
    have hiff := isStrict_encodeMethod hcodec.strict hchecked hdoc
    exact ⟨hiff, fun _ => exists_printStrict.trans hiff⟩

/-- Settings with a greatest radius. -/
def roomy (maxRadius : Float) : TrustRegion.Settings Float := ⟨1.0, maxRadius, 0.125, 1e-8⟩

/-- A trust-region method with these settings and a Cauchy-point solver. -/
def roomyRig (maxRadius : Float) : Rig Float (Tensor Float) (Curvature Float) :=
  ⟨.trustRegion .cauchy (roomy maxRadius), .trust 1.0 (.region Region.unset)⟩

theorem made_roomyRig {maxRadius : Float} (h : (roomy maxRadius).Checked) :
    (roomyRig maxRadius).method.Made ∧ (roomyRig maxRadius).method.Assembled := by
  have hcauchy : Construct.subproblem .cauchy [] =
      .ok (⟨.cauchy, .region Region.unset⟩ : Rig Float (Tensor Float) (Curvature Float)) := rfl
  have hmake := Construct.trustRegion_of_checked
    (⟨.cauchy, .region Region.unset⟩ : Rig Float (Tensor Float) (Curvature Float)) h
  have hmade := Method.Made.trustRegion rfl hmake
  have hassembled := Method.Assembled.trustRegion (.cauchy hcauchy) hmake
  exact ⟨hmade, hassembled⟩

/-- With a greatest radius of 2 the method is printed; with an infinite one, which the constructor
accepts, it is written and cannot be printed. -/
theorem isStrict_encodeRig_roomyRig :
    (∃ doc text, encodeRig ArrayCodec.tensors (roomyRig 2.0) = .ok doc ∧
      Json.printStrict .line doc = .ok text) ∧
    ∃ doc, encodeRig ArrayCodec.tensors (roomyRig Scalar.inf) = .ok doc ∧
      Json.isStrict doc = false ∧ ¬ ∃ text, Json.printStrict .line doc = .ok text := by
  have hstores (maxRadius : Float) : (roomyRig maxRadius).method.Stores
      (fun t => (StoredArray.ofTensor t).Floating)
      (fun h => ∃ t, h = .matrix t ∧ (StoredArray.ofTensor t).Floating)
      (roomyRig maxRadius).memory := ⟨nofun, nofun⟩
  have htwo : (roomy 2.0).Checked := by constructor <;> decide +kernel
  have hinf : (roomy Scalar.inf).Checked := by constructor <;> decide +kernel
  obtain ⟨hmade, hassembled⟩ := made_roomyRig htwo
  obtain ⟨hmade', hassembled'⟩ := made_roomyRig hinf
  obtain ⟨hwritten, hstrict⟩ := isStrict_encodeRig .tensors (roomyRig 2.0) hassembled
  obtain ⟨hwritten', hstrict'⟩ :=
    isStrict_encodeRig .tensors (roomyRig Scalar.inf) hassembled'
  have hbounded : (roomyRig 2.0).method.Bounded := ⟨trivial, by decide +kernel, by decide +kernel⟩
  have hunbounded : ¬ (roomyRig Scalar.inf).method.Bounded := fun h =>
    absurd h.2.1 (by decide +kernel)
  obtain ⟨doc, hdoc⟩ := hwritten hmade (hstores _)
  obtain ⟨doc', hdoc'⟩ := hwritten' hmade' (hstores _)
  -- a bounded greatest radius is written, an infinite one makes a text that is not strict
  obtain ⟨text, htext⟩ := ((hstrict doc hdoc).2 .line).mpr hbounded
  refine ⟨⟨doc, text, hdoc, htext⟩, doc', hdoc', ?_, ?_⟩
  · exact Bool.eq_false_iff.mpr fun h => hunbounded ((hstrict' doc' hdoc').1.mp h)
  · exact fun h => hunbounded (((hstrict' doc' hdoc').2 .line).mp h)

end Document

end Descent
