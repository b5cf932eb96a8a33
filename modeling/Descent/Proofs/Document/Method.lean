import Descent.Document.Method
import Descent.Proofs.Document.RoundTrip
import Descent.Proofs.Method.Checked

/-!
# Methods as documents

A component lies deeper in a document than the method that it is a component of, so reading never
runs out of depth, and it satisfies an equation in which components are read in the same way
(`Document.decodeRig_eq`).

A method whose constants pass the checks of their constructors, with components of the right kind
and arrays that can be stored, is read back from its document as it was, with the models that its
subproblem solvers were given and with the working radius that it starts from
(`Document.decodeRig_encodeMethod`).
-/

namespace Descent

open Act

/-! ### Depth -/

namespace Value

variable {R : Type}

theorem depth_lookup_le {key : String} {fields : List (String × Value R)} {v : Value R}
    (h : lookup key fields = some v) : v.depth ≤ depthFields fields := by
  induction fields with
  | nil => cases h
  | cons field fields ih =>
    obtain ⟨k, w⟩ := field
    unfold lookup at h
    rw [depthFields]
    split at h
    · cases h
      exact Nat.le_max_left _ _
    · exact (ih h).trans (Nat.le_max_right _ _)

theorem depth_field?_lt {key : String} {v w : Value R} (h : v.field? key = some w) :
    w.depth < v.depth := by
  cases v with
  | object fields =>
    rw [depth]
    exact Nat.lt_succ_of_le (depth_lookup_le h)
  | null | bool | int | real | text | list => cases h

end Value

namespace Document

variable {V M : Type} {codec : ArrayCodec V M}

/-- The parameters of a method's document. -/
def paramsOf (v : Document) : List (String × Document) :=
  match v.get "params" with
  | .object fields => fields
  | _ => []

theorem depth_lookup_paramsOf_lt {key : String} {v w : Document}
    (h : Value.lookup key (paramsOf v) = some w) : w.depth < v.depth := by
  unfold paramsOf at h
  cases hparams : v.get "params" with
  | object fields =>
    rw [hparams] at h
    have hfield : v.field? "params" = some (.object fields) :=
      Value.field?_of_get hparams nofun
    exact (Value.depth_field?_lt (v := .object fields) h).trans (Value.depth_field?_lt hfield)
  | null | bool | int | real | text | list =>
    rw [hparams] at h
    cases h

/-! ### Reading components in the same way -/

/-- A method made of a component, which is read by `read`, and of parameters that are passed on. -/
def decodeComposed (read : Document → Except (Fault Float) (Rig Float V M))
    (make : Arguments V M → Except (Fault Float) (Rig Float V M)) (component : String)
    (names : List String) (params : List (String × Document)) :
    Except (Fault Float) (Rig Float V M) := do
  let part ← read (← key params component)
  let args ← pass params names
  make ((component, .component part) :: args)

/-- The rig of the parameters of a type, its components being read by `read`. -/
def decodeWith (codec : ArrayCodec V M)
    (read : Document → Except (Fault Float) (Rig Float V M)) (type : Document)
    (params : List (String × Document)) : Except (Fault Float) (Rig Float V M) :=
  match type with
  | .text "CauchyPoint" => decodeModel codec .cauchy params
  | .text "Dogleg" => decodeModel codec .dogleg params
  | .text "TrustRegion" =>
    decodeComposed read Construct.trustRegion "subproblem"
      ["radius", "max_radius", "eta", "grad_tol"] params
  | .text "NewtonCG" =>
    decodeComposed read Construct.newtonCG "line_search" ["tol_grad", "tol_cost", "cg_max_iter"]
      params
  | .text "SteepestDescent" =>
    decodeComposed read Construct.steepestDescent "line_search" ["tol_grad"] params
  | .text "BacktrackingLineSearch" =>
    Construct.backtracking (params.map fun f => (f.1, .value f.2))
  | .text "WolfeLineSearch" => Construct.wolfe (params.map fun f => (f.1, .value f.2))
  | .text name => .error (.solverTypeUnknown name)
  | _ => .error .solverTypeMissing

theorem decodeTo_succ (depth : Nat) (v : Document) :
    decodeTo codec (depth + 1) v =
      (Schema.validateMethod v >>= fun _ =>
        decodeWith codec (decodeTo codec depth) (v.get "type") (paramsOf v)) := by
  unfold decodeTo decodeWith decodeComposed
  simp only [bind_assoc, pure_bind]
  rfl

/-- What is read of a parameter depends on the parameter only. -/
theorem key_bind_congr {α : Type} {params : List (String × Document)} {name : String}
    {f g : Document → Except (Fault Float) α}
    (h : ∀ w, Value.lookup name params = some w → f w = g w) :
    (key params name >>= f) = (key params name >>= g) := by
  unfold key
  cases hw : Value.lookup name params with
  | none => rfl
  | some w => exact h w hw

theorem decodeWith_congr {read read' : Document → Except (Fault Float) (Rig Float V M)}
    {type : Document} {params : List (String × Document)}
    (h : ∀ name w, Value.lookup name params = some w → read w = read' w) :
    decodeWith codec read type params = decodeWith codec read' type params := by
  have hcomposed (make : Arguments V M → Except (Fault Float) (Rig Float V M))
      (component : String) (names : List String) :
      decodeComposed read make component names params =
        decodeComposed read' make component names params :=
    key_bind_congr fun w hw => congrArg (· >>= _) (h component w hw)
  unfold decodeWith
  simp only [hcomposed]

/-- Beyond the depth of the document, the depth to which it is read makes no difference. -/
theorem decodeTo_eq {m n : Nat} {v : Document} (hm : v.depth < m) (hn : v.depth < n) :
    decodeTo codec m v = decodeTo codec n v := by
  induction m generalizing n v with
  | zero => omega
  | succ m ih =>
    cases n with
    | zero => omega
    | succ n =>
      rw [decodeTo_succ, decodeTo_succ]
      congr 1
      funext _
      refine decodeWith_congr fun name w hw => ?_
      have hdepth := depth_lookup_paramsOf_lt hw
      exact ih (by omega) (by omega)

/-- Reading a document reads its components in the same way. -/
theorem decodeRig_eq (v : Document) :
    decodeRig codec v =
      (Schema.validateMethod v >>= fun _ =>
        decodeWith codec (decodeRig codec) (v.get "type") (paramsOf v)) := by
  unfold decodeRig
  rw [decodeTo_succ]
  congr 1
  funext _
  refine decodeWith_congr fun name w hw => ?_
  have hdepth := depth_lookup_paramsOf_lt hw
  exact decodeTo_eq hdepth (Nat.lt_succ_self _)

end Document

/-! ### What is read back -/

/-- What a method keeps once it was read back: a subproblem solver the model it was given, and a
trust-region method the working radius that it starts from. -/
def Method.settled {V M : Type} : Method Float V M → Memory Float V M → Memory Float V M
  | backtracking _, _ | wolfe _, _ => .plain
  | cauchy, memory | dogleg, memory => .region memory.model
  | steepestDescent line _, memory | newtonCG line _, memory => .around (line.settled memory.inner)
  | trustRegion sub s, memory => .trust s.radius (sub.settled memory.inner)
  | _, memory => memory

/-- The arrays of a model, if they are set. -/
structure Region.Stores {V M : Type} (vector : V → Prop) (matrix : M → Prop)
    (r : Region Float V M) : Prop where
  grad : ∀ g, r.grad = some g → vector g
  hessian : ∀ h, r.hessian = some h → matrix h

/-- The arrays that the subproblem solvers of a method were given. -/
def Method.Stores {V M : Type} (vector : V → Prop) (matrix : M → Prop) :
    Method Float V M → Memory Float V M → Prop
  | cauchy, memory | dogleg, memory => memory.model.Stores vector matrix
  | steepestDescent line _, memory | newtonCG line _, memory =>
    line.Stores vector matrix memory.inner
  | trustRegion sub _, memory => sub.Stores vector matrix memory.inner
  | _, _ => True

/-- Arrays of these kinds are written, and read back as they were. -/
structure ArrayCodec.Restores {V M : Type} (codec : ArrayCodec V M) (vector : V → Prop)
    (matrix : M → Prop) : Prop where
  vector : ∀ x, vector x → ∃ doc, codec.encodeVector x = .ok doc ∧
    decodeOption codec.decodeVector doc = .ok (some x)
  matrix : ∀ h, matrix h → ∃ doc, codec.encodeMatrix h = .ok doc ∧
    decodeOption codec.decodeMatrix doc = .ok (some h)

/-- Arrays as they are stored, of floating types. -/
theorem ArrayCodec.stored_restores :
    ArrayCodec.stored.Restores StoredArray.Floating StoredArray.Floating := by
  have h : ∀ a : StoredArray, a.Floating → ∃ doc, a.encode = .ok doc ∧
      decodeOption (fun a => .ok a) doc = .ok (some a) := by
    intro a ha
    refine ⟨_, StoredArray.encode_eq ha, ?_⟩
    rw [decodeOption, StoredArray.decode_encode ha]
    rfl
  exact ⟨h, h⟩

/-- Arrays of measured values that a backend has, a Hessian being a matrix. -/
theorem ArrayCodec.tensors_restores :
    ArrayCodec.tensors.Restores (fun t => (StoredArray.ofTensor t).Floating)
      fun h => ∃ t, h = .matrix t ∧ (StoredArray.ofTensor t).Floating := by
  -- the entries were measured values before they were stored
  have htensor (t : Tensor Float) : (StoredArray.ofTensor t).toTensor = .ok t := by
    have hentries : (t.entries.map Element.real).mapM Element.toReal = .ok t.entries := by
      rw [mapM_eq_ok, List.forall₂_map_left_iff, List.forall₂_same]
      exact fun _ _ => rfl
    unfold StoredArray.toTensor StoredArray.ofTensor
    dsimp only
    rw [hentries]
    rfl
  refine ⟨fun t ht => ⟨_, StoredArray.encode_eq ht, ?_⟩, ?_⟩
  · rw [decodeOption, StoredArray.decode_encode ht]
    show (do return some (← (StoredArray.ofTensor t).toTensor)) = _
    rw [htensor]
    rfl
  · rintro _ ⟨t, rfl, ht⟩
    refine ⟨_, StoredArray.encode_eq ht, ?_⟩
    rw [decodeOption, StoredArray.decode_encode ht]
    show (do return some (← (do return Curvature.matrix (← (StoredArray.ofTensor t).toTensor)))) = _
    rw [htensor]
    rfl

namespace Document

variable {V M : Type} {codec : ArrayCodec V M} {vector : V → Prop} {matrix : M → Prop}

theorem decodeOption_encodeOption {α : Type} {stores : α → Prop}
    {encode : α → Except (Fault Float) Document} {decode : StoredArray → Except (Fault Float) α}
    (h : ∀ x, stores x → ∃ doc, encode x = .ok doc ∧
      ArrayCodec.decodeOption decode doc = .ok (some x))
    {o : Option α} (ho : ∀ x, o = some x → stores x) :
    ∃ doc, ArrayCodec.encodeOption encode o = .ok doc ∧
      ArrayCodec.decodeOption decode doc = .ok o := by
  cases o with
  | none => exact ⟨.null, rfl, rfl⟩
  | some x => exact h x (ho x rfl)

/-- The model of a subproblem solver is read back as it was. -/
theorem decodeModel_encodeModel (hcodec : codec.Restores vector matrix) (method : Method Float V M)
    {r : Region Float V M} (hr : r.Stores vector matrix) :
    ∃ params, encodeModel codec r = .ok params ∧
      decodeModel codec method params = .ok ⟨method, .region r⟩ := by
  obtain ⟨grad, hgrad, hgrad'⟩ := decodeOption_encodeOption hcodec.vector hr.grad
  obtain ⟨hessian, hhessian, hhessian'⟩ := decodeOption_encodeOption hcodec.matrix hr.hessian
  refine ⟨[("radius", ofReal r.radius), ("grad", grad), ("hessian", hessian)], ?_, ?_⟩
  · unfold encodeModel
    rw [hgrad, hhessian]
    rfl
  · show (do
      let radius ← (ofReal r.radius).toReal
      let grad ← ArrayCodec.decodeOption codec.decodeVector grad
      let hessian ← ArrayCodec.decodeOption codec.decodeMatrix hessian
      return ⟨method, .region ⟨radius, grad, hessian⟩⟩ :
        Except (Fault Float) (Rig Float V M)) = _
    rw [toReal_ofReal, hgrad', hhessian']
    rfl

/-- The document of a method is read by its type and its parameters. -/
theorem decodeRig_methodDocument (type : String) (params : List (String × Document)) :
    decodeRig codec (methodDocument type params) =
      decodeWith codec (decodeRig codec) (.text type) params := by
  rw [decodeRig_eq]
  rfl

/-- A method whose constants pass the checks is read back from its document as it was, with what it
keeps settled. -/
theorem decodeRig_encodeMethod (hcodec : codec.Restores vector matrix) {m : Method Float V M}
    (hchecked : m.Checked) (hplain : m.Plain) {memory : Memory Float V M}
    (hstores : m.Stores vector matrix memory) :
    ∃ doc, encodeMethod codec m memory = .ok doc ∧
      decodeRig codec doc = .ok ⟨m, m.settled memory⟩ := by
  -- a component is a smaller method, whose document stands in that of the method
  induction m generalizing memory with
  | backtracking b =>
    refine ⟨_, rfl, ?_⟩
    rw [decodeRig_methodDocument]
    exact Construct.backtracking_of_checked hchecked
  | wolfe w =>
    refine ⟨_, rfl, ?_⟩
    rw [decodeRig_methodDocument]
    exact Construct.wolfe_of_checked hchecked
  | cauchy =>
    obtain ⟨params, hencode, hdecode⟩ := decodeModel_encodeModel hcodec .cauchy hstores
    refine ⟨methodDocument "CauchyPoint" params, ?_, ?_⟩
    · rw [encodeMethod, hencode]
      rfl
    · rw [decodeRig_methodDocument]
      exact hdecode
  | dogleg =>
    obtain ⟨params, hencode, hdecode⟩ := decodeModel_encodeModel hcodec .dogleg hstores
    refine ⟨methodDocument "Dogleg" params, ?_, ?_⟩
    · rw [encodeMethod, hencode]
      rfl
    · rw [decodeRig_methodDocument]
      exact hdecode
  | steepestDescent line tol ih =>
    obtain ⟨hline, htol⟩ := hchecked
    obtain ⟨doc, hencode, hdecode⟩ := ih hline hplain hstores
    refine ⟨methodDocument "SteepestDescent" [("line_search", doc), ("tol_grad", .real tol)],
      ?_, ?_⟩
    · rw [encodeMethod, hencode]
      rfl
    · rw [decodeRig_methodDocument]
      show (decodeRig codec doc >>= fun rig => Construct.steepestDescent
        [("line_search", .component rig), ("tol_grad", .value (.real tol))]) = _
      rw [hdecode]
      exact Construct.steepestDescent_of_checked _ htol
  | newtonCG line s ih =>
    obtain ⟨hline, hs⟩ := hchecked
    obtain ⟨hplain, limit, hlimit⟩ := hplain
    obtain ⟨doc, hencode, hdecode⟩ := ih hline hplain hstores
    refine ⟨methodDocument "NewtonCG" [("line_search", doc), ("tol_grad", .real s.tolGrad),
      ("tol_cost", .real s.tolCost), ("cg_max_iter", limit)], ?_, ?_⟩
    · rw [encodeMethod, hencode, hlimit]
      rfl
    · rw [decodeRig_methodDocument]
      show (decodeRig codec doc >>= fun rig => Construct.newtonCG
        [("line_search", .component rig), ("tol_grad", .value (.real s.tolGrad)),
          ("tol_cost", .value (.real s.tolCost)), ("cg_max_iter", .value limit)]) = _
      rw [hdecode]
      exact Construct.newtonCG_of_checked _ hs hlimit
  | trustRegion sub s ih =>
    obtain ⟨hsub, hs⟩ := hchecked
    obtain ⟨doc, hencode, hdecode⟩ := ih hsub hplain hstores
    refine ⟨methodDocument "TrustRegion" [("subproblem", doc), ("radius", .real s.radius),
      ("max_radius", .real s.maxRadius), ("eta", .real s.eta), ("grad_tol", .real s.gradTol)],
      ?_, ?_⟩
    · rw [encodeMethod, hencode]
      rfl
    · rw [decodeRig_methodDocument]
      show (decodeRig codec doc >>= fun rig => Construct.trustRegion
        [("subproblem", .component rig), ("radius", .value (.real s.radius)),
          ("max_radius", .value (.real s.maxRadius)), ("eta", .value (.real s.eta)),
          ("grad_tol", .value (.real s.gradTol))]) = _
      rw [hdecode]
      exact Construct.trustRegion_of_checked _ hs
  | halving | scripted | other => exact hchecked.elim

end Document

end Descent
