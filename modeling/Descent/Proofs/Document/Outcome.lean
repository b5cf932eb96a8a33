import Descent.Proofs.Document.Parameters

/-!
# The outcome of reading a method

A document from which a method is read names its type, and its constants pass the checks of their
constructor.  The radius of a subproblem solver and the type of a component are not checked, so the
method is well formed exactly if the document is `Document.Fitting` in these.
`Document.decodeRig_outcome` is the whole story for documents whose arrays name floating types.
-/

namespace Descent

open Act

/-- A radius that is unset, or that a subproblem solver can be given. -/
def Region.Fits {V M : Type} (r : Region Float V M) : Prop :=
  r.radius.isNaN = true ∨ (0.0 < r.radius ∧ r.radius.isFinite = true)

/-- The radius of every subproblem solver in a method is unset or positive and finite. -/
def Method.RadiiFit {V M : Type} : Method Float V M → Memory Float V M → Prop
  | cauchy, memory | dogleg, memory => memory.model.Fits
  | steepestDescent line _, memory | newtonCG line _, memory => line.RadiiFit memory.inner
  | trustRegion sub _, memory => sub.RadiiFit memory.inner
  | _, _ => True

/-- A rig with components of the right kind, whose constants pass the checks of their constructors
and whose radii those of their setter. -/
structure Rig.WellFormed {V M : Type} (rig : Rig Float V M) : Prop where
  checked : rig.method.Checked
  placed : rig.method.WellPlaced
  radii : rig.method.RadiiFit rig.memory

namespace Document

variable {V M : Type} {codec : ArrayCodec V M} {v : Document} {rig : Rig Float V M}

/-! ### What is read -/

/-- What a rig that was read of a document says of it. -/
inductive Reads (codec : ArrayCodec V M) : Document → Rig Float V M → Prop
  | cauchy {v x : Document} {r : Region Float V M} (htype : v.get "type" = .text "CauchyPoint")
      (hradius : Value.lookup "radius" (paramsOf v) = some x) (hx : x.toReal = .ok r.radius) :
      Reads codec v ⟨.cauchy, .region r⟩
  | dogleg {v x : Document} {r : Region Float V M} (htype : v.get "type" = .text "Dogleg")
      (hradius : Value.lookup "radius" (paramsOf v) = some x) (hx : x.toReal = .ok r.radius) :
      Reads codec v ⟨.dogleg, .region r⟩
  | backtracking {v : Document} {b : Backtracking Float}
      (htype : v.get "type" = .text "BacktrackingLineSearch") (hb : b.Checked) :
      Reads codec v ⟨.backtracking b, .plain⟩
  | wolfe {v : Document} {w : Wolfe Float} (htype : v.get "type" = .text "WolfeLineSearch")
      (hw : w.Checked) : Reads codec v ⟨.wolfe w, .plain⟩
  | steepestDescent {v c : Document} {line : Rig Float V M} {tol : Float}
      (htype : v.get "type" = .text "SteepestDescent")
      (hc : Value.lookup "line_search" (paramsOf v) = some c) (hline : Reads codec c line)
      (htol : Construct.isNegative (.real tol) = false) :
      Reads codec v ⟨.steepestDescent line.method tol, .around line.memory⟩
  | newtonCG {v c : Document} {line : Rig Float V M} {s : NewtonCG.Settings Float}
      (htype : v.get "type" = .text "NewtonCG")
      (hc : Value.lookup "line_search" (paramsOf v) = some c) (hline : Reads codec c line)
      (hs : s.Checked) : Reads codec v ⟨.newtonCG line.method s, .around line.memory⟩
  | trustRegion {v c : Document} {sub : Rig Float V M} {s : TrustRegion.Settings Float}
      (htype : v.get "type" = .text "TrustRegion")
      (hc : Value.lookup "subproblem" (paramsOf v) = some c) (hsub : Reads codec c sub)
      (hs : s.Checked) : Reads codec v ⟨.trustRegion sub.method s, .trust s.radius sub.memory⟩

/-- The model of a subproblem solver has the radius of the document. -/
theorem decodeModel_eq_ok {method : Method Float V M}
    (h : decodeModel codec method (paramsOf v) = .ok rig) :
    ∃ x r, rig = ⟨method, .region r⟩ ∧ Value.lookup "radius" (paramsOf v) = some x ∧
      x.toReal = .ok r.radius := by
  unfold decodeModel at h
  obtain ⟨x, hx, h⟩ := bind_eq_ok.mp h
  obtain ⟨radius, hradius, h⟩ := bind_eq_ok.mp h
  obtain ⟨_, -, h⟩ := bind_eq_ok.mp h
  obtain ⟨grad, -, h⟩ := bind_eq_ok.mp h
  obtain ⟨_, -, h⟩ := bind_eq_ok.mp h
  obtain ⟨hessian, -, h⟩ := bind_eq_ok.mp h
  cases h
  exact ⟨x, _, rfl, key_eq_ok.mp hx, hradius⟩

/-- The component of a method was read of its document. -/
theorem decodeComposed_eq_ok {read : Document → Except (Fault Float) (Rig Float V M)}
    {make : Arguments V M → Except (Fault Float) (Rig Float V M)} {component : String}
    {names : List String} {params : List (String × Document)}
    (h : decodeComposed read make component names params = .ok rig) :
    ∃ c part args, Value.lookup component params = some c ∧ read c = .ok part ∧
      make ((component, .component part) :: args) = .ok rig := by
  unfold decodeComposed at h
  obtain ⟨c, hc, h⟩ := bind_eq_ok.mp h
  obtain ⟨part, hpart, h⟩ := bind_eq_ok.mp h
  obtain ⟨args, -, h⟩ := bind_eq_ok.mp h
  exact ⟨c, part, args, key_eq_ok.mp hc, hpart, h⟩

theorem reads_of_decodeRig (h : decodeRig codec v = .ok rig) : Reads codec v rig := by
  -- by induction on the depth of the document: a component's document is less deep
  induction hdepth : v.depth using Nat.strong_induction_on generalizing v rig with
  | _ depth ih =>
    rw [decodeRig_eq] at h
    obtain ⟨_, -, h⟩ := bind_eq_ok.mp h
    have hread {name : String} {c : Document} {part : Rig Float V M}
        (hc : Value.lookup name (paramsOf v) = some c) (hpart : decodeRig codec c = .ok part) :
        Reads codec c part :=
      ih c.depth (hdepth ▸ depth_lookup_paramsOf_lt hc) hpart rfl
    unfold decodeWith at h
    split at h
    · obtain ⟨x, r, rfl, hx, hr⟩ := decodeModel_eq_ok h
      exact .cauchy ‹_› hx hr
    · obtain ⟨x, r, rfl, hx, hr⟩ := decodeModel_eq_ok h
      exact .dogleg ‹_› hx hr
    · obtain ⟨c, sub, args, hc, hsub, h⟩ := decodeComposed_eq_ok h
      obtain ⟨s, hs, rfl⟩ := Construct.checked_trustRegion h
      exact .trustRegion ‹_› hc (hread hc hsub) hs
    · obtain ⟨c, line, args, hc, hline, h⟩ := decodeComposed_eq_ok h
      obtain ⟨s, hs, -, rfl⟩ := Construct.checked_newtonCG h
      exact .newtonCG ‹_› hc (hread hc hline) hs
    · obtain ⟨c, line, args, hc, hline, h⟩ := decodeComposed_eq_ok h
      obtain ⟨tol, htol, rfl⟩ := Construct.checked_steepestDescent h
      exact .steepestDescent ‹_› hc (hread hc hline) htol
    · obtain ⟨b, rfl, hb⟩ := Construct.checked_backtracking h
      exact .backtracking ‹_› hb
    · obtain ⟨w, rfl, hw⟩ := Construct.checked_wolfe h
      exact .wolfe ‹_› hw
    · cases h
    · cases h

/-- Every constant of what is read passes the check of its constructor. -/
theorem Reads.checked (h : Reads codec v rig) : rig.method.Checked := by
  induction h with
  | cauchy | dogleg => trivial
  | backtracking _ hb => exact hb
  | wolfe _ hw => exact hw
  | steepestDescent _ _ _ htol ih => exact ⟨ih, htol⟩
  | newtonCG _ _ _ hs ih => exact ⟨ih, hs⟩
  | trustRegion _ _ _ hs ih => exact ⟨ih, hs⟩

/-! ### What is well formed -/

/-- A value is what a parameter of a kind should be: a component of one of its types, a radius that
is unset or positive and finite. -/
def ParameterKind.Fits : ParameterKind → Document → Prop
  | component types, x => ∃ type ∈ types, x.get "type" = .text type
  | radius, x => ∀ y, x.toReal = .ok y → y.isNaN = true ∨ (0.0 < y ∧ y.isFinite = true)
  | _, _ => True

/-- The parameters of a document are what they should be. -/
def ParametersFit (v : Document) : Prop :=
  ∀ type, v.get "type" = .text type → ∀ p ∈ parametersOf type, ∀ x,
    Value.lookup p.1 (paramsOf v) = some x → p.2.Fits x

/-- The parameters of a document and of those of its components are what they should be. -/
def Fitting (v : Document) : Prop := ∀ w, Within v w → ParametersFit w

theorem Reads.search_iff (h : Reads codec v rig) :
    rig.method.isLineSearch = true ↔ ∃ type ∈ searchTypes, v.get "type" = .text type := by
  cases h with
  | cauchy htype | dogleg htype | backtracking htype | wolfe htype | steepestDescent htype
  | newtonCG htype | trustRegion htype =>
    rw [htype]
    simp [searchTypes, Method.isLineSearch]

theorem Reads.subproblem_iff (h : Reads codec v rig) :
    rig.method.isSubproblem = true ↔ ∃ type ∈ subproblemTypes, v.get "type" = .text type := by
  cases h with
  | cauchy htype | dogleg htype | backtracking htype | wolfe htype | steepestDescent htype
  | newtonCG htype | trustRegion htype =>
    rw [htype]
    simp [subproblemTypes, Method.isSubproblem]

theorem parametersFit_iff {type : String} (htype : v.get "type" = .text type) :
    ParametersFit v ↔ ∀ p ∈ parametersOf type, ∀ x,
      Value.lookup p.1 (paramsOf v) = some x → p.2.Fits x := by
  constructor
  · exact fun h => h type htype
  · intro h type' htype'
    cases htype.symm.trans htype'
    exact h

theorem fitting_leaf_iff {type : String} (htype : v.get "type" = .text type)
    (hleaf : ∀ p ∈ parametersOf type, ∀ types, p.2 ≠ .component types) :
    Fitting v ↔ ParametersFit v := by
  unfold Fitting
  simp only [within_leaf_iff htype hleaf, forall_eq]

/-- The document of a subproblem solver is fitting if its radius is. -/
theorem fitting_subproblem_iff {type : String} {x : Document} {r : Region Float V M}
    (htype : v.get "type" = .text type) (hsub : type ∈ subproblemTypes)
    (hradius : Value.lookup "radius" (paramsOf v) = some x) (hx : x.toReal = .ok r.radius) :
    Fitting v ↔ r.Fits := by
  have hparameters := parametersOf_subproblem hsub
  rw [fitting_leaf_iff htype (by simp [hparameters]), parametersFit_iff htype, hparameters]
  simp only [List.forall_mem_cons, hradius, Option.some_inj, forall_eq', ParameterKind.Fits, hx,
    Except.ok.injEq, implies_true, and_true, List.not_mem_nil, false_imp_iff]
  rfl

/-- The document of a line search has nothing to fit. -/
theorem fitting_search {type : String} (htype : v.get "type" = .text type)
    (hsearch : type ∈ searchTypes) : Fitting v := by
  have hparameters : ∀ p ∈ parametersOf type, p.2 = .compared ∨ p.2 = .count := by
    simp only [searchTypes, List.mem_cons, List.not_mem_nil, or_false] at hsearch
    rcases hsearch with rfl | rfl <;> simp [parametersOf]
  rw [fitting_leaf_iff htype, parametersFit_iff htype]
  · intro p hp x _
    rcases hparameters p hp with h | h <;> rw [h] <;> trivial
  · intro p hp types
    rcases hparameters p hp with h | h <;> simp [h]

/-- The document of a method with a component is fitting if that is of a type that is wanted and its
document is fitting. -/
theorem fitting_iff {type component : String} {types : List String}
    {rest : List (String × ParameterKind)} {c : Document} (htype : v.get "type" = .text type)
    (hparameters : parametersOf type = (component, .component types) :: rest)
    (hrest : ∀ p ∈ rest, p.2 = .compared ∨ p.2 = .measured ∨ p.2 = .kept)
    (hc : Value.lookup component (paramsOf v) = some c) :
    Fitting v ↔ (∃ type ∈ types, c.get "type" = .text type) ∧ Fitting c := by
  have honly : ∀ p ∈ rest, ∀ types, p.2 ≠ .component types := by
    intro p hp types
    rcases hrest p hp with h | h | h <;> simp [h]
  have hown : ParametersFit v ↔ ∃ type ∈ types, c.get "type" = .text type := by
    rw [parametersFit_iff htype, hparameters, List.forall_mem_cons]
    simp only [hc, Option.some_inj, forall_eq']
    refine and_iff_left fun p hp x _ => ?_
    rcases hrest p hp with h | h | h <;> rw [h] <;> trivial
  unfold Fitting
  simp only [within_iff htype hparameters honly, hc, Option.some_inj, exists_eq_left',
    forall_eq_or_imp, hown]

/-- A rig that was read is well formed exactly if its document is fitting. -/
theorem Reads.wellFormed_iff (h : Reads codec v rig) : rig.WellFormed ↔ Fitting v := by
  induction h with
  | cauchy htype hradius hx =>
    rw [fitting_subproblem_iff htype (by decide) hradius hx]
    exact ⟨fun h => h.radii, fun h => ⟨trivial, trivial, h⟩⟩
  | dogleg htype hradius hx =>
    rw [fitting_subproblem_iff htype (by decide) hradius hx]
    exact ⟨fun h => h.radii, fun h => ⟨trivial, trivial, h⟩⟩
  | backtracking htype hb =>
    -- nothing of a line search is a radius
    exact iff_of_true ⟨hb, trivial, trivial⟩ (fitting_search htype (by decide))
  | wolfe htype hw => exact iff_of_true ⟨hw, trivial, trivial⟩ (fitting_search htype (by decide))
  | steepestDescent htype hc hline htol ih =>
    rw [fitting_iff htype rfl (by simp) hc, ← hline.search_iff, ← ih]
    exact ⟨fun h => ⟨h.placed.1, h.checked.1, h.placed.2, h.radii⟩,
      fun h => ⟨⟨h.2.checked, htol⟩, ⟨h.1, h.2.placed⟩, h.2.radii⟩⟩
  | newtonCG htype hc hline hs ih =>
    rw [fitting_iff htype rfl (by simp) hc, ← hline.search_iff, ← ih]
    exact ⟨fun h => ⟨h.placed.1, h.checked.1, h.placed.2, h.radii⟩,
      fun h => ⟨⟨h.2.checked, hs⟩, ⟨h.1, h.2.placed⟩, h.2.radii⟩⟩
  | trustRegion htype hc hsub hs ih =>
    rw [fitting_iff htype rfl (by simp) hc, ← hsub.subproblem_iff, ← ih]
    exact ⟨fun h => ⟨h.placed.1, h.checked.1, h.placed.2, h.radii⟩,
      fun h => ⟨⟨h.2.checked, hs⟩, ⟨h.1, h.2.placed⟩, h.2.radii⟩⟩

/-! ### The outcome -/

/-- The kinds of the faults that flaws lead to. -/
def flawKinds : List String := ["KeyError", "TypeError", "OverflowError", "RuntimeError"]

theorem ArrayFlaw.kind_mem {fields : List (String × Document)} {fault : String}
    (h : ArrayFlaw fields fault) : fault ∈ flawKinds := by
  cases h with
  | data h | axes h =>
    rcases h with ⟨rfl, -⟩ | ⟨rfl, -⟩ <;> decide
  | entry _ h =>
    rcases h with ⟨rfl, -⟩ | ⟨rfl, -⟩ <;> decide
  | lacking _ hfault =>
    rw [hfault]
    decide
  | element _ h | axis _ h | shape h =>
    rw [h.1]
    decide

theorem ParameterKind.Mistaken.kind_mem {kind : ParameterKind} {x : Document} {fault : String}
    (h : kind.Mistaken x fault) : fault ∈ flawKinds := by
  cases kind with
  | component | kept => exact h.elim
  | compared | measured | radius | count =>
    rcases h with ⟨rfl, -⟩ | ⟨rfl, -⟩ <;> decide
  | array =>
    cases x with
    | null => exact h.elim
    | object fields => exact ArrayFlaw.kind_mem h
    | bool | int | real | text | list =>
      have hfault : fault = "TypeError" := h
      rw [hfault]
      decide

theorem Flawed.kind_mem {fault : String} (h : Flawed v fault) : fault ∈ flawKinds := by
  obtain ⟨w, -, hflaw⟩ := h
  cases hflaw with
  | lacking _ _ _ _ hfault | stray _ _ _ _ hfault =>
    rw [hfault]
    decide
  | mistaken _ _ _ h => exact h.kind_mem

/-- The outcome of reading a method of a document whose arrays name floating types.  What is read is
read of a document without flaws, every constant passes the check of its constructor, and the rig is
well formed exactly if the document is fitting.  What is refused is refused for a wrong value, or
for a flaw of the document or of that of a component. -/
theorem decodeRig_outcome (v : Document) (hname : ArraysNameFloating v) :
    (∀ rig, decodeRig ArrayCodec.stored v = .ok rig →
      rig.method.Checked ∧ (rig.WellFormed ↔ Fitting v) ∧ ∀ kind, ¬ Flawed v kind) ∧
    ∀ f, decodeRig ArrayCodec.stored v = .error f →
      f.kind = "ValueError" ∨ (f.kind ∈ flawKinds ∧ Flawed v f.kind) := by
  have hjudged := judged_decodeRig hname
  refine ⟨fun rig h => ?_, fun f hf => ?_⟩
  · have hreads := reads_of_decodeRig h
    exact ⟨hreads.checked, hreads.wellFormed_iff, hjudged.clean rig h⟩
  · exact (hjudged.blamed f hf).imp_right fun h => ⟨h.kind_mem, h⟩

theorem arraysNameFloating_of_model {params : List (String × Document)}
    (hgrad : ∀ fields, Value.lookup "grad" params ≠ some (.object fields))
    (hhessian : ∀ fields, Value.lookup "hessian" params ≠ some (.object fields)) :
    ArraysNameFloating (methodDocument "CauchyPoint" params) := by
  intro w hw type name htype hp fields hfields
  have hself : w = methodDocument "CauchyPoint" params :=
    (within_leaf_iff rfl (by simp [parametersOf])).mp hw
  subst hself
  cases htype
  simp only [parametersOf, List.mem_cons, Prod.mk.injEq, reduceCtorEq, and_false, and_true,
    false_or, List.not_mem_nil, or_false] at hp
  rcases hp with rfl | rfl
  · exact absurd hfields (hgrad fields)
  · exact absurd hfields (hhessian fields)

/-- The document of a Cauchy point that was given nothing but a radius. -/
def radiusOnly (radius : Document) : Document :=
  methodDocument "CauchyPoint" [("radius", radius), ("grad", .null), ("hessian", .null)]

/-- A document without parameters is refused for a key that is missing; with a negative radius, it
is read as a solver that is not well formed. -/
theorem decodeRig_outcome_cauchyPoint :
    decodeRig ArrayCodec.stored (methodDocument "CauchyPoint" []) = .error .missingKey ∧
      Flawed (methodDocument "CauchyPoint" []) "KeyError" ∧
      ∃ rig, decodeRig ArrayCodec.stored (radiusOnly (.real (-1.0))) = .ok rig ∧
        ¬ rig.WellFormed := by
  have hfault : decodeRig ArrayCodec.stored (methodDocument "CauchyPoint" []) =
      .error .missingKey := rfl
  have hread : decodeRig ArrayCodec.stored (radiusOnly (.real (-1.0))) =
      .ok ⟨.cauchy, .region { radius := -1.0 }⟩ := rfl
  have hempty : ArraysNameFloating (methodDocument "CauchyPoint" []) :=
    arraysNameFloating_of_model (fun _ h => by cases h) fun _ h => by cases h
  have hradius : ArraysNameFloating (radiusOnly (.real (-1.0))) :=
    arraysNameFloating_of_model (fun _ h => by cases h) fun _ h => by cases h
  refine ⟨hfault, ?_, _, hread, fun hwell => ?_⟩
  · rcases (decodeRig_outcome _ hempty).2 _ hfault with h | ⟨-, h⟩
    · exact absurd h (by decide)
    · exact h
  · -- a negative radius is read, and does not fit
    have houtcome := (decodeRig_outcome _ hradius).1 _ hread
    have hfits := houtcome.2.1.mp hwell _ (.self _) "CauchyPoint" rfl ("radius", .radius)
      List.mem_cons_self _ rfl (-1.0) rfl
    revert hfits
    decide +kernel

end Document

end Descent
