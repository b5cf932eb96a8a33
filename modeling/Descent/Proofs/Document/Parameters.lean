import Descent.Proofs.Document.Flaws

/-!
# Parameters of a method's document

`Document.parametersOf` lists the parameters of each type of method and what each is read as.  A
document is flawed if a parameter without a default is missing, something else is passed to a line
search, or a parameter has a value that it cannot have (`Document.Flaw`); a method's document is
`Document.Flawed` if it or that of a component is.

A method is read only of a document without flaws, and otherwise refused for a wrong value or for
one of its flaws (`Document.judged_decodeRig`).  Each constructor is judged by the flaws of what its
arguments were made of.
-/

namespace Descent

open Act

namespace Document

/-! ### Parameters -/

/-- What a parameter is read as. -/
inductive ParameterKind where
  /-- A component of one of some types. -/
  | component (types : List String)
  /-- A number that is compared with a range. -/
  | compared
  | measured
  | radius
  | count
  /-- A value that is kept as it is. -/
  | kept
  | array

/-- The types of line searches. -/
def searchTypes : List String := ["BacktrackingLineSearch", "WolfeLineSearch"]

/-- The types of subproblem solvers. -/
def subproblemTypes : List String := ["CauchyPoint", "Dogleg"]

/-- The parameters in the document of a type. -/
def parametersOf : String → List (String × ParameterKind)
  | "CauchyPoint" | "Dogleg" => [("radius", .radius), ("grad", .array), ("hessian", .array)]
  | "TrustRegion" =>
    [("subproblem", .component subproblemTypes), ("radius", .compared), ("max_radius", .compared),
      ("eta", .compared), ("grad_tol", .measured)]
  | "NewtonCG" =>
    [("line_search", .component searchTypes), ("tol_grad", .compared), ("tol_cost", .compared),
      ("cg_max_iter", .kept)]
  | "SteepestDescent" => [("line_search", .component searchTypes), ("tol_grad", .compared)]
  | "BacktrackingLineSearch" =>
    [("alpha0", .compared), ("rho", .compared), ("c", .compared), ("max_iter", .count)]
  | "WolfeLineSearch" =>
    [("alpha0", .compared), ("c1", .compared), ("c2", .compared), ("max_iter", .count)]
  | _ => []

/-- What is wrong with a value that is read as a parameter of a kind. -/
def ParameterKind.Mistaken : ParameterKind → Document → String → Prop
  | component _, _, _ | kept, _, _ => False
  | compared, x, fault => Unordered x fault ∨ TooLarge x fault
  | measured, x, fault | radius, x, fault => Unreadable x fault ∨ TooLarge x fault
  | count, x, fault => Unreadable x fault ∨ Endless x fault
  | array, .null, _ => False
  | array, .object fields, fault => ArrayFlaw fields fault
  | array, _, fault => fault = "TypeError"

/-- What can be wrong with the parameters of a document, its components apart, with the kind of the
fault. -/
inductive Flaw (v : Document) (fault : String) : Prop
  /-- A parameter without a default is missing. -/
  | lacking {type : String} {p : String × ParameterKind} (htype : v.get "type" = .text type)
      (hdefault : type ∉ searchTypes) (hp : p ∈ parametersOf type)
      (h : Value.lookup p.1 (paramsOf v) = none) (hfault : fault = "KeyError")
  /-- Something else is passed to a line search. -/
  | stray {type name : String} {x : Document} (htype : v.get "type" = .text type)
      (hsearch : type ∈ searchTypes) (hx : (name, x) ∈ paramsOf v)
      (h : ∀ kind, (name, kind) ∉ parametersOf type) (hfault : fault = "TypeError")
  /-- A parameter has a value that it cannot have. -/
  | mistaken {type : String} {p : String × ParameterKind} {x : Document}
      (htype : v.get "type" = .text type) (hp : p ∈ parametersOf type)
      (hx : Value.lookup p.1 (paramsOf v) = some x) (h : p.2.Mistaken x fault)

/-- The documents of the components of a method, and its own. -/
inductive Within : Document → Document → Prop
  | self (v : Document) : Within v v
  | component {v c w : Document} {type name : String} {types : List String}
      (htype : v.get "type" = .text type) (hp : (name, .component types) ∈ parametersOf type)
      (hc : Value.lookup name (paramsOf v) = some c) (h : Within c w) : Within v w

theorem within_iff {v w : Document} {type component : String} {types : List String}
    {rest : List (String × ParameterKind)} (htype : v.get "type" = .text type)
    (hparameters : parametersOf type = (component, .component types) :: rest)
    (honly : ∀ p ∈ rest, ∀ types, p.2 ≠ .component types) :
    Within v w ↔ w = v ∨ ∃ c, Value.lookup component (paramsOf v) = some c ∧ Within c w := by
  constructor
  · intro h
    cases h with
    | self => exact .inl rfl
    | component htype' hp hc hw =>
      cases htype.symm.trans htype'
      rw [hparameters] at hp
      rcases List.mem_cons.mp hp with hp | hp
      · cases hp
        exact .inr ⟨_, hc, hw⟩
      · exact absurd rfl (honly _ hp _)
  · rintro (rfl | ⟨c, hc, hw⟩)
    · exact .self w
    · exact .component htype (hparameters ▸ List.mem_cons_self) hc hw

theorem within_leaf_iff {v w : Document} {type : String} (htype : v.get "type" = .text type)
    (hleaf : ∀ p ∈ parametersOf type, ∀ types, p.2 ≠ .component types) : Within v w ↔ w = v := by
  constructor
  · intro h
    cases h with
    | self => rfl
    | component htype' hp =>
      cases htype.symm.trans htype'
      exact absurd rfl (hleaf _ hp _)
  · rintro rfl
    exact .self w

/-- Wherever an array names its type in a text, the type is a floating one of its backend. -/
def ArraysNameFloating (v : Document) : Prop :=
  ∀ w, Within v w → ∀ type name, w.get "type" = .text type → (name, .array) ∈ parametersOf type →
    ∀ fields, Value.lookup name (paramsOf w) = some (.object fields) → ArrayNamesFloating fields

/-! ### Parameters as arguments -/

variable {V M : Type} {v : Document} {type : String}

/-- The value of a parameter with a default. -/
def given (v : Document) (name : String) (d : Document) : Document :=
  (Value.lookup name (paramsOf v)).getD d

/-- A parameter of a type has a value that it cannot have. -/
def Mistakes (v : Document) (type fault : String) : Prop :=
  ∃ p ∈ parametersOf type, ∃ x, Value.lookup p.1 (paramsOf v) = some x ∧ p.2.Mistaken x fault

/-- A sound default is not to blame for a mistake. -/
theorem mistaken_given (kind : ParameterKind) {name : String} {d : Document} {fault : String}
    (hd : ¬ kind.Mistaken d fault) :
    (∃ x, Value.lookup name (paramsOf v) = some x ∧ kind.Mistaken x fault) ↔
      kind.Mistaken (given v name d) fault := by
  unfold given
  cases Value.lookup name (paramsOf v) with
  | none => simp [hd]
  | some x => simp

/-- A number is compared and converted unless there is something wrong with what is given. -/
theorem mistaken_compared (name : String) (y : Float) (fault : String) :
    (∃ x, Value.lookup name (paramsOf v) = some x ∧ ParameterKind.compared.Mistaken x fault) ↔
      Unordered (given v name (.real y)) fault ∨ TooLarge (given v name (.real y)) fault := by
  refine mistaken_given .compared (not_or_intro ?_ ?_)
  · exact (judged_toNumber (.real y)).clean (.real y) rfl fault
  · exact (judged_number_toReal (x := .real y) rfl).clean y rfl fault

theorem mistaken_measured (name : String) (y : Float) (fault : String) :
    (∃ x, Value.lookup name (paramsOf v) = some x ∧ ParameterKind.measured.Mistaken x fault) ↔
      Unreadable (given v name (.real y)) fault ∨ TooLarge (given v name (.real y)) fault :=
  mistaken_given .measured ((judged_toReal (.real y)).clean y rfl fault)

theorem mistaken_count (name : String) (n : Int) (fault : String) :
    (∃ x, Value.lookup name (paramsOf v) = some x ∧ ParameterKind.count.Mistaken x fault) ↔
      Unreadable (given v name (.int n)) fault ∨ Endless (given v name (.int n)) fault :=
  mistaken_given .count ((judged_toInt (.int n)).clean n rfl fault)

/-- Arguments that are the parameters of a document under these names. -/
def Passes (args : Arguments V M) (v : Document) (names : List String) : Prop :=
  ∀ name ∈ names, ∀ d, args.value name d = given v name d

theorem Passes.number {args : Arguments V M} {names : List String} (h : Passes args v names)
    {name : String} (hname : name ∈ names) (d : Float) :
    args.number name d = (given v name (.real d)).toNumber :=
  congrArg Value.toNumber (h name hname _)

/-- A check refuses a wrong value. -/
theorem raises_check (ok : Bool) (fault : Fault Float) (h : fault.kind = "ValueError") :
    Raises (·.kind = "ValueError") (Construct.check ok fault) := by
  unfold Construct.check
  split
  · exact .ok _
  · exact .error h

/-! ### Line searches -/

/-- The parameters of a line search as the arguments of its constructor. -/
def asArguments (params : List (String × Document)) : Arguments V M :=
  params.map fun f => (f.1, .value f.2)

theorem passes_asArguments (names : List String) :
    Passes (asArguments (paramsOf v) : Arguments V M) v names := by
  intro name _ d
  unfold asArguments Arguments.value given
  induction paramsOf v with
  | nil => rfl
  | cons f rest ih =>
    rw [List.map_cons, List.find?_cons, Value.lookup]
    by_cases h : f.1 == name
    · simp only [h]
      rfl
    · simp only [h]
      exact ih

theorem judged_only (params : List (String × Document)) (names : List String) :
    Judged (fun fault => fault = "TypeError" ∧ ∃ f ∈ params, f.1 ∉ names)
      ((asArguments params : Arguments V M).only names) := by
  have honly : (asArguments params : Arguments V M).only names =
      if params.all fun f => names.contains f.1 then .ok () else .error .wrongType := by
    unfold asArguments Arguments.only
    rw [List.all_map]
    rfl
  rw [honly]
  split
  · rename_i h
    refine .of_ok fun fault ⟨_, f, hf, hname⟩ => hname ?_
    exact List.contains_iff_mem.mp (List.all_eq_true.mp h f hf)
  · rename_i h
    obtain ⟨f, hf, hname⟩ := List.all_eq_false.mp (Bool.eq_false_iff.mpr h)
    exact .of_error (.inr ⟨rfl, f, hf, fun hmem => hname (List.contains_iff_mem.mpr hmem)⟩)

/-- The flaws of a line search are arguments by other names, and mistakes in its parameters. -/
theorem flaw_search_iff (htype : v.get "type" = .text type) (hsearch : type ∈ searchTypes)
    (fault : String) :
    Flaw v fault ↔
      (fault = "TypeError" ∧ ∃ f ∈ paramsOf v, f.1 ∉ (parametersOf type).map Prod.fst) ∨
        Mistakes v type fault := by
  constructor
  · intro h
    cases h with
    | lacking htype' hdefault =>
      -- a line search lacks nothing, as every argument has a default
      cases htype.symm.trans htype'
      exact absurd hsearch hdefault
    | @stray _ name x htype' _ hx h hfault =>
      cases htype.symm.trans htype'
      refine .inl ⟨hfault, (name, x), hx, fun hmem => ?_⟩
      obtain ⟨⟨_, kind⟩, hp, rfl⟩ := List.mem_map.mp hmem
      exact h kind hp
    | mistaken htype' hp hx h =>
      cases htype.symm.trans htype'
      exact .inr ⟨_, hp, _, hx, h⟩
  · rintro (⟨hfault, ⟨name, x⟩, hx, h⟩ | ⟨p, hp, x, hx, h⟩)
    · exact .stray htype hsearch hx (fun kind hp => h (List.mem_map.mpr ⟨_, hp, rfl⟩)) hfault
    · exact .mistaken htype hp hx h

/-- A backtracking search is made unless its document is flawed. -/
theorem judged_backtracking (htype : v.get "type" = .text "BacktrackingLineSearch") :
    Judged (Flaw v)
      (Construct.backtracking (asArguments (paramsOf v)) :
        Except (Fault Float) (Rig Float V M)) := by
  let names := ["alpha0", "rho", "c", "max_iter"]
  have hpasses : Passes (asArguments (paramsOf v) : Arguments V M) v names := passes_asArguments _
  unfold Construct.backtracking
  rw [hpasses.number (by decide), hpasses.number (by decide), hpasses.number (by decide),
    hpasses "max_iter" (by decide)]
  -- in the order of the constructor: each number, then its check, then the conversions
  have hparts := (judged_only (V := V) (M := M) (paramsOf v) names).bind
    fun _ _ => (judged_toNumber (given v "c" (.real Backtracking.default.c))).bind
    fun c hc => .after (raises_check (Construct.inUnit c) .sufficientDecreaseRange rfl)
    fun _ _ => (judged_toNumber (given v "rho" (.real Backtracking.default.rho))).bind
    fun rho hrho => .after (raises_check (Construct.inUnit rho) .shrinkRange rfl)
    fun _ _ => (judged_toNumber (given v "alpha0" (.real Backtracking.default.alpha0))).bind
    fun alpha0 halpha0 => .after (raises_check (!alpha0.le (.int 0)) .firstStepSign rfl)
    fun _ _ => (judged_number_toReal halpha0).bind
    fun y₁ _ => (judged_number_toReal hrho).bind
    fun y₂ _ => (judged_number_toReal hc).bind
    fun y₃ _ => (judged_toInt
      (given v "max_iter" (.int (Backtracking.default (R := Float)).maxIter))).map
    fun m => (⟨.backtracking ⟨y₁, y₂, y₃, m⟩, .plain⟩ : Rig Float V M)
  refine hparts.congr fun fault => ?_
  rw [flaw_search_iff htype (by decide)]
  simp only [names, Mistakes, parametersOf, List.exists_mem_cons_iff, List.not_mem_nil, false_and,
    exists_false, or_false, mistaken_compared "alpha0" Backtracking.default.alpha0,
    mistaken_compared "rho" Backtracking.default.rho, mistaken_compared "c" Backtracking.default.c,
    mistaken_count "max_iter" (Backtracking.default (R := Float)).maxIter, List.map_cons,
    List.map_nil]
  -- the flaws of the parts are those of the document, in another order
  grind only

/-- A strong Wolfe search is made unless its document is flawed. -/
theorem judged_wolfe (htype : v.get "type" = .text "WolfeLineSearch") :
    Judged (Flaw v)
      (Construct.wolfe (asArguments (paramsOf v)) : Except (Fault Float) (Rig Float V M)) := by
  let names := ["alpha0", "c1", "c2", "max_iter"]
  have hpasses : Passes (asArguments (paramsOf v) : Arguments V M) v names := passes_asArguments _
  unfold Construct.wolfe
  rw [hpasses.number (by decide), hpasses.number (by decide), hpasses.number (by decide),
    hpasses "max_iter" (by decide)]
  -- `c2` is compared with `c1`, so it is checked after both are numbers
  have hparts := (judged_only (V := V) (M := M) (paramsOf v) names).bind
    fun _ _ => (judged_toNumber (given v "c1" (.real Wolfe.default.c1))).bind
    fun c1 hc1 => .after (raises_check ((Number.int 0).lt c1) .wolfeOrder rfl)
    fun _ _ => (judged_toNumber (given v "c2" (.real Wolfe.default.c2))).bind
    fun c2 hc2 => .after (raises_check (c1.lt c2 && c2.lt (.int 1)) .wolfeOrder rfl)
    fun _ _ => (judged_toNumber (given v "alpha0" (.real Wolfe.default.alpha0))).bind
    fun alpha0 halpha0 => .after (raises_check (!alpha0.le (.int 0)) .firstStepSign rfl)
    fun _ _ => (judged_number_toReal halpha0).bind
    fun y₁ _ => (judged_number_toReal hc1).bind
    fun y₂ _ => (judged_number_toReal hc2).bind
    fun y₃ _ => (judged_toInt
      (given v "max_iter" (.int (Wolfe.default (R := Float)).maxIter))).map
    fun m => (⟨.wolfe ⟨y₁, y₂, y₃, m⟩, .plain⟩ : Rig Float V M)
  refine hparts.congr fun fault => ?_
  rw [flaw_search_iff htype (by decide)]
  simp only [names, Mistakes, parametersOf, List.exists_mem_cons_iff, List.not_mem_nil, false_and,
    exists_false, or_false, mistaken_compared "alpha0" Wolfe.default.alpha0,
    mistaken_compared "c1" Wolfe.default.c1, mistaken_compared "c2" Wolfe.default.c2,
    mistaken_count "max_iter" (Wolfe.default (R := Float)).maxIter, List.map_cons,
    List.map_nil]
  grind only

/-! ### Subproblem solvers -/

/-- What is done with a parameter has the flaws of its value, unless it is missing. -/
theorem judged_parameter {α : Type} (params : List (String × Document)) (name : String)
    {flaw : Document → String → Prop} {f : Document → Except (Fault Float) α}
    (hf : ∀ x, Value.lookup name params = some x → Judged (flaw x) (f x)) :
    Judged (fun fault => (fault = "KeyError" ∧ Value.lookup name params = none) ∨
      ∃ x, Value.lookup name params = some x ∧ flaw x fault) (key params name >>= f) := by
  refine (judged_key params name).bind fun x hx => (hf x (key_eq_ok.mp hx)).congr fun fault => ?_
  rw [key_eq_ok.mp hx]
  simp only [Option.some_inj, exists_eq_left']

theorem judged_decodeOption {x : Document}
    (hname : ∀ fields, x = .object fields → ArrayNamesFloating fields) :
    Judged (ParameterKind.array.Mistaken x)
      (ArrayCodec.decodeOption ArrayCodec.stored.decodeVector x) := by
  rw [decodeOption_stored]
  cases x with
  | null => exact .of_ok fun _ => id
  | object fields => exact (judged_decodeFields (hname fields rfl)).map some
  | bool | int | real | text | list => exact .of_error (.inr rfl)

/-- The flaws of a document without defaults are parameters that are missing, and mistakes. -/
theorem flaw_iff (htype : v.get "type" = .text type) (hdefault : type ∉ searchTypes)
    (fault : String) :
    Flaw v fault ↔
      (fault = "KeyError" ∧ ∃ p ∈ parametersOf type, Value.lookup p.1 (paramsOf v) = none) ∨
        Mistakes v type fault := by
  constructor
  · intro h
    cases h with
    | lacking htype' _ hp h hfault =>
      cases htype.symm.trans htype'
      exact .inl ⟨hfault, _, hp, h⟩
    | stray htype' hsearch =>
      -- all other types take the arguments they know and leave the rest
      cases htype.symm.trans htype'
      exact absurd hsearch hdefault
    | mistaken htype' hp hx h =>
      cases htype.symm.trans htype'
      exact .inr ⟨_, hp, _, hx, h⟩
  · rintro (⟨hfault, p, hp, h⟩ | ⟨p, hp, x, hx, h⟩)
    · exact .lacking htype hdefault hp h hfault
    · exact .mistaken htype hp hx h

theorem parametersOf_subproblem (hsub : type ∈ subproblemTypes) :
    parametersOf type = [("radius", .radius), ("grad", .array), ("hessian", .array)] := by
  simp only [subproblemTypes, List.mem_cons, List.not_mem_nil, or_false] at hsub
  rcases hsub with rfl | rfl <;> rfl

/-- A subproblem solver is read unless its document is flawed. -/
theorem judged_decodeModel (htype : v.get "type" = .text type) (hsub : type ∈ subproblemTypes)
    (hname : ∀ field ∈ ["grad", "hessian"], ∀ fields,
      Value.lookup field (paramsOf v) = some (.object fields) → ArrayNamesFloating fields)
    (method : Method Float StoredArray StoredArray) :
    Judged (Flaw v) (decodeModel ArrayCodec.stored method (paramsOf v)) := by
  have hparameters := parametersOf_subproblem hsub
  have hdefault : type ∉ searchTypes := by
    simp only [subproblemTypes, List.mem_cons, List.not_mem_nil, or_false] at hsub
    rcases hsub with rfl | rfl <;> decide
  have harray (field : String) (hfield : field ∈ ["grad", "hessian"]) :=
    judged_parameter (paramsOf v) field fun x hx =>
      judged_decodeOption fun fields h => hname field hfield fields (h ▸ hx)
  -- the radius, the gradient and the matrix are read one after another
  have hparts := (judged_parameter (paramsOf v) "radius" fun x _ => judged_toReal x).bind
    fun radius _ => (harray "grad" (by decide)).bind
    fun grad _ => (harray "hessian" (by decide)).map
    fun hessian => (⟨method, .region ⟨radius, grad, hessian⟩⟩ : Rig Float StoredArray StoredArray)
  simp only [bind_assoc] at hparts
  refine hparts.congr fun fault => ?_
  rw [flaw_iff htype hdefault]
  simp only [Mistakes, hparameters, List.exists_mem_cons_iff, List.not_mem_nil, false_and,
    exists_false, or_false]
  simp only [ParameterKind.Mistaken]
  grind only

/-! ### Methods with a component -/

theorem pass_eq (params : List (String × Document)) (names : List String) :
    (pass params names : Except (Fault Float) (Arguments V M)) =
      names.mapM fun name => key params name >>= fun x => .ok (name, .value x) := by
  induction names with
  | nil => rfl
  | cons name rest ih =>
    rw [pass, ih, List.mapM_cons, bind_assoc]
    rfl

theorem judged_pass (params : List (String × Document)) (names : List String) :
    Judged (fun fault => ∃ name ∈ names, fault = "KeyError" ∧ Value.lookup name params = none)
      (pass params names : Except (Fault Float) (Arguments V M)) := by
  rw [pass_eq]
  exact .mapM fun name _ => (judged_key params name).map _

theorem passes_pass {names : List String} {args : Arguments V M} (component : String)
    (part : Rig Float V M) (hargs : pass (paramsOf v) names = .ok args)
    (hcomponent : component ∉ names) :
    Passes ((component, .component part) :: args) v names := by
  intro name hname d
  -- the component stands before the arguments, under another name
  have hne : (component == name) = false := beq_false_of_ne fun h => hcomponent (h ▸ hname)
  unfold Arguments.value given
  rw [List.find?_cons]
  simp only [hne]
  rw [pass_eq] at hargs
  have hpair := mapM_eq_ok.mp hargs
  clear hargs hcomponent hne
  induction hpair with
  | nil => cases hname
  | @cons first arg names args hfirst _ ih =>
    obtain ⟨x, hx, hfirst⟩ := bind_eq_ok.mp hfirst
    cases hfirst
    rw [List.find?_cons]
    by_cases h : first = name
    · subst h
      simp only [beq_self_eq_true]
      rw [key_eq_ok.mp hx]
      rfl
    · simp only [beq_false_of_ne h]
      exact ih ((List.mem_cons.mp hname).resolve_left (Ne.symm h))

theorem only_pass {names : List String} {args : Arguments V M} (component : String)
    (part : Rig Float V M) (hargs : pass (paramsOf v) names = .ok args) :
    Arguments.only ((component, .component part) :: args) (component :: names) = .ok () := by
  rw [pass_eq] at hargs
  have hpair := mapM_eq_ok.mp hargs
  have hnames : ∀ a ∈ args, a.1 ∈ names := by
    clear hargs
    induction hpair with
    | nil => exact nofun
    | @cons first arg names args hfirst _ ih =>
      obtain ⟨x, -, hfirst⟩ := bind_eq_ok.mp hfirst
      cases hfirst
      exact List.forall_mem_cons.mpr
        ⟨List.mem_cons_self, fun a ha => List.mem_cons_of_mem _ (ih a ha)⟩
  refine if_pos (List.all_eq_true.mpr ?_)
  refine List.forall_mem_cons.mpr ⟨List.contains_iff_mem.mpr List.mem_cons_self, fun a ha => ?_⟩
  exact List.contains_iff_mem.mpr (List.mem_cons_of_mem _ (hnames a ha))

theorem judged_trustRegion {args : Arguments V M}
    (honly : args.only ["subproblem", "radius", "max_radius", "eta", "grad_tol"] = .ok ())
    (hpasses : Passes args v ["radius", "max_radius", "eta", "grad_tol"]) :
    Judged (Mistakes v "TrustRegion") (Construct.trustRegion args) := by
  unfold Construct.trustRegion
  rw [honly, hpasses.number (by decide), hpasses.number (by decide), hpasses.number (by decide),
    hpasses "grad_tol" (by decide)]
  -- the radius has to be finite, too, which is checked on the number it converts to
  have hparts := (judged_toNumber (given v "radius" (.real 1.0))).bind
    fun radius hradius => .after (raises_check ((Number.int 0).lt radius) .initialRadius rfl)
    fun _ _ => (judged_number_toReal hradius).bind
    fun initial _ => .after (raises_check initial.isFinite .initialRadius rfl)
    fun _ _ => (judged_toNumber (given v "max_radius" (.real 100.0))).bind
    fun maxRadius hmaxRadius => .after (raises_check (!maxRadius.lt radius) .radiusBound rfl)
    fun _ _ => (judged_toNumber (given v "eta" (.real 0.125))).bind
    fun eta heta => .after (raises_check ((Number.real 0.0).le eta && eta.lt (.real 0.25))
      .acceptanceRange rfl)
    fun _ _ => (judged_number_toReal hmaxRadius).bind
    fun maxRadius _ => (judged_number_toReal heta).bind
    fun eta _ => (judged_toReal (given v "grad_tol" (.real relativeTolerance))).map
    fun gradTol =>
      let sub := args.component "subproblem" ⟨.cauchy, .region Region.unset⟩
      (⟨.trustRegion sub.method ⟨initial, maxRadius, eta, gradTol⟩, .trust initial sub.memory⟩ :
        Rig Float V M)
  refine hparts.congr fun fault => ?_
  simp only [Mistakes, parametersOf, List.exists_mem_cons_iff, List.not_mem_nil, false_and,
    exists_false, or_false, mistaken_compared "radius" 1.0, mistaken_compared "max_radius" 100.0,
    mistaken_compared "eta" 0.125, mistaken_measured "grad_tol" relativeTolerance]
  simp only [ParameterKind.Mistaken, and_false, exists_false, false_or]
  grind only

theorem judged_newtonCG {args : Arguments V M}
    (honly : args.only ["line_search", "tol_grad", "tol_cost", "cg_max_iter"] = .ok ())
    (hpasses : Passes args v ["tol_grad", "tol_cost", "cg_max_iter"]) :
    Judged (Mistakes v "NewtonCG") (Construct.newtonCG args) := by
  unfold Construct.newtonCG
  rw [honly, hpasses.number (by decide), hpasses.number (by decide)]
  -- both tolerances are checked before either is converted
  have hparts := (judged_toNumber (given v "tol_grad" (.real relativeTolerance))).bind
    fun tolGrad htolGrad =>
      .after (raises_check (!Construct.isNegative tolGrad) .tolerancesSign rfl)
    fun _ _ => (judged_toNumber (given v "tol_cost" (.real NewtonCG.defaultTolCost))).bind
    fun tolCost htolCost =>
      .after (raises_check (!Construct.isNegative tolCost) .tolerancesSign rfl)
    fun _ _ => (judged_number_toReal htolGrad).bind
    fun tolGrad _ => (judged_number_toReal htolCost).map
    fun tolCost =>
      let line := args.component "line_search" ⟨.wolfe Wolfe.default, .plain⟩
      (⟨.newtonCG line.method ⟨tolGrad, tolCost, args.limit "cg_max_iter"⟩, .around line.memory⟩ :
        Rig Float V M)
  refine hparts.congr fun fault => ?_
  simp only [Mistakes, parametersOf, List.exists_mem_cons_iff, List.not_mem_nil, false_and,
    exists_false, or_false, mistaken_compared "tol_grad" relativeTolerance,
    mistaken_compared "tol_cost" NewtonCG.defaultTolCost]
  simp only [ParameterKind.Mistaken, and_false, exists_false, false_or, or_false]
  grind only

theorem judged_steepestDescent {args : Arguments V M}
    (honly : args.only ["line_search", "tol_grad"] = .ok ())
    (hpasses : Passes args v ["tol_grad"]) :
    Judged (Mistakes v "SteepestDescent") (Construct.steepestDescent args) := by
  unfold Construct.steepestDescent
  rw [honly, hpasses.number (by decide)]
  have hparts := (judged_toNumber (given v "tol_grad" (.real relativeTolerance))).bind
    fun tol htol => .after (raises_check (!Construct.isNegative tol) .gradientToleranceSign rfl)
    fun _ _ => (judged_number_toReal htol).map
    fun tol =>
      let line := args.component "line_search" ⟨.backtracking Backtracking.default, .plain⟩
      (⟨.steepestDescent line.method tol, .around line.memory⟩ : Rig Float V M)
  refine hparts.congr fun fault => ?_
  simp only [Mistakes, parametersOf, List.exists_mem_cons_iff, List.not_mem_nil, false_and,
    exists_false, or_false, mistaken_compared "tol_grad" relativeTolerance]
  simp only [ParameterKind.Mistaken, and_false, exists_false, false_or]

/-- A flaw of a document or of the document of a component. -/
def Flawed (v : Document) (fault : String) : Prop := ∃ w, Within v w ∧ Flaw w fault

theorem flawed_iff {component : String} {types : List String} {rest : List (String × ParameterKind)}
    (htype : v.get "type" = .text type)
    (hparameters : parametersOf type = (component, .component types) :: rest)
    (honly : ∀ p ∈ rest, ∀ types, p.2 ≠ .component types) (fault : String) :
    Flawed v fault ↔ Flaw v fault ∨
      ∃ c, Value.lookup component (paramsOf v) = some c ∧ Flawed c fault := by
  unfold Flawed
  simp only [within_iff htype hparameters honly, or_and_right, exists_or, exists_eq_left]
  refine or_congr_right ⟨?_, ?_⟩
  · rintro ⟨w, ⟨c, hc, hw⟩, h⟩
    exact ⟨c, hc, w, hw, h⟩
  · rintro ⟨c, hc, w, hw, h⟩
    exact ⟨w, ⟨c, hc, hw⟩, h⟩

theorem flawed_leaf_iff (htype : v.get "type" = .text type)
    (hleaf : ∀ p ∈ parametersOf type, ∀ types, p.2 ≠ .component types) (fault : String) :
    Flawed v fault ↔ Flaw v fault := by
  unfold Flawed
  simp only [within_leaf_iff htype hleaf, exists_eq_left]

/-- A method with a component is read unless its document or that of the component is flawed. -/
theorem judged_decodeComposed {read : Document → Except (Fault Float) (Rig Float V M)}
    {make : Arguments V M → Except (Fault Float) (Rig Float V M)} {component : String}
    {types names : List String} {rest : List (String × ParameterKind)}
    (htype : v.get "type" = .text type) (hdefault : type ∉ searchTypes)
    (hparameters : parametersOf type = (component, .component types) :: rest)
    (honly : ∀ p ∈ rest, ∀ types, p.2 ≠ .component types) (hnames : rest.map Prod.fst = names)
    (hcomponent : component ∉ names)
    (hread : ∀ c, Value.lookup component (paramsOf v) = some c → Judged (Flawed c) (read c))
    (hmake : ∀ args : Arguments V M, args.only (component :: names) = .ok () →
      Passes args v names → Judged (Mistakes v type) (make args)) :
    Judged (Flawed v) (decodeComposed read make component names (paramsOf v)) := by
  -- the component is read first, then the names are looked up, then the solver is made
  have hparts := (judged_parameter (paramsOf v) component hread).bind
    fun part _ => (judged_pass (V := V) (M := M) (paramsOf v) names).bind
    fun args hargs => hmake ((component, .component part) :: args) (only_pass component part hargs)
      (passes_pass component part hargs hcomponent)
  simp only [bind_assoc] at hparts
  refine hparts.congr fun fault => ?_
  rw [flawed_iff htype hparameters honly, flaw_iff htype hdefault, hparameters,
    List.exists_mem_cons_iff, ← hnames]
  simp only [List.mem_map, ↓existsAndEq, and_true]
  grind only

/-- A method is read unless its document, or that of a component, is flawed. -/
theorem judged_decodeRig (hname : ArraysNameFloating v) :
    Judged (Flawed v) (decodeRig ArrayCodec.stored v) := by
  -- by induction on the depth of the document: a component's document is less deep
  induction hdepth : v.depth using Nat.strong_induction_on generalizing v with
  | _ depth ih =>
    rw [decodeRig_eq]
    refine .after (Schema.raises_validateMethod v) fun _ _ => ?_
    have hread {type component : String} {types : List String} (htype : v.get "type" = .text type)
        (hp : (component, .component types) ∈ parametersOf type) (c : Document)
        (hc : Value.lookup component (paramsOf v) = some c) :
        Judged (Flawed c) (decodeRig ArrayCodec.stored c) :=
      ih c.depth (hdepth ▸ depth_lookup_paramsOf_lt hc)
        (fun w hw => hname w (.component htype hp hc hw)) rfl
    have hmodel {type : String} (htype : v.get "type" = .text type) (hsub : type ∈ subproblemTypes)
        (method : Method Float StoredArray StoredArray) :
        Judged (Flawed v) (decodeModel ArrayCodec.stored method (paramsOf v)) := by
      have hparameters := parametersOf_subproblem hsub
      have harrays : ∀ field ∈ ["grad", "hessian"], (field, .array) ∈ parametersOf type := by
        rw [hparameters]
        simp
      refine (judged_decodeModel htype hsub (fun field hfield => ?_) method).congr fun fault => ?_
      · exact hname v (.self v) type field htype (harrays field hfield)
      · exact (flawed_leaf_iff htype (by simp [hparameters]) fault).symm
    unfold decodeWith
    split
    · exact hmodel ‹_› (by decide) .cauchy
    · exact hmodel ‹_› (by decide) .dogleg
    · exact judged_decodeComposed ‹_› (by decide) rfl (by simp) rfl (by decide)
        (hread ‹_› List.mem_cons_self) fun args => judged_trustRegion
    · exact judged_decodeComposed ‹_› (by decide) rfl (by simp) rfl (by decide)
        (hread ‹_› List.mem_cons_self) fun args => judged_newtonCG
    · exact judged_decodeComposed ‹_› (by decide) rfl (by simp) rfl (by decide)
        (hread ‹_› List.mem_cons_self) fun args => judged_steepestDescent
    · refine (judged_backtracking ‹_›).congr fun fault => ?_
      exact (flawed_leaf_iff ‹_› (by simp [parametersOf]) fault).symm
    · refine (judged_wolfe ‹_›).congr fun fault => ?_
      exact (flawed_leaf_iff ‹_› (by simp [parametersOf]) fault).symm
    · exact .of_error (.inl rfl)
    · exact .of_error (.inl rfl)

end Document

end Descent
