import Descent.Document.Schema
import Descent.Method.Basic
import Descent.Method.Construct

/-!
# Methods as documents

`encodeMethod` writes a method with its constants and its components, `decodeTo` reads it back
through the same constructors that made it.  A subproblem solver is written with the model it was
last given, which is read back as it stands.
-/

namespace Descent.Document

variable {V M : Type}

/-- The document of a method, of a type and with parameters. -/
def methodDocument (type : String) (params : List (String × Document)) : Document :=
  .object [("version", .text documentVersion), ("kind", .text DocumentKind.solver.label),
    ("type", .text type), ("params", .object params)]

/-- The parameters of a subproblem solver: the model it was given. -/
def encodeModel (codec : ArrayCodec V M) (r : Region Float V M) :
    Except (Fault Float) (List (String × Document)) := do
  return [("radius", ofReal r.radius),
    ("grad", ← ArrayCodec.encodeOption codec.encodeVector r.grad),
    ("hessian", ← ArrayCodec.encodeOption codec.encodeMatrix r.hessian)]

/-- The limit on passes in a document. -/
def encodeLimit : NewtonCG.Limit Float → Except (Fault Float) Document
  | .value v => .ok v
  | .other typeName => .error (.notEncodable typeName)

/-- The document of a method with what it keeps. -/
def encodeMethod (codec : ArrayCodec V M) :
    Method Float V M → Memory Float V M → Except (Fault Float) Document
  | .backtracking b, _ =>
    return methodDocument "BacktrackingLineSearch" [
      ("alpha0", .real b.alpha0), ("rho", .real b.rho), ("c", .real b.c),
      ("max_iter", .int b.maxIter)]
  | .wolfe w, _ =>
    return methodDocument "WolfeLineSearch" [
      ("alpha0", .real w.alpha0), ("c1", .real w.c1), ("c2", .real w.c2),
      ("max_iter", .int w.maxIter)]
  | .cauchy, memory => return methodDocument "CauchyPoint" (← encodeModel codec memory.model)
  | .dogleg, memory => return methodDocument "Dogleg" (← encodeModel codec memory.model)
  | .steepestDescent line tol, memory =>
    return methodDocument "SteepestDescent" [
      ("line_search", ← encodeMethod codec line memory.inner), ("tol_grad", .real tol)]
  | .newtonCG line s, memory =>
    return methodDocument "NewtonCG" [
      ("line_search", ← encodeMethod codec line memory.inner), ("tol_grad", .real s.tolGrad),
      ("tol_cost", .real s.tolCost), ("cg_max_iter", ← encodeLimit s.cgMaxIter)]
  | .trustRegion sub s, memory =>
    return methodDocument "TrustRegion" [
      ("subproblem", ← encodeMethod codec sub memory.inner), ("radius", .real s.radius),
      ("max_radius", .real s.maxRadius), ("eta", .real s.eta), ("grad_tol", .real s.gradTol)]
  | m, _ => .error (.noCodec m.typeName)

/-- The document of a rig. -/
def encodeRig (codec : ArrayCodec V M) (rig : Rig Float V M) : Except (Fault Float) Document :=
  encodeMethod codec rig.method rig.memory

/-- A subproblem solver with the model of its parameters. -/
def decodeModel (codec : ArrayCodec V M) (method : Method Float V M)
    (params : List (String × Document)) : Except (Fault Float) (Rig Float V M) := do
  let radius ← (← key params "radius").toReal
  let grad ← ArrayCodec.decodeOption codec.decodeVector (← key params "grad")
  let hessian ← ArrayCodec.decodeOption codec.decodeMatrix (← key params "hessian")
  return ⟨method, .region ⟨radius, grad, hessian⟩⟩

/-- Parameters passed on as arguments, each of which must be there. -/
def pass (params : List (String × Document)) :
    List String → Except (Fault Float) (Arguments V M)
  | [] => .ok []
  | name :: rest => do
    let v ← key params name
    return (name, .value v) :: (← pass params rest)

/-- The rig of a document, to a depth of components. -/
def decodeTo (codec : ArrayCodec V M) : Nat → Document → Except (Fault Float) (Rig Float V M)
  | 0, _ => .error .exhausted
  | depth + 1, v => do
    Schema.validateMethod v
    let params := match v.get "params" with
      | .object fields => fields
      | _ => []
    let component (name : String) : Except (Fault Float) (String × Argument V M) := do
      return (name, .component (← decodeTo codec depth (← key params name)))
    match v.get "type" with
    | .text "CauchyPoint" => decodeModel codec .cauchy params
    | .text "Dogleg" => decodeModel codec .dogleg params
    | .text "TrustRegion" => do
      let sub ← component "subproblem"
      Construct.trustRegion (sub :: (← pass params ["radius", "max_radius", "eta", "grad_tol"]))
    | .text "NewtonCG" => do
      let line ← component "line_search"
      Construct.newtonCG (line :: (← pass params ["tol_grad", "tol_cost", "cg_max_iter"]))
    | .text "SteepestDescent" => do
      let line ← component "line_search"
      Construct.steepestDescent (line :: (← pass params ["tol_grad"]))
    | .text "BacktrackingLineSearch" =>
      Construct.backtracking (params.map fun f => (f.1, .value f.2))
    | .text "WolfeLineSearch" => Construct.wolfe (params.map fun f => (f.1, .value f.2))
    | .text name => .error (.solverTypeUnknown name)
    | _ => .error .solverTypeMissing

/-- The rig of a document. -/
def decodeRig (codec : ArrayCodec V M) (v : Document) : Except (Fault Float) (Rig Float V M) :=
  decodeTo codec (v.depth + 1) v

end Descent.Document
