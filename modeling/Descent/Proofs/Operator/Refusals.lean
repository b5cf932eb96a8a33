import Descent.Proofs.Act.Result
import Descent.Proofs.Act.Triple
import Descent.Proofs.Operator.Transcript
import Descent.Proofs.Space
import Descent.Run.Executor

/-!
# What an operator lacks and refuses

The capabilities that an operator lacks are those that are required and that it does not have, each
named once (`Operator.mem_missing`, `Operator.nodup_missing`).  So an operator is refused for what
it lacks exactly if it lacks something (`Executor.check_eq`).

`Raised` says of a fault that one of the functions that an operator is made of raises it.
`Operator.Refuses p op` says that the evaluations that an operator has the capability for fail with
faults in `p` only, and that the Hessians they answer with are refused their products with such
faults.  Then every evaluation that a session makes where the operator has the capability is refused
with faults in `p`: the session does not add a refusal of its own (`Session.triple_evaluate`).
-/

namespace Descent

open Act (Raises)

variable {R V M σ : Type} {op : Operator R V M σ} {name : String} {requires : List Capability}

/-! ### What is lacking -/

theorem Capability.mem_all (c : Capability) : c ∈ Capability.all := by
  cases c <;> decide

theorem Operator.mem_missing {c : Capability} :
    c ∈ op.missing requires ↔ c ∈ requires ∧ op.provides c = false := by
  simp [missing, Capability.mem_all]

theorem Operator.nodup_missing : (op.missing requires).Nodup :=
  List.Pairwise.filter _ (by decide)

namespace Executor

/-- What is asked of an operator is refused if it is nothing, and for what is lacking. -/
theorem check_eq :
    check op name requires =
      if requires = [] then .error (.nothingRequired name)
      else if op.missing requires = [] then .ok ()
      else .error
        (.missingCapabilities (.text name) ((op.missing requires).map Capability.label)) := by
  unfold check
  simp only [List.isEmpty_iff]
  split
  · rfl
  · split
    · next h => rw [if_pos h]
    · next h => rw [if_neg h]

/-- An operator that was accepted provides what the solver asks for. -/
theorem provides_of_check (h : check op name requires = .ok ()) :
    ∀ cap ∈ requires, op.provides cap = true := by
  intro cap hcap
  rw [check_eq] at h
  split at h
  · cases h
  · split at h
    · next hmissing =>
      by_contra hnot
      have hmem : cap ∈ op.missing requires :=
        Operator.mem_missing.mpr ⟨hcap, Bool.eq_false_iff.mpr hnot⟩
      rw [hmissing] at hmem
      cases hmem
    · cases h

/-- An operator that provides what is asked for is not refused for what it lacks. -/
theorem check_of_provides (h : ∀ cap ∈ requires, op.provides cap = true) :
    check op name requires =
      if requires = [] then .error (.nothingRequired name) else .ok () := by
  have hmissing : op.missing requires = [] := by
    rw [List.eq_nil_iff_forall_not_mem]
    intro cap hcap
    obtain ⟨hreq, hnot⟩ := Operator.mem_missing.mp hcap
    rw [h cap hreq] at hnot
    cases hnot
  rw [check_eq, if_pos hmissing]

end Executor

end Descent

namespace Descent

open Act (Raises FaultsIn Triple)

variable {R V M σ α : Type} [Scalar R] [LinearAction R V M] {p : Fault R → Prop}
  {op : Operator R V M σ}

/-! ### What is refused -/

/-- One of the functions raises the fault, or the product of a Hessian that one answered with. -/
inductive Raised (cost : Option (V → Act R σ (Value R)))
    (gradient : Option (V → Act R σ (Option V))) (hessian : Option (V → Act R σ (Option M)))
    (f : Fault R) : Prop
  | cost {function x w w'} (given : cost = some function)
    (raised : (function x).run w = (.error f, w'))
  | gradient {function x w w'} (given : gradient = some function)
    (raised : (function x).run w = (.error f, w'))
  | hessian {function x w w'} (given : hessian = some function)
    (raised : (function x).run w = (.error f, w'))
  | product {function x w w' h} {v : V} (given : hessian = some function)
    (answered : (function x).run w = (.ok (some h), w'))
    (raised : LinearAction.apply h v = .error f)

namespace Raised

variable {cost : Option (V → Act R σ (Value R))} {gradient : Option (V → Act R σ (Option V))}
  {hessian : Option (V → Act R σ (Option M))}
  (hraises : ∀ f, Raised cost gradient hessian f → p f)

include hraises

theorem faultsIn_cost {f : V → Act R σ (Value R)} (hf : cost = some f) (x : V) :
    FaultsIn p (f x) :=
  fun _ g _ h => hraises g (.cost hf h)

theorem faultsIn_gradient {f : V → Act R σ (Option V)} (hf : gradient = some f) (x : V) :
    FaultsIn p (f x) :=
  fun _ g _ h => hraises g (.gradient hf h)

end Raised

/-- The evaluations that the operator has the capability for, and the products of the Hessians that
it answers with, fail with faults in `p`. -/
structure Operator.Refuses (p : Fault R → Prop) (op : Operator R V M σ) : Prop where
  cost : op.provides .cost = true → ∀ f, op.cost = some f → ∀ x, FaultsIn p (f x)
  gradient : op.provides .gradient = true → ∀ f, op.gradient = some f → ∀ x, FaultsIn p (f x)
  hessian : op.provides .hessian = true → ∀ f, op.hessian = some f → ∀ x,
    Triple (fun _ => True) p (f x) fun o _ => ∀ h, o = some h → LinearAction.Refuses p V h

namespace Session

variable (hp : ∀ f : Fault R, f.Ordinary → p f)

include hp

omit [Scalar R] [LinearAction R V M] in
/-- An evaluation is refused for want of its capability, or fails as its method does. -/
theorem triple_evaluate {c : Capability}
    (hcap : op.provides c = false → p (.missingCapabilities (.text op.label) [c.label]))
    {method : Option (V → Act R σ α)} {Q : α → Prop}
    (h : op.provides c = true → ∀ f, method = some f → ∀ x,
      Triple (fun _ => True) p (f x) fun y _ => Q y)
    (x : Option V) :
    Triple (fun _ => True) p (evaluate op c method x) fun y _ => Q y := by
  unfold evaluate
  cases hprovides : op.provides c with
  | false =>
    exact Triple.bind (Q := fun _ _ => False) (.throw (hcap hprovides)) fun _ _ => False.elim
  | true =>
    refine Triple.bind (Q := fun _ _ => True) (.modify fun _ _ => trivial) fun _ => ?_
    cases method with
    | none => exact .throw (hp _ trivial)
    | some f =>
      cases x with
      | none => exact .throw (hp _ trivial)
      | some x => exact (h hprovides f rfl x).zoom (fun _ _ => trivial) fun _ _ _ _ hy => hy

omit [LinearAction R V M] in
theorem faultsIn_costValue
    (hcap : op.provides .cost = false → p (.missingCapabilities (.text op.label) ["cost"]))
    (h : op.provides .cost = true → ∀ f, op.cost = some f → ∀ x, FaultsIn p (f x))
    (x : Option V) : FaultsIn p (costValue op x) := by
  have hcost : FaultsIn p (cost op x) := Triple.faultsIn (Q := fun _ _ => True)
    (triple_evaluate hp hcap (fun hprovides f hf x => (h hprovides f hf x).triple_true) x)
  exact hcost.bind fun v => .lift_calm hp (Value.calm_toReal v)

omit [Scalar R] [LinearAction R V M] in
theorem faultsIn_gradient
    (hcap : op.provides .gradient = false →
      p (.missingCapabilities (.text op.label) ["gradient"]))
    (h : op.provides .gradient = true → ∀ f, op.gradient = some f → ∀ x, FaultsIn p (f x))
    (x : Option V) : FaultsIn p (gradient op x) :=
  Triple.faultsIn (Q := fun _ _ => True)
    (triple_evaluate hp hcap (fun hprovides f hf x => (h hprovides f hf x).triple_true) x)

theorem triple_hessian (hop : op.Refuses p) (hcap : op.provides .hessian = true) (x : Option V) :
    Triple (fun _ => True) p (hessian op x) fun o _ =>
      ∀ h, o = some h → LinearAction.Refuses p V h :=
  triple_evaluate hp (fun hnot => nomatch hcap.symm.trans hnot) hop.hessian x

end Session

end Descent
