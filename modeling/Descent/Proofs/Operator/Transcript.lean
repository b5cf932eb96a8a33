import Descent.Proofs.Act.Course
import Descent.Run.Session

/-!
# Transcripts of an operator

An `Evaluation` is a call of an operator: what it was asked for, the point and its answer.
`Operator.recorded` notes its calls, and `Operator.Answers` says that an operator would answer calls
as they were answered before.

Two runs that are served by such operators go side by side for as long as the first one makes the
calls that the second operator answers alike: along `Transcript.course`, which breaks off at one
more call, that fails.  A run goes beside its own recording without an end (`Transcript.recording`).
-/

namespace Descent

open Act

variable {R V M σ υ α : Type}

/-! ### Calls -/

/-- A call of an operator: what it was asked for, the point and its answer. -/
inductive Evaluation (R V M : Type) where
  | cost (point : V) (answer : Except (Fault R) (Value R))
  | gradient (point : V) (answer : Except (Fault R) (Option V))
  | hessian (point : V) (answer : Except (Fault R) (Option M))

/-- The fault of a result, if it is one. -/
def faultOf : Except (Fault R) α → Option (Fault R)
  | .ok _ => none
  | .error f => some f

/-- The fault of a call, if it failed. -/
def Evaluation.fault? : Evaluation R V M → Option (Fault R)
  | cost _ answer => faultOf answer
  | gradient _ answer => faultOf answer
  | hessian _ answer => faultOf answer

/-- The number of evaluations of any kind. -/
def Counts.total (c : Counts) : Nat := c.cost + c.gradient + c.hessian

theorem Counts.total_charge (c : Counts) (cap : Capability) :
    (c.charge cap).total = c.total + 1 := by
  cases cap <;> simp only [charge, total] <;> omega

namespace Operator

/-- A call that is made and then noted. -/
def noting (note : V → Except (Fault R) α → Evaluation R V M) (f : V → Act R σ α) (x : V) :
    Act R (σ × List (Evaluation R V M)) α :=
  Act.of fun w =>
    let (r, v) := (f x).run w.1
    (r, (v, w.2 ++ [note x r]))

/-- The operator, noting its calls.  It offers every evaluation, so that one which the operator does
not offer is noted as refused. -/
def recorded (op : Operator R V M σ) : Operator R V M (σ × List (Evaluation R V M)) where
  label := op.label
  cost := some (noting .cost (op.evaluate .cost op.cost))
  gradient := some (noting .gradient (op.evaluate .gradient op.gradient))
  hessian := some (noting .hessian (op.evaluate .hessian op.hessian))
  declared := some op.capabilities

theorem run_noting (note : V → Except (Fault R) α → Evaluation R V M) (f : V → Act R σ α) (x : V)
    (w : σ × List (Evaluation R V M)) :
    (noting note f x).run w =
      (((f x).run w.1).1, (((f x).run w.1).2, w.2 ++ [note x ((f x).run w.1).1])) := rfl

theorem provides_recorded (op : Operator R V M σ) (cap : Capability) :
    op.recorded.provides cap = op.provides cap := by
  show op.capabilities.contains cap = op.provides cap
  unfold capabilities
  cases hcap : op.provides cap with
  | true =>
    rw [List.contains_iff_mem, List.mem_filter]
    exact ⟨by cases cap <;> simp [Capability.all], hcap⟩
  | false =>
    rw [← Bool.not_eq_true, List.contains_iff_mem, List.mem_filter, hcap]
    simp

/-- A call leads the operator from one of its states to another. -/
def Makes (op : Operator R V M σ) (w : σ) : Evaluation R V M → σ → Prop
  | .cost x r, w' => (op.evaluate .cost op.cost x).run w = (r, w')
  | .gradient x r, w' => (op.evaluate .gradient op.gradient x).run w = (r, w')
  | .hessian x r, w' => (op.evaluate .hessian op.hessian x).run w = (r, w')

/-- The operator, from one of its states on, answers calls as they were answered. -/
def Answers (op : Operator R V M σ) : σ → List (Evaluation R V M) → Prop
  | _, [] => True
  | w, e :: es => ∃ w', op.Makes w e w' ∧ op.Answers w' es

end Operator

/-! ### Transcripts that part -/

section

variable {β : Type}

/-- The two lists are alike up to some place, and there they differ. -/
def Diverge (xs ys : List β) : Prop :=
  ∃ before x y, x ≠ y ∧ before ++ [x] <+: xs ∧ before ++ [y] <+: ys

theorem Diverge.append {xs ys : List β} (h : Diverge xs ys) (zs : List β) :
    Diverge xs (ys ++ zs) := by
  obtain ⟨before, x, y, hne, hx, hy⟩ := h
  exact ⟨before, x, y, hne, hx, hy.trans (List.prefix_append ys zs)⟩

/-- Lists that differ somewhere are not the beginnings of one list. -/
theorem not_diverge {xs ys zs : List β} (hx : xs <+: zs) (hy : ys <+: zs) : ¬ Diverge xs ys := by
  rintro ⟨before, x, y, hne, hx', hy'⟩
  have hsame : before ++ [x] <+: before ++ [y] :=
    List.prefix_of_prefix_length_le (hx'.trans hx) (hy'.trans hy) (by simp)
  have heq := hsame.eq_of_length (by simp)
  exact hne (List.singleton_inj.mp (List.append_cancel_left heq))

end

/-! ### Sessions that are served alike -/

variable {op : Operator R V M σ} {op' : Operator R V M υ} {cap : Capability}

/-- The sessions are served alike by two operators where a capability is called for: both have it
or lack it, and evaluations at a point go side by side. -/
structure Course.Serves (c : Course R (Session R σ) (Session R υ)) (op : Operator R V M σ)
    (op' : Operator R V M υ) (cap : Capability) : Prop where
  provides : op.provides cap = op'.provides cap
  evaluates :
    match cap with
    | .cost => ∀ x, c.Beside Eq (Session.cost op (some x)) (Session.cost op' (some x))
    | .gradient => ∀ x, c.Beside Eq (Session.gradient op (some x)) (Session.gradient op' (some x))
    | .hessian => ∀ x, c.Beside Eq (Session.hessian op (some x)) (Session.hessian op' (some x))

/-- The session after an evaluation that left the operator in a state. -/
def Session.charged (s : Session R σ) (cap : Capability) (w : σ) : Session R σ :=
  { s with counts := s.counts.charge cap, world := w }

/-- An evaluation that the operator has the capability for is charged, and its answer is the
operator's. -/
theorem Session.run_evaluate (hcap : op.provides cap = true) (method : Option (V → Act R σ α))
    (x : V) (s : Session R σ) :
    (Session.evaluate op cap method (some x)).run s =
      (((op.evaluate cap method x).run s.world).1,
        s.charged cap ((op.evaluate cap method x).run s.world).2) := by
  unfold Session.evaluate
  rw [hcap]
  cases method <;> rfl

/-- An evaluation that is answered was charged once. -/
theorem Session.counts_of_evaluate {method : Option (V → Act R σ α)} {x : Option V}
    {s s' : Session R σ} {answer : α} (h : (evaluate op cap method x).run s = (.ok answer, s')) :
    s'.counts = s.counts.charge cap := by
  cases hcap : op.provides cap with
  | false =>
    unfold evaluate at h
    rw [hcap] at h
    cases h
  | true =>
    cases x with
    | none =>
      unfold evaluate at h
      rw [hcap] at h
      cases method <;> cases h
    | some x =>
      rw [run_evaluate hcap] at h
      exact congrArg Session.counts (congrArg Prod.snd h).symm

theorem Session.counts_of_costValue [Scalar R] {x : Option V} {s s' : Session R σ} {answer : R}
    (h : (costValue op x).run s = (.ok answer, s')) : s'.counts = s.counts.charge .cost := by
  obtain ⟨c, u, hcost, hlift⟩ := run_bind_eq_ok.mp h
  obtain ⟨-, rfl⟩ := run_lift_eq.mp hlift
  exact counts_of_evaluate hcost

/-- The refusal of an evaluation that the operator does not have the capability for. -/
theorem Session.run_evaluate_refused (hcap : op.provides cap = false)
    (method : Option (V → Act R σ α)) (x : Option V) (s : Session R σ) :
    (Session.evaluate op cap method x).run s =
      (.error (.missingCapabilities (.text op.label) [cap.label]), s) := by
  unfold Session.evaluate
  rw [hcap]
  rfl

/-- Sessions that differ in nothing that an evaluation depends on are served alike by one
operator. -/
theorem Session.serves_self {ses : Course R (Session R σ) (Session R σ)}
    (hworld : ∀ {s u}, ses.together s u → s.world = u.world)
    (hcharged : ∀ {s u}, ses.together s u → ∀ cap w,
      ses.together (s.charged cap w) (u.charged cap w))
    (hastray : ∀ s, ¬ ses.astray s) (op : Operator R V M σ) (cap : Capability) :
    ses.Serves op op cap where
  provides := rfl
  evaluates := by
    have hevaluate : ∀ {α : Type} (cap : Capability) (method : Option (V → Act R σ α)) (x : V),
        ses.Beside Eq (Session.evaluate op cap method (some x))
          (Session.evaluate op cap method (some x)) := by
      intro α cap method x
      refine ⟨fun s u h => ?_, fun s h => absurd h (hastray s)⟩
      cases hcap : op.provides cap with
      | false =>
        rw [run_evaluate_refused hcap, run_evaluate_refused hcap]
        exact .together h (.error _)
      | true =>
        rw [run_evaluate hcap, run_evaluate hcap, ← hworld h]
        exact .together (hcharged h cap _) (.refl _)
    cases cap <;> exact fun x => hevaluate _ _ x

namespace Transcript

/-! ### Beside an operator that answers alike -/

/-- A recorded run goes beside one whose operator answers the calls `es` alike, for as long as it
makes those calls.  It breaks off in `call`, with the fault of that. -/
def course (op' : Operator R V M υ) (es : List (Evaluation R V M)) (call : Evaluation R V M) :
    Course R (Session R (σ × List (Evaluation R V M))) (Session R υ) where
  together s u := s.counts = u.counts ∧ s.debug = u.debug ∧
    s.counts.total = s.world.2.length ∧ ∃ rest, es = s.world.2 ++ rest ∧ op'.Answers u.world rest
  broken s f := s.counts.total = s.world.2.length ∧ s.world.2 = es ++ [call] ∧
    call.fault? = some f
  astray s := Diverge (es ++ [call]) s.world.2

variable {es : List (Evaluation R V M)} {call : Evaluation R V M}

/-- A call that is not the one that comes next leads astray. -/
theorem astray_of_ne {done rest : List (Evaluation R V M)} {next e : Evaluation R V M}
    (hes : es ++ [call] = done ++ next :: rest) (hne : e ≠ next) :
    Diverge (es ++ [call]) (done ++ [e]) := by
  refine ⟨done, next, e, hne.symm, ?_, List.prefix_refl _⟩
  rw [hes, List.append_cons done next rest]
  exact List.prefix_append _ _

/-- An evaluation goes along the course: the call is the next one of those that are answered alike,
or the one after them, or the run has gone astray. -/
theorem beside_evaluate {note : V → Except (Fault R) α → Evaluation R V M}
    {method : Option (V → Act R σ α)} {method' : Option (V → Act R υ α)} (x : V)
    (hcap : op.provides cap = true) (hcap' : op'.provides cap = true)
    (hmakes : ∀ w r w', op'.Makes w (note x r) w' → (op'.evaluate cap method' x).run w = (r, w'))
    (hfault : ∀ r : Except (Fault R) α, (note x r).fault? = faultOf r)
    (hcall : call.fault?.isSome) :
    (course (σ := σ) op' es call).Beside Eq
      (Session.evaluate op.recorded cap
        (some (Operator.noting note (op.evaluate cap method))) (some x))
      (Session.evaluate op' cap method' (some x)) where
  goes s u h := by
    obtain ⟨hcounts, hdebug, htotal, rest, hes, hanswers⟩ := h
    rw [Session.run_evaluate ((op.provides_recorded cap).trans hcap), Session.run_evaluate hcap']
    rcases hr : (op.evaluate cap method x).run s.world.1 with ⟨r, w⟩
    rcases hr' : (op'.evaluate cap method' x).run u.world with ⟨r', w'⟩
    -- the operator that notes its calls answers as it would and notes the answer
    have hnoted : (op.recorded.evaluate cap
        (some (Operator.noting note (op.evaluate cap method))) x).run s.world =
          (r, (w, s.world.2 ++ [note x r])) := by
      show (Operator.noting note (op.evaluate cap method) x).run s.world = _
      rw [Operator.run_noting, hr]
    have hcharged : (s.counts.charge cap).total = (s.world.2 ++ [note x r]).length := by
      rw [Counts.total_charge, htotal, List.length_append, List.length_singleton]
    rw [hnoted]
    cases rest with
    | cons next rest =>
      by_cases hnext : note x r = next
      · -- the call is answered alike
        subst hnext
        obtain ⟨v, hv, hrest⟩ := hanswers
        rw [hmakes _ _ _ hv, Prod.mk.injEq] at hr'
        obtain ⟨rfl, rfl⟩ := hr'
        refine .together ⟨congrArg (·.charge cap) hcounts, hdebug, hcharged, rest, ?_, hrest⟩
          (.refl _)
        rw [hes, List.append_cons]
        rfl
      · -- the call is answered in another way, and the two go separate ways from here
        have hnext' : es ++ [call] = s.world.2 ++ next :: (rest ++ [call]) := by
          rw [hes, List.append_assoc, List.cons_append]
        exact .astray (astray_of_ne hnext' hnext) fun y _ => ⟨y, rfl⟩
    | nil =>
      rw [List.append_nil] at hes
      by_cases hlast : note x r = call
      · -- the call is the one that fails
        cases r with
        | ok y =>
          rw [← hlast, hfault] at hcall
          cases hcall
        | error f =>
          refine .broken ⟨hcharged, ?_, ?_⟩
          · rw [hes, ← hlast]
            rfl
          · rw [← hlast, hfault]
            rfl
      · have hlast' : es ++ [call] = s.world.2 ++ [call] := by rw [hes]
        exact .astray (astray_of_ne hlast' hlast) fun y _ => ⟨y, rfl⟩
  stays s h := by
    rw [Session.run_evaluate ((op.provides_recorded cap).trans hcap)]
    exact ⟨h.append [_], fun y _ => ⟨y, rfl⟩⟩

/-- Where two operators have a capability the course is served by them. -/
theorem serves (hcap : op.provides cap = true) (hcap' : op'.provides cap = true)
    (hcall : call.fault?.isSome) :
    (course (σ := σ) op' es call).Serves op.recorded op' cap where
  provides := by rw [op.provides_recorded, hcap, hcap']
  evaluates := by
    cases cap <;>
      exact fun x => beside_evaluate x hcap hcap' (fun _ _ _ h => h) (fun _ => rfl) hcall

/-! ### A run beside its recording -/

/-- A recorded run goes beside the run itself, and never breaks off. -/
def recording (R σ : Type) (V M : Type) :
    Course R (Session R (σ × List (Evaluation R V M))) (Session R σ) where
  together s u := s.counts = u.counts ∧ s.world.1 = u.world ∧ s.journal = u.journal ∧
    s.debug = u.debug ∧ s.elapsed = u.elapsed
  broken _ _ := False
  astray _ := False

theorem beside_recording {note : V → Except (Fault R) α → Evaluation R V M}
    {method : Option (V → Act R σ α)} (x : V) :
    (recording R σ V M).Beside Eq
      (Session.evaluate op.recorded cap
        (some (Operator.noting note (op.evaluate cap method))) (some x))
      (Session.evaluate op cap method (some x)) where
  goes s u h := by
    cases hcap : op.provides cap with
    | true =>
      obtain ⟨hcounts, hworld, hrest⟩ := h
      rw [Session.run_evaluate ((op.provides_recorded cap).trans hcap), Session.run_evaluate hcap,
        ← hworld]
      exact .together ⟨congrArg (·.charge cap) hcounts, rfl, hrest⟩ (.refl _)
    | false =>
      rw [Session.run_evaluate_refused ((op.provides_recorded cap).trans hcap),
        Session.run_evaluate_refused hcap]
      exact .together h (.error _)
  stays _ h := h.elim

theorem serves_recording (op : Operator R V M σ) (cap : Capability) :
    (recording R σ V M).Serves op.recorded op cap where
  provides := op.provides_recorded cap
  evaluates := by
    cases cap <;> exact fun x => beside_recording x

end Transcript

end Descent
