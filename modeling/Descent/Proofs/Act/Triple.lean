import Descent.Proofs.Act.Keeps
import Descent.Proofs.Act.Result

/-!
# What a step needs, answers and fails with

`Triple I p a Q` says of the step `a` what holds where `I` holds of its subject: `Q` of its answer
and of what it leaves, if it succeeds, and otherwise its fault is in `p`.  Where nothing has to hold
before, and nothing is said of what is left, this is `FaultsIn`; where no fault is possible, it is
`Succeeds`.

A count is read off what a step acts on.  `Counted count k a Q` says that the step `a` always
succeeds, with an answer in `Q`, and that it raises the count by exactly `k`.  Counts of steps that
are made one after another add up.
-/

namespace Descent.Act

variable {R τ υ α β : Type}

/-- From a subject with `I` the step ends with an answer and a subject in `Q`, or with a fault in
`p`. -/
def Triple (I : τ → Prop) (p : Fault R → Prop) (a : Act R τ α) (Q : α → τ → Prop) : Prop :=
  ∀ t, I t → (∀ x t', a.run t = (.ok x, t') → Q x t') ∧ ∀ f t', a.run t = (.error f, t') → p f

/-- From a subject with `I` the step succeeds, with an answer and a subject in `Q`. -/
abbrev Succeeds (I : τ → Prop) (a : Act R τ α) (Q : α → τ → Prop) : Prop :=
  Triple I (fun _ => False) a Q

namespace Triple

variable {I J : τ → Prop} {p : Fault R → Prop} {a : Act R τ α} {Q S : α → τ → Prop}

theorem imp (h : Triple I p a Q) (hpre : ∀ t, J t → I t) (hpost : ∀ x t, Q x t → S x t) :
    Triple J p a S := by
  intro t ht
  obtain ⟨hanswer, hfault⟩ := h t (hpre t ht)
  exact ⟨fun x t' ha => hpost x t' (hanswer x t' ha), hfault⟩

theorem pre (h : Triple I p a Q) (hpre : ∀ t, J t → I t) : Triple J p a Q :=
  h.imp hpre fun _ _ hx => hx

theorem post (h : Triple I p a Q) (hpost : ∀ x t, Q x t → S x t) : Triple I p a S :=
  h.imp (fun _ ht => ht) hpost

theorem faultsIn (h : Triple (fun _ => True) p a Q) : FaultsIn p a :=
  fun t f t' ha => (h t trivial).2 f t' ha

protected theorem pure {x : α} (h : ∀ t, I t → Q x t) : Triple I p (pure x : Act R τ α) Q := by
  intro t ht
  refine ⟨fun y t' ha => ?_, nofun⟩
  cases ha
  exact h t ht

protected theorem throw {f : Fault R} (h : p f) : Triple I p (throw f : Act R τ α) Q := by
  intro t _
  refine ⟨nofun, fun f' t' ha => ?_⟩
  cases ha
  exact h

protected theorem get : Triple I p (get : Act R τ τ) fun x t => x = t ∧ I t := by
  intro t ht
  refine ⟨fun x t' ha => ?_, nofun⟩
  cases ha
  exact ⟨rfl, ht⟩

/-- What is known of a subject is known of what is read. -/
theorem get_bind {b : τ → Act R τ β} {S : β → τ → Prop} (h : ∀ t, I t → Triple I p (b t) S) :
    Triple I p (get >>= b) S :=
  fun t ht => h t ht t ht

protected theorem modify {g : τ → τ} (h : ∀ t, I t → J (g t)) :
    Triple I p (modify g : Act R τ PUnit) fun _ => J := by
  intro t ht
  refine ⟨fun x t' ha => ?_, nofun⟩
  cases ha
  exact h t ht

protected theorem lift {r : Except (Fault R) α} (h : Raises p r) :
    Triple I p (lift r : Act R τ α) fun x t => r = .ok x ∧ I t := by
  intro t ht
  refine ⟨fun x t' ha => ?_, fun f t' ha => h f (run_lift_eq.mp ha).1⟩
  obtain ⟨hr, rfl⟩ := run_lift_eq.mp ha
  exact ⟨hr, ht⟩

protected theorem bind {b : α → Act R τ β} {S : β → τ → Prop} (ha : Triple I p a Q)
    (hb : ∀ x, Triple (Q x) p (b x) S) : Triple I p (a >>= b) S := by
  intro t ht
  obtain ⟨hanswer, hfault⟩ := ha t ht
  refine ⟨fun y t' h => ?_, fun f t' h => ?_⟩
  · obtain ⟨x, u, hx, hy⟩ := run_bind_eq_ok.mp h
    exact (hb x u (hanswer x u hx)).1 y t' hy
  · rcases run_bind_eq_error.mp h with h | ⟨x, u, hx, h⟩
    · exact hfault f t' h
    · exact (hb x u (hanswer x u hx)).2 f t' h

/-- A condition that says nothing of the subject. -/
theorem assume {c : Prop} (h : c → Triple I p a Q) : Triple (fun t => c ∧ I t) p a Q :=
  fun t ⟨hc, ht⟩ => h hc t ht

/-- A condition with something of which no more is known. -/
theorem of_exists {ι : Type} {K : ι → τ → Prop} (h : ∀ i, Triple (K i) p a Q) :
    Triple (fun t => ∃ i, K i t) p a Q :=
  fun t ⟨i, ht⟩ => h i t ht

protected theorem ite {c : Prop} [Decidable c] {b : Act R τ α} (ha : c → Triple I p a Q)
    (hb : ¬ c → Triple I p b Q) : Triple I p (if c then a else b) Q := by
  by_cases hc : c
  · rw [if_pos hc]
    exact ha hc
  · rw [if_neg hc]
    exact hb hc

/-- A step on a part, whose subject and answer matter in the whole. -/
protected theorem zoom {part : υ → τ} {put : τ → υ → υ} {I' : υ → Prop} {Q' : α → υ → Prop}
    (h : Triple I p a Q) (hpart : ∀ u, I' u → I (part u))
    (hput : ∀ u x t, I' u → Q x t → Q' x (put t u)) : Triple I' p (zoom part put a) Q' := by
  intro u hu
  obtain ⟨hanswer, hfault⟩ := h (part u) (hpart u hu)
  refine ⟨fun x u' ha => ?_, fun f u' ha => ?_⟩
  · obtain ⟨t, ht, rfl⟩ := run_zoom_eq.mp ha
    exact hput u x t hu (hanswer x t ht)
  · obtain ⟨t, ht, -⟩ := run_zoom_eq.mp ha
    exact hfault f t ht

/-- What comes second is known to come after such an answer. -/
theorem bind_faultsIn {b : α → Act R τ β} {Q : α → Prop}
    (ha : Triple (fun _ => True) p a fun x _ => Q x) (hb : ∀ x, Q x → FaultsIn p (b x)) :
    FaultsIn p (a >>= b) := by
  intro t f t' h
  rcases run_bind_eq_error.mp h with h | ⟨x, u, hx, h⟩
  · exact (ha t trivial).2 f t' h
  · exact hb x ((ha t trivial).1 x u hx) u f t' h

end Triple

/-- A step that has no fault to end with ends with an answer. -/
theorem succeeds_iff {I : τ → Prop} {a : Act R τ α} {Q : α → τ → Prop} :
    Succeeds I a Q ↔ ∀ t, I t → ∃ x t', a.run t = (.ok x, t') ∧ Q x t' := by
  constructor
  · intro h t ht
    rcases hrun : a.run t with ⟨_ | x, t'⟩
    · exact ((h t ht).2 _ _ hrun).elim
    · exact ⟨x, t', rfl, (h t ht).1 x t' hrun⟩
  · intro h t ht
    obtain ⟨x, t', hrun, hx⟩ := h t ht
    rw [hrun]
    refine ⟨?_, nofun⟩
    rintro _ _ ⟨⟩
    exact hx

/-- The same after a result. -/
theorem FaultsIn.lift_bind {p : Fault R → Prop} {r : Except (Fault R) α} {b : α → Act R τ β}
    (hr : Raises p r) (hb : ∀ x, r = .ok x → FaultsIn p (b x)) : FaultsIn p (lift r >>= b) :=
  Triple.bind_faultsIn ((Triple.lift hr).post fun _ _ hx => hx.1) hb

/-- What a step answers and leaves as it was holds after it. -/
theorem Yields.triple {I : τ → Prop} {a : Act R τ α} {Q : α → Prop} (h : Yields I a Q) :
    Triple I (fun _ => True) a fun x t => Q x ∧ I t :=
  fun t ht => ⟨fun x t' ha => h t x t' ht ha, fun _ _ _ => trivial⟩

theorem Triple.yields {I : τ → Prop} {a : Act R τ α} {Q : α → Prop}
    (h : Triple I (fun _ => True) a fun x t => Q x ∧ I t) : Yields I a Q :=
  fun t x t' ht ha => (h t ht).1 x t' ha

theorem FaultsIn.triple_true {p : Fault R → Prop} {a : Act R τ α} (h : FaultsIn p a) :
    Triple (fun _ => True) p a fun _ _ => True :=
  fun t _ => ⟨fun _ _ _ => trivial, fun f t' ha => h t f t' ha⟩

end Descent.Act

/-! ### Steps that raise a count -/

namespace Descent.Act

variable {R τ α β : Type} {count : τ → ℕ}

/-- The step succeeds with an answer in `Q`, and raises the count by `k`. -/
def Counted (count : τ → ℕ) (k : ℕ) (a : Act R τ α) (Q : α → Prop) : Prop :=
  ∀ m, Succeeds (fun t => count t = m) a fun x t => Q x ∧ count t = m + k

namespace Counted

variable {k l : ℕ} {a : Act R τ α} {Q S : α → Prop}

theorem exists_run (h : Counted count k a Q) (t : τ) :
    ∃ x t', a.run t = (.ok x, t') ∧ Q x ∧ count t' = count t + k :=
  succeeds_iff.mp (h (count t)) t rfl

protected theorem pure {x : α} (h : Q x) : Counted count 0 (pure x : Act R τ α) Q :=
  fun _ => .pure fun _ ht => ⟨h, ht⟩

protected theorem lift {r : Except (Fault R) α} {x : α} (hr : r = .ok x) (h : Q x) :
    Counted count 0 (lift r : Act R τ α) Q := by
  rw [hr]
  exact Counted.pure h

protected theorem bind {b : α → Act R τ β} {S : β → Prop} (ha : Counted count k a Q)
    (hb : ∀ x, Q x → Counted count l (b x) S) : Counted count (k + l) (a >>= b) S := by
  intro m
  refine (ha m).bind fun x => Triple.assume fun hx => ?_
  exact (hb x hx (m + k)).post fun y t hy => ⟨hy.1, hy.2.trans (Nat.add_assoc m k l)⟩

/-- A result that is there costs nothing. -/
theorem lift_bind {r : Except (Fault R) α} {x : α} {b : α → Act R τ β} {S : β → Prop}
    (hr : r = .ok x) (hb : Counted count k (b x) S) : Counted count k (lift r >>= b) S := by
  rw [hr]
  exact hb

/-- Steps that are made for each item of a list, all of them counting alike. -/
protected theorem mapM {ι : Type} {f : ι → Act R τ α} {g : ι → α} {xs : List ι}
    (h : ∀ i ∈ xs, Counted count k (f i) (· = g i)) :
    Counted count (xs.length * k) (xs.mapM f) (· = xs.map g) := by
  induction xs with
  | nil =>
    rw [List.mapM_nil, List.length_nil, Nat.zero_mul]
    exact Counted.pure rfl
  | cons i xs ih =>
    obtain ⟨hi, hxs⟩ := List.forall_mem_cons.mp h
    rw [List.mapM_cons, List.length_cons, Nat.succ_mul, Nat.add_comm]
    refine hi.bind ?_
    rintro _ rfl
    refine (ih hxs).bind (l := 0) ?_
    rintro _ rfl
    exact Counted.pure rfl

end Counted

end Descent.Act
