import Descent.Proofs.Act.Run

/-!
# What a step leaves and what it answers

`Keeps f a` says that the step `a` leaves what `f` reads of its subject as it is, whether it
succeeds or fails; `FaultsIn p a` says that every fault of `a` is in `p`.  Both pass through binds
and loops, so for a program they follow from what holds of its parts.

`Yields I a Q` says that wherever `I` holds of its subject, the step `a` answers with something in
`Q` if it succeeds, and `I` holds again.  Nothing is said of a step that fails.  It passes through
binds, so what a program answers follows from what its parts answer.

`Leaves I a J` says that from a subject with `I` the step `a` leaves one with `J`, whether it
succeeds or fails.  Of a step that fails this says more than what it answers does: what was changed
before the fault stays changed.  It passes through binds if the step after holds `J` up, as the
first one may fail.
-/

namespace Descent.Act

variable {R τ υ κ α β : Type}

/-! ### Leaving something alone -/

/-- The step leaves what `f` reads as it is. -/
def Keeps (f : τ → κ) (a : Act R τ α) : Prop := ∀ t, f (a.run t).2 = f t

namespace Keeps

variable {f : τ → κ} {a : Act R τ α}

theorem run_eq (h : Keeps f a) {t t' : τ} {r : Except (Fault R) α} (ha : a.run t = (r, t')) :
    f t' = f t := by
  rw [← h t, ha]

/-- What is left alone is left alone by every function of it. -/
theorem comp {κ' : Type} (h : Keeps f a) (g : κ → κ') : Keeps (g ∘ f) a :=
  fun t => congrArg g (h t)

protected theorem pure (x : α) : Keeps f (pure x : Act R τ α) := fun _ => rfl

protected theorem throw (e : Fault R) : Keeps f (throw e : Act R τ α) := fun _ => rfl

protected theorem get : Keeps f (get : Act R τ τ) := fun _ => rfl

protected theorem lift (r : Except (Fault R) α) : Keeps f (lift r : Act R τ α) := fun _ => rfl

protected theorem modify {g : τ → τ} (h : ∀ t, f (g t) = f t) :
    Keeps f (modify g : Act R τ PUnit) := h

protected theorem bind {b : α → Act R τ β} (ha : Keeps f a) (hb : ∀ x, Keeps f (b x)) :
    Keeps f (a >>= b) := by
  intro t
  rw [run_bind]
  rcases h : a.run t with ⟨_ | x, u⟩
  · exact ha.run_eq h
  · exact (hb x u).trans (ha.run_eq h)

protected theorem ite {c : Prop} [Decidable c] {b : Act R τ α} (ha : Keeps f a)
    (hb : Keeps f b) : Keeps f (if c then a else b) := by
  split
  · exact ha
  · exact hb

protected theorem forIn (xs : List β) (b : β → α → Act R τ (ForInStep α))
    (h : ∀ x ∈ xs, ∀ y, Keeps f (b x y)) (y : α) : Keeps f (forIn xs y b) := by
  induction xs generalizing y with
  | nil => exact Keeps.pure y
  | cons x xs ih =>
    rw [List.forIn_cons]
    refine (h x (by simp) y).bind fun r => ?_
    cases r with
    | done z => exact Keeps.pure z
    | yield z => exact ih (fun x' hx' => h x' (by simp [hx'])) z

end Keeps

/-- The step leaves what `f` reads as it is whenever it fails. -/
def KeepsOnFault (f : τ → κ) (a : Act R τ α) : Prop :=
  ∀ t e t', a.run t = (.error e, t') → f t' = f t

theorem Keeps.onFault {f : τ → κ} {a : Act R τ α} (h : Keeps f a) : KeepsOnFault f a :=
  fun _ _ _ ha => h.run_eq ha

/-- A step that may change it only last, when nothing can fail any more, leaves it alone whenever
it fails. -/
protected theorem KeepsOnFault.bind {f : τ → κ} {a : Act R τ α} {b : α → Act R τ β}
    (ha : Keeps f a) (hb : ∀ x, KeepsOnFault f (b x)) : KeepsOnFault f (a >>= b) := by
  intro t e t' h
  rcases run_bind_eq_error.mp h with h | ⟨x, u, hx, h⟩
  · exact ha.run_eq h
  · exact (hb x u e t' h).trans (ha.run_eq hx)

/-! ### The faults of a step -/

/-- Every fault of the step is in `p`. -/
def FaultsIn (p : Fault R → Prop) (a : Act R τ α) : Prop :=
  ∀ t e t', a.run t = (.error e, t') → p e

namespace FaultsIn

variable {p : Fault R → Prop} {a : Act R τ α}

protected theorem pure (x : α) : FaultsIn p (pure x : Act R τ α) := by
  intro t e t' h
  cases h

protected theorem get : FaultsIn p (get : Act R τ τ) := by
  intro t e t' h
  cases h

protected theorem modify (g : τ → τ) : FaultsIn p (modify g : Act R τ PUnit) := by
  intro t e t' h
  cases h

protected theorem throw {e : Fault R} (h : p e) : FaultsIn p (throw e : Act R τ α) := by
  intro t e' t' he
  cases he
  exact h

protected theorem lift {r : Except (Fault R) α} (h : ∀ e, r = .error e → p e) :
    FaultsIn p (lift r : Act R τ α) := by
  intro t e t' he
  exact h e (congrArg Prod.fst he)

protected theorem zoom {part : υ → τ} {put : τ → υ → υ} (h : FaultsIn p a) :
    FaultsIn p (zoom part put a) := by
  intro u e u' he
  obtain ⟨t, ht, -⟩ := run_zoom_eq.mp he
  exact h _ e t ht

protected theorem bind {b : α → Act R τ β} (ha : FaultsIn p a) (hb : ∀ x, FaultsIn p (b x)) :
    FaultsIn p (a >>= b) := by
  intro t e t' h
  rcases run_bind_eq_error.mp h with h | ⟨x, u, -, h⟩
  · exact ha t e t' h
  · exact hb x u e t' h

protected theorem map {g : α → β} (ha : FaultsIn p a) : FaultsIn p (g <$> a) :=
  ha.bind fun _ => .pure _

protected theorem ite {c : Prop} [Decidable c] {b : Act R τ α} (ha : FaultsIn p a)
    (hb : FaultsIn p b) : FaultsIn p (if c then a else b) := by
  split
  · exact ha
  · exact hb

/-- What goes on unless it is refused. -/
theorem guard {c : Prop} [Decidable c] {e : Fault R} {b : PUnit → Act R τ α} (he : p e)
    (hb : FaultsIn p (b ⟨⟩)) :
    FaultsIn p (if c then (throw e : Act R τ PUnit) >>= b else b ⟨⟩) :=
  ((FaultsIn.throw he).bind fun _ => hb).ite hb

protected theorem mapM (xs : List β) {b : β → Act R τ α} (h : ∀ x ∈ xs, FaultsIn p (b x)) :
    FaultsIn p (xs.mapM b) := by
  induction xs with
  | nil => exact FaultsIn.pure []
  | cons x xs ih =>
    rw [List.mapM_cons]
    refine (h x (by simp)).bind fun y => ?_
    exact (ih fun x' hx' => h x' (by simp [hx'])).bind fun ys => .pure _

protected theorem forIn (xs : List β) (b : β → α → Act R τ (ForInStep α))
    (h : ∀ x ∈ xs, ∀ y, FaultsIn p (b x y)) (y : α) : FaultsIn p (forIn xs y b) := by
  induction xs generalizing y with
  | nil => exact FaultsIn.pure y
  | cons x xs ih =>
    rw [List.forIn_cons]
    refine (h x (by simp) y).bind fun r => ?_
    cases r with
    | done z => exact FaultsIn.pure z
    | yield z => exact ih (fun x' hx' => h x' (by simp [hx'])) z

end FaultsIn

/-! ### What a step answers -/

/-- From a subject with `I`, the step answers in `Q` and leaves `I`, if it succeeds. -/
def Yields (I : τ → Prop) (a : Act R τ α) (Q : α → Prop) : Prop :=
  ∀ t x t', I t → a.run t = (.ok x, t') → Q x ∧ I t'

namespace Yields

variable {I : τ → Prop} {a : Act R τ α} {P Q : α → Prop}

theorem imp (h : Yields I a P) (hPQ : ∀ x, P x → Q x) : Yields I a Q := by
  intro t x t' ht ha
  have := h t x t' ht ha
  exact ⟨hPQ x this.1, this.2⟩

/-- What holds of the answer in two respects holds in both. -/
protected theorem and (h : Yields I a P) (h' : Yields I a Q) :
    Yields I a (fun x => P x ∧ Q x) := by
  intro t x t' ht ha
  have hP := h t x t' ht ha
  exact ⟨⟨hP.1, (h' t x t' ht ha).1⟩, hP.2⟩

/-- Of every step at least this much is known: it succeeds or fails. -/
protected theorem trivial (a : Act R τ α) :
    Yields (fun _ => True) a (fun _ => True) :=
  fun _ _ _ _ _ => ⟨⟨⟩, ⟨⟩⟩

protected theorem pure {x : α} (h : Q x) : Yields I (pure x : Act R τ α) Q := by
  intro t y t' ht ha
  cases ha
  exact ⟨h, ht⟩

protected theorem throw (e : Fault R) : Yields I (throw e : Act R τ α) Q := by
  intro t x t' ht ha
  cases ha

protected theorem get : Yields I (get : Act R τ τ) I := by
  intro t x t' ht ha
  cases ha
  exact ⟨ht, ht⟩

protected theorem modify {g : τ → τ} (h : ∀ t, I t → I (g t)) :
    Yields I (modify g : Act R τ PUnit) (fun _ => True) := by
  intro t x t' ht ha
  cases ha
  exact ⟨⟨⟩, h t ht⟩

/-- The answer of a result is that result. -/
protected theorem lift (r : Except (Fault R) α) :
    Yields I (lift r : Act R τ α) (fun x => r = .ok x) := by
  intro t x t' ht ha
  obtain ⟨hr, rfl⟩ := run_lift_eq.mp ha
  exact ⟨hr, ht⟩

protected theorem bind {b : α → Act R τ β} {Q : β → Prop} (ha : Yields I a P)
    (hb : ∀ x, P x → Yields I (b x) Q) : Yields I (a >>= b) Q := by
  intro t y t' ht h
  obtain ⟨x, u, hx, hy⟩ := run_bind_eq_ok.mp h
  obtain ⟨hP, hu⟩ := ha t x u ht hx
  exact hb x hP u y t' hu hy

protected theorem map {g : α → β} {Q : β → Prop} (ha : Yields I a P) (hg : ∀ x, P x → Q (g x)) :
    Yields I (g <$> a) Q :=
  ha.bind fun x hx => Yields.pure (hg x hx)

protected theorem ite {c : Prop} [Decidable c] {b : Act R τ α} (ha : c → Yields I a Q)
    (hb : ¬ c → Yields I b Q) : Yields I (if c then a else b) Q := by
  by_cases hc : c
  · rw [if_pos hc]
    exact ha hc
  · rw [if_neg hc]
    exact hb hc

/-- A step on a part answers the same on the whole. -/
protected theorem zoom {J : υ → Prop} {part : υ → τ} {put : τ → υ → υ} (h : Yields I a Q)
    (hpart : ∀ u, J u → I (part u)) (hput : ∀ t u, J u → I t → J (put t u)) :
    Yields J (zoom part put a) Q := by
  intro u x u' hu ha
  obtain ⟨t, ht, rfl⟩ := run_zoom_eq.mp ha
  obtain ⟨hQ, hI⟩ := h (part u) x t (hpart u hu) ht
  exact ⟨hQ, hput t u hu hI⟩

end Yields

/-! ### What a step leaves behind -/

/-- From a subject with `I` the step leaves one with `J`, whatever the outcome. -/
def Leaves (I : τ → Prop) (a : Act R τ α) (J : τ → Prop) : Prop := ∀ t, I t → J (a.run t).2

/-- What a step leaves alone holds as it did. -/
theorem Keeps.leaves {f : τ → κ} {a : Act R τ α} (h : Keeps f a) (J : κ → Prop) :
    Leaves (fun t => J (f t)) a fun t => J (f t) := by
  intro t ht
  rw [h t]
  exact ht

namespace Leaves

variable {I J : τ → Prop} {a : Act R τ α}

protected theorem pure (x : α) : Leaves I (pure x : Act R τ α) I := fun _ ht => ht

protected theorem throw (f : Fault R) : Leaves I (throw f : Act R τ α) I := fun _ ht => ht

protected theorem lift (r : Except (Fault R) α) : Leaves I (lift r : Act R τ α) I := fun _ ht => ht

protected theorem modify {g : τ → τ} (h : ∀ t, I t → J (g t)) :
    Leaves I (modify g : Act R τ PUnit) J := h

protected theorem bind {b : α → Act R τ β} (ha : Leaves I a J) (hb : ∀ x, Leaves J (b x) J) :
    Leaves I (a >>= b) J := by
  intro t ht
  have hmid := ha t ht
  rw [run_bind]
  rcases hrun : a.run t with ⟨_ | x, u⟩ <;> rw [hrun] at hmid
  · exact hmid
  · exact hb x u hmid

/-- What is known of a subject is known of what is read. -/
theorem get_bind {b : τ → Act R τ β} (h : ∀ t, I t → Leaves I (b t) J) : Leaves I (get >>= b) J :=
  fun t ht => h t ht t ht

protected theorem map {g : α → β} (ha : Leaves I a J) : Leaves I (g <$> a) J :=
  ha.bind fun _ => .pure _

protected theorem ite {c : Prop} [Decidable c] {b : Act R τ α} (ha : Leaves I a J)
    (hb : Leaves I b J) : Leaves I (if c then a else b) J := by
  split
  · exact ha
  · exact hb

/-- A step on a part that leaves it so, where what holds of the whole is what holds of the part. -/
protected theorem zoom {part : υ → τ} {put : τ → υ → υ} {I' J' : υ → Prop} (h : Leaves I a J)
    (hpart : ∀ u, I' u → I (part u)) (hput : ∀ t u, J t → J' (put t u)) :
    Leaves I' (zoom part put a) J' :=
  fun u hu => hput _ u (h (part u) (hpart u hu))

end Leaves

end Descent.Act
