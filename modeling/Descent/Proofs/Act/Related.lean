import Descent.Proofs.Act.Run

/-!
# Two steps that do the same

`Related P Q a b` says that the steps `a` and `b`, made on subjects related by `P`, end on subjects
related by `P` and with outcomes that agree: with values related by `Q`, or with the same fault.
It passes through binds and loops, so two programs of one shape are related once their parts are.
-/

namespace Descent.Act

variable {R τ υ α β γ δ : Type}

/-- Two outcomes agree: they are values related by `Q`, or the same fault. -/
inductive Agree (Q : α → β → Prop) : Except (Fault R) α → Except (Fault R) β → Prop
  | ok {x : α} {y : β} (h : Q x y) : Agree Q (.ok x) (.ok y)
  | error (e : Fault R) : Agree Q (.error e) (.error e)

theorem Agree.refl (r : Except (Fault R) α) : Agree Eq r r := by
  cases r with
  | error e => exact .error e
  | ok x => exact .ok rfl

theorem Agree.imp {Q Q' : α → β → Prop} {r : Except (Fault R) α} {r' : Except (Fault R) β}
    (h : Agree Q r r') (hQ : ∀ x y, Q x y → Q' x y) : Agree Q' r r' := by
  cases h with
  | ok h => exact .ok (hQ _ _ h)
  | error e => exact .error e

theorem Agree.symm {Q : α → β → Prop} {r : Except (Fault R) α} {r' : Except (Fault R) β}
    (h : Agree Q r r') : Agree (fun y x => Q x y) r' r := by
  cases h with
  | ok h => exact .ok h
  | error e => exact .error e

theorem Agree.eq_of {Q : α → α → Prop} {r r' : Except (Fault R) α} (h : Agree Q r r')
    (hQ : ∀ x y, Q x y → x = y) : r = r' := by
  cases h with
  | ok h => rw [hQ _ _ h]
  | error e => rfl

theorem Agree.eq {r r' : Except (Fault R) α} (h : Agree Eq r r') : r = r' := h.eq_of fun _ _ => id

/-- On subjects related by `P` the two steps end on such subjects, and with outcomes that agree. -/
def Related (P : τ → υ → Prop) (Q : α → β → Prop) (a : Act R τ α) (b : Act R υ β) : Prop :=
  ∀ t u, P t u → P (a.run t).2 (b.run u).2 ∧ Agree Q (a.run t).1 (b.run u).1

namespace Related

variable {P : τ → υ → Prop} {Q : α → β → Prop}

/-- A step does the same on the same subject. -/
protected theorem refl (a : Act R τ α) : Related Eq Eq a a := by
  rintro t _ rfl
  exact ⟨rfl, .refl _⟩

protected theorem pure {x : α} {y : β} (h : Q x y) :
    Related P Q (pure x : Act R τ α) (pure y : Act R υ β) :=
  fun _ _ hP => ⟨hP, .ok h⟩

protected theorem throw (e : Fault R) :
    Related P Q (throw e : Act R τ α) (throw e : Act R υ β) :=
  fun _ _ hP => ⟨hP, .error e⟩

protected theorem get : Related P P (get : Act R τ τ) (get : Act R υ υ) :=
  fun _ _ hP => ⟨hP, .ok hP⟩

protected theorem lift (r : Except (Fault R) α) :
    Related P Eq (lift r : Act R τ α) (lift r : Act R υ α) :=
  fun _ _ hP => ⟨hP, .refl r⟩

/-- Results that agree, whatever subjects they are the results of. -/
theorem lift_agree {r : Except (Fault R) α} {r' : Except (Fault R) β} (h : Agree Q r r') :
    Related P Q (lift r : Act R τ α) (lift r' : Act R υ β) :=
  fun _ _ hP => ⟨hP, h⟩

protected theorem modify {f : τ → τ} {g : υ → υ} (h : ∀ t u, P t u → P (f t) (g u)) :
    Related P Eq (modify f : Act R τ PUnit) (modify g : Act R υ PUnit) :=
  fun t u hP => ⟨h t u hP, .ok rfl⟩

theorem imp {Q' : α → β → Prop} {a : Act R τ α} {b : Act R υ β} (h : Related P Q a b)
    (hQ : ∀ x y, Q x y → Q' x y) : Related P Q' a b :=
  fun t u hP => ⟨(h t u hP).1, (h t u hP).2.imp hQ⟩

/-- The two steps change places. -/
theorem symm {a : Act R τ α} {b : Act R υ β} (h : Related P Q a b) :
    Related (fun u t => P t u) (fun y x => Q x y) b a :=
  fun u t hP => ⟨(h t u hP).1, (h t u hP).2.symm⟩

protected theorem bind {S : γ → δ → Prop} {a : Act R τ α} {b : Act R υ β}
    {f : α → Act R τ γ} {g : β → Act R υ δ} (ha : Related P Q a b)
    (hf : ∀ x y, Q x y → Related P S (f x) (g y)) : Related P S (a >>= f) (b >>= g) := by
  intro t u hP
  obtain ⟨hP', hQ⟩ := ha t u hP
  rw [run_bind, run_bind]
  rcases hx : a.run t with ⟨rx, t'⟩
  rcases hy : b.run u with ⟨ry, u'⟩
  rw [hx, hy] at hP' hQ
  -- both fail with one fault, or both go on from values that agree
  cases hQ with
  | error e => exact ⟨hP', .error e⟩
  | ok h => exact hf _ _ h t' u' hP'

/-- The case of equal values, in which one continuation follows. -/
theorem bind_eq {S : γ → δ → Prop} {a : Act R τ α} {b : Act R υ α} {f : α → Act R τ γ}
    {g : α → Act R υ δ} (ha : Related P Eq a b) (hf : ∀ x, Related P S (f x) (g x)) :
    Related P S (a >>= f) (b >>= g) :=
  ha.bind fun x _ h => h ▸ hf x

protected theorem ite {c : Prop} [Decidable c] {a a' : Act R τ α} {b b' : Act R υ β}
    (ha : Related P Q a b) (ha' : Related P Q a' b') :
    Related P Q (if c then a else a') (if c then b else b') := by
  split
  · exact ha
  · exact ha'

protected theorem forIn (xs : List δ) {f : δ → γ → Act R τ (ForInStep γ)}
    {g : δ → γ → Act R υ (ForInStep γ)} (h : ∀ x ∈ xs, ∀ y, Related P Eq (f x y) (g x y)) (y : γ) :
    Related P Eq (forIn xs y f) (forIn xs y g) := by
  induction xs generalizing y with
  | nil => exact Related.pure rfl
  | cons x xs ih =>
    rw [List.forIn_cons, List.forIn_cons]
    refine (h x (by simp) y).bind_eq fun r => ?_
    cases r with
    | done z => exact Related.pure rfl
    | yield z => exact ih (fun x' hx' => h x' (by simp [hx'])) z

/-- Steps on parts of subjects: the parts are related, and putting related parts back relates the
wholes. -/
protected theorem zoom {τ' υ' : Type} {P' : τ' → υ' → Prop} {part : τ' → τ} {part' : υ' → υ}
    {put : τ → τ' → τ'} {put' : υ → υ' → υ'} {a : Act R τ α} {b : Act R υ β} (h : Related P Q a b)
    (henter : ∀ t u, P' t u → P (part t) (part' u))
    (hleave : ∀ t u x y, P' t u → P x y → P' (put x t) (put' y u)) :
    Related P' Q (zoom part put a) (zoom part' put' b) := by
  intro t u hP
  obtain ⟨hx, hr⟩ := h _ _ (henter t u hP)
  exact ⟨hleave t u _ _ hP hx, hr⟩

/-- The outcomes of two related steps agree, as values. -/
protected theorem attempt {a : Act R τ α} {b : Act R υ β} (h : Related P Q a b) :
    Related P (Agree Q) a.attempt b.attempt :=
  fun t u hP => ⟨(h t u hP).1, .ok (h t u hP).2⟩

end Related

end Descent.Act
