import Descent.Proofs.Act.Run
import Mathlib.Data.List.Forall2

/-!
# Results of many computations

What a list of computations answers is what each of them answers, and a fault of the list is a
fault of one of them.
-/

namespace Descent.Act

variable {ε α β : Type} {f : α → Except ε β}

theorem bind_eq_error {r : Except ε α} {f : α → Except ε β} {e : ε} :
    (r >>= f) = .error e ↔ r = .error e ∨ ∃ x, r = .ok x ∧ f x = .error e := by
  cases r with
  | error e' =>
    constructor
    · intro h
      cases h
      exact .inl rfl
    · rintro (h | ⟨x, hx, -⟩)
      · cases h
        rfl
      · cases hx
  | ok x =>
    constructor
    · intro h
      exact .inr ⟨x, rfl, h⟩
    · rintro (h | ⟨x', hx, h⟩)
      · cases h
      · cases hx
        exact h

theorem bind_unit_eq_ok {r : Except ε Unit} {f : Unit → Except ε α} {y : α} :
    (r >>= f) = .ok y ↔ r = .ok () ∧ f () = .ok y :=
  bind_eq_ok.trans ⟨fun ⟨_, h⟩ => h, fun h => ⟨(), h⟩⟩

/-- What is made of an answer is there exactly if the answer is. -/
theorem exists_bind_pure_eq_ok {r : Except ε α} {g : α → β} :
    (∃ y, (r >>= fun x => pure (g x)) = .ok y) ↔ ∃ x, r = .ok x := by
  cases r with
  | error e => exact iff_of_false (fun ⟨_, h⟩ => nomatch h) (fun ⟨_, h⟩ => nomatch h)
  | ok x => exact iff_of_true ⟨g x, rfl⟩ ⟨x, rfl⟩

/-- Every fault of the result has a property. -/
def Raises (P : ε → Prop) (r : Except ε α) : Prop := ∀ e, r = .error e → P e

namespace Raises

variable {P : ε → Prop}

protected theorem ok (x : α) : Raises P (.ok x : Except ε α) := nofun

protected theorem error {e : ε} (h : P e) : Raises P (.error e : Except ε α) := by
  intro e' he
  cases he
  exact h

/-- What comes second matters only after the first has succeeded. -/
protected theorem bind {r : Except ε α} {g : α → Except ε β} (hr : Raises P r)
    (hg : ∀ x, r = .ok x → Raises P (g x)) : Raises P (r >>= g) := by
  intro e he
  rcases bind_eq_error.mp he with h | ⟨x, hx, h⟩
  · exact hr e h
  · exact hg x hx e h

protected theorem mono {Q : ε → Prop} {r : Except ε α} (h : Raises P r) (hPQ : ∀ e, P e → Q e) :
    Raises Q r := fun e he => hPQ e (h e he)

protected theorem ite {c : Prop} [Decidable c] {r r' : Except ε α} (h : Raises P r)
    (h' : Raises P r') : Raises P (if c then r else r') := by
  split
  · exact h
  · exact h'

/-- What goes on unless it is refused. -/
theorem guard {c : Prop} [Decidable c] {e : ε} {g : PUnit → Except ε α} (he : P e)
    (hg : Raises P (g ⟨⟩)) :
    Raises P (if c then (throw e : Except ε PUnit) >>= g else g ⟨⟩) :=
  (Raises.error he).ite hg

protected theorem mapM {xs : List α} (h : ∀ x ∈ xs, Raises P (f x)) : Raises P (xs.mapM f) := by
  induction xs with
  | nil => exact .ok _
  | cons x xs ih =>
    rw [List.mapM_cons]
    refine (h x List.mem_cons_self).bind fun y _ => ?_
    refine (ih fun x' hx' => h x' (List.mem_cons_of_mem _ hx')).bind fun ys _ => ?_
    exact .ok _

end Raises

/-- Every answer of the result has a property. -/
def Returns (P : α → Prop) (r : Except ε α) : Prop := ∀ x, r = .ok x → P x

namespace Returns

variable {P : α → Prop} {Q : β → Prop}

protected theorem ok {x : α} (h : P x) : Returns P (.ok x : Except ε α) := by
  intro y hy
  cases hy
  exact h

protected theorem bind {r : Except ε α} {g : α → Except ε β} (hr : Returns P r)
    (hg : ∀ x, P x → Returns Q (g x)) : Returns Q (r >>= g) := by
  intro y hy
  obtain ⟨x, hx, h⟩ := bind_eq_ok.mp hy
  exact hg x (hr x hx) y h

/-- Nothing is known of the first answer. -/
protected theorem next {r : Except ε α} {g : α → Except ε β} (hg : ∀ x, Returns Q (g x)) :
    Returns Q (r >>= g) :=
  Returns.bind (P := fun _ => True) (fun _ _ => trivial) fun x _ => hg x

end Returns

/-- A list is computed exactly if each of its items is. -/
theorem mapM_eq_ok {xs : List α} {ys : List β} :
    xs.mapM f = .ok ys ↔ List.Forall₂ (fun x y => f x = .ok y) xs ys := by
  induction xs generalizing ys with
  | nil =>
    rw [List.mapM_nil, List.forall₂_nil_left_iff]
    constructor
    · intro h
      cases h
      rfl
    · rintro rfl
      rfl
  | cons x xs ih =>
    rw [List.mapM_cons, List.forall₂_cons_left_iff]
    simp only [bind_eq_ok, ih]
    constructor
    · rintro ⟨y, hy, ys', hys, h⟩
      cases h
      exact ⟨y, ys', hy, hys, rfl⟩
    · rintro ⟨y, ys', hy, hys, rfl⟩
      exact ⟨y, hy, ys', hys, rfl⟩

/-- The items of a list that is computed have what the computations answer. -/
theorem Returns.mapM {Q : β → Prop} {xs : List α} (h : ∀ x ∈ xs, Returns Q (f x)) :
    Returns (fun ys => ∀ y ∈ ys, Q y) (xs.mapM f) := by
  intro ys hys
  rw [mapM_eq_ok] at hys
  induction hys with
  | nil => exact nofun
  | cons hxy _ ih =>
    obtain ⟨hx, hxs⟩ := List.forall_mem_cons.mp h
    exact List.forall_mem_cons.mpr ⟨hx _ hxy, ih hxs⟩

theorem exists_mapM_eq_ok {xs : List α} :
    (∃ ys, xs.mapM f = .ok ys) ↔ ∀ x ∈ xs, ∃ y, f x = .ok y := by
  simp only [mapM_eq_ok]
  induction xs with
  | nil => simp
  | cons x xs ih =>
    simp only [List.forall₂_cons_left_iff, List.forall_mem_cons, ← ih]
    constructor
    · rintro ⟨_, y, ys, hy, hys, -⟩
      exact ⟨⟨y, hy⟩, ys, hys⟩
    · rintro ⟨⟨y, hy⟩, ys, hys⟩
      exact ⟨y :: ys, y, ys, hy, hys, rfl⟩

/-- A list whose items all answer what a function says answers what the function says. -/
theorem mapM_eq_ok_map {g : α → β} {xs : List α} (h : ∀ x ∈ xs, f x = .ok (g x)) :
    xs.mapM f = .ok (xs.map g) := by
  rw [mapM_eq_ok, List.forall₂_map_right_iff, List.forall₂_same]
  exact h

/-- The same of computations that may have no answer. -/
theorem mapM_eq_some {f : α → Option β} {xs : List α} {ys : List β} :
    xs.mapM f = some ys ↔ List.Forall₂ (fun x y => f x = some y) xs ys := by
  induction xs generalizing ys with
  | nil =>
    rw [List.mapM_nil, List.forall₂_nil_left_iff]
    exact ⟨fun h => (Option.some_inj.mp h).symm, fun h => congrArg some h.symm⟩
  | cons x xs ih =>
    rw [List.mapM_cons, List.forall₂_cons_left_iff]
    simp only [Option.bind_eq_bind, Option.bind_eq_some_iff, ih]
    constructor
    · rintro ⟨y, hy, ys', hys, h⟩
      cases h
      exact ⟨y, ys', hy, hys, rfl⟩
    · rintro ⟨y, ys', hy, hys, rfl⟩
      exact ⟨y, hy, ys', hys, rfl⟩

theorem exists_of_mapM_eq_some {f : α → Option β} {xs : List α} {ys : List β}
    (h : xs.mapM f = some ys) : ∀ x ∈ xs, ∃ y, f x = some y := by
  rw [mapM_eq_some] at h
  induction h with
  | nil => exact nofun
  | cons hx _ ih => exact List.forall_mem_cons.mpr ⟨⟨_, hx⟩, ih⟩

theorem length_of_mapM_eq_ok {xs : List α} {ys : List β} (h : xs.mapM f = .ok ys) :
    ys.length = xs.length :=
  (mapM_eq_ok.mp h).length_eq.symm

end Descent.Act
