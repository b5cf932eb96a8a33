import Descent.Act

/-!
# Running a step

`Act.run` opens a step that is written with binds.  The `run_*` equations say what each of the
ways to make a step does; `run_bind_eq_ok` and `run_bind_eq_error` take a run of two steps apart
into the runs of each, so that a run of a program is a chain of runs of its parts.
-/

namespace Descent.Act

variable {R τ υ α β : Type}

/-! ### The ways to make a step -/

@[simp]
theorem run_pure (x : α) (t : τ) : (pure x : Act R τ α).run t = (.ok x, t) := rfl

@[simp]
theorem run_throw (f : Fault R) (t : τ) : (throw f : Act R τ α).run t = (.error f, t) := rfl

@[simp]
theorem run_get (t : τ) : (get : Act R τ τ).run t = (.ok t, t) := rfl

@[simp]
theorem run_set (u t : τ) : (set u : Act R τ PUnit).run t = (.ok ⟨⟩, u) := rfl

@[simp]
theorem run_modify (g : τ → τ) (t : τ) :
    (modify g : Act R τ PUnit).run t = (.ok ⟨⟩, g t) := rfl

@[simp]
theorem run_of (f : τ → Except (Fault R) α × τ) (t : τ) : (of f).run t = f t := rfl

@[simp]
theorem run_lift (r : Except (Fault R) α) (t : τ) : (lift r : Act R τ α).run t = (r, t) := rfl

@[simp]
theorem run_zoom (part : υ → τ) (put : τ → υ → υ) (a : Act R τ α) (u : υ) :
    (zoom part put a).run u = ((a.run (part u)).1, put (a.run (part u)).2 u) := rfl

@[simp]
theorem run_attempt (a : Act R τ α) (t : τ) :
    a.attempt.run t = (.ok (a.run t).1, (a.run t).2) := rfl

/-! ### One step after another -/

/-- A fault of the first step is the fault of both, and the second one is not made. -/
theorem run_bind (a : Act R τ α) (f : α → Act R τ β) (t : τ) :
    (a >>= f).run t =
      match a.run t with
      | (.ok x, u) => (f x).run u
      | (.error e, u) => (.error e, u) := by
  have h : (a >>= f).run t = (ExceptT.bindCont f (a.run t).1 : StateM τ _) (a.run t).2 := rfl
  rw [h]
  rcases a.run t with ⟨_ | _, u⟩ <;> rfl

theorem run_bind_of_ok {a : Act R τ α} {f : α → Act R τ β} {t u : τ} {x : α}
    (h : a.run t = (.ok x, u)) : (a >>= f).run t = (f x).run u := by
  rw [run_bind, h]

theorem run_bind_of_error {a : Act R τ α} {f : α → Act R τ β} {t u : τ} {e : Fault R}
    (h : a.run t = (.error e, u)) : (a >>= f).run t = (.error e, u) := by
  rw [run_bind, h]

/-- Two steps succeed exactly when each does, the second from where the first one ended. -/
@[simp]
theorem run_bind_eq_ok {a : Act R τ α} {f : α → Act R τ β} {t t' : τ} {y : β} :
    (a >>= f).run t = (.ok y, t') ↔
      ∃ x u, a.run t = (.ok x, u) ∧ (f x).run u = (.ok y, t') := by
  constructor
  · intro h
    rw [run_bind] at h
    rcases hr : a.run t with ⟨_ | x, u⟩
    · rw [hr] at h
      cases h
    · rw [hr] at h
      exact ⟨x, u, rfl, h⟩
  · rintro ⟨x, u, hx, hy⟩
    rw [run_bind_of_ok hx, hy]

/-- Two steps fail exactly when the first one does, or the second after the first one. -/
theorem run_bind_eq_error {a : Act R τ α} {f : α → Act R τ β} {t t' : τ} {e : Fault R} :
    (a >>= f).run t = (.error e, t') ↔
      a.run t = (.error e, t') ∨
        ∃ x u, a.run t = (.ok x, u) ∧ (f x).run u = (.error e, t') := by
  constructor
  · intro h
    rw [run_bind] at h
    rcases hr : a.run t with ⟨_ | x, u⟩
    · rw [hr] at h
      exact .inl (by simpa using h)
    · rw [hr] at h
      exact .inr ⟨x, u, rfl, h⟩
  · rintro (h | ⟨x, u, hx, hy⟩)
    · rw [run_bind_of_error h]
    · rw [run_bind_of_ok hx, hy]

/-! ### Results and parts -/

theorem bind_eq_ok {ε : Type} {r : Except ε α} {f : α → Except ε β} {y : β} :
    (r >>= f) = .ok y ↔ ∃ x, r = .ok x ∧ f x = .ok y := by
  cases r with
  | error e => exact ⟨nofun, fun ⟨_, h, _⟩ => nomatch h⟩
  | ok x =>
    constructor
    · intro h
      exact ⟨x, rfl, h⟩
    · rintro ⟨x', h, hy⟩
      cases h
      exact hy

theorem toOption_eq_some {ε : Type} {r : Except ε α} {x : α} :
    r.toOption = some x ↔ r = .ok x := by
  cases r with
  | error e => exact ⟨nofun, nofun⟩
  | ok y => simp [Except.toOption]

/-- A step with something of its answer known succeeds. -/
theorem exists_of_toOption_map {β : Type} {a : Act R τ α} {t : τ} {f : α → β} {y : β}
    (h : (a.run t).1.toOption.map f = some y) : ∃ x u, a.run t = (.ok x, u) ∧ f x = y := by
  rcases hr : a.run t with ⟨r, u⟩
  rw [hr] at h
  obtain ⟨x, hx, hy⟩ := Option.map_eq_some_iff.mp h
  obtain rfl : r = .ok x := toOption_eq_some.mp hx
  exact ⟨x, u, rfl, hy⟩

/-- A step that is known to succeed ends with its one answer. -/
theorem run_eq_of_isOk {a : Act R τ Unit} {t : τ} (h : (a.run t).1.isOk = true) :
    a.run t = (.ok (), (a.run t).2) := by
  rcases hr : a.run t with ⟨_ | _, u⟩
  · rw [hr] at h
    cases h
  · rfl

theorem run_lift_eq {r r' : Except (Fault R) α} {t t' : τ} :
    (lift r : Act R τ α).run t = (r', t') ↔ r = r' ∧ t' = t := by
  rw [run_lift, Prod.mk.injEq, eq_comm (a := t)]

theorem run_zoom_eq {part : υ → τ} {put : τ → υ → υ} {a : Act R τ α} {u u' : υ}
    {r : Except (Fault R) α} :
    (zoom part put a).run u = (r, u') ↔ ∃ t, a.run (part u) = (r, t) ∧ u' = put t u := by
  constructor
  · intro h
    rw [run_zoom] at h
    cases h
    exact ⟨_, rfl, rfl⟩
  · rintro ⟨t, ha, rfl⟩
    rw [run_zoom, ha]

end Descent.Act
