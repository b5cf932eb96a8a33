import Descent.Proofs.Act.Related

/-!
# Steps made side by side until one breaks off

Two steps go side by side along a `Course`: they end alike on subjects that are `together`, unless
the first one breaks off with a fault on the way (`broken`), or what it has done is not what the
course is about (`astray`).  A step that is astray stays so, whatever follows, and the second one
says nothing of it any more.

`Course.Beside` passes through binds and loops as `Act.Related` does, which is the case of a course
that is never broken nor left.
-/

namespace Descent

open Act

variable {R τ υ α β γ δ : Type}

/-- How two steps may go: side by side, or until the first one breaks off or goes astray. -/
structure Course (R τ υ : Type) where
  together : τ → υ → Prop
  broken : τ → Fault R → Prop
  astray : τ → Prop

namespace Course

/-- How the ends of two steps stand to each other.  What a step that went astray ends with is at
least a value that something is related to. -/
inductive Goes (c : Course R τ υ) (Q : α → β → Prop) :
    Except (Fault R) α × τ → Except (Fault R) β × υ → Prop
  | together {r : Except (Fault R) α} {t : τ} {r' : Except (Fault R) β} {u : υ}
      (h : c.together t u) (hr : Agree Q r r') : Goes c Q (r, t) (r', u)
  | broken {f : Fault R} {t : τ} {y : Except (Fault R) β × υ} (h : c.broken t f) :
      Goes c Q (.error f, t) y
  | astray {r : Except (Fault R) α} {t : τ} {y : Except (Fault R) β × υ} (h : c.astray t)
      (hr : ∀ x, r = .ok x → ∃ x', Q x x') : Goes c Q (r, t) y

/-- The two steps go side by side along the course, and the first one leaves what is astray
astray. -/
structure Beside (c : Course R τ υ) (Q : α → β → Prop) (a : Act R τ α) (b : Act R υ β) :
    Prop where
  goes : ∀ t u, c.together t u → c.Goes Q (a.run t) (b.run u)
  stays : ∀ t, c.astray t → c.astray (a.run t).2 ∧ ∀ x, (a.run t).1 = .ok x → ∃ x', Q x x'

namespace Beside

variable {c : Course R τ υ} {Q : α → β → Prop} {S : γ → δ → Prop}

/-! ### One step -/

protected theorem pure {x : α} {y : β} (h : Q x y) :
    c.Beside Q (pure x : Act R τ α) (pure y : Act R υ β) where
  goes _ _ ht := .together ht (.ok h)
  stays _ ht := by
    refine ⟨ht, ?_⟩
    rintro _ ⟨⟩
    exact ⟨y, h⟩

protected theorem throw (f : Fault R) :
    c.Beside Q (throw f : Act R τ α) (throw f : Act R υ β) where
  goes _ _ ht := .together ht (.error f)
  stays _ ht := ⟨ht, nofun⟩

protected theorem lift (r : Except (Fault R) α) :
    c.Beside Eq (lift r : Act R τ α) (lift r : Act R υ α) where
  goes _ _ ht := .together ht (.refl r)
  stays _ ht := ⟨ht, fun x _ => ⟨x, rfl⟩⟩

/-- Results that agree, whatever subject they are the results of. -/
theorem lift_agree {r : Except (Fault R) α} {r' : Except (Fault R) β} (h : Agree Q r r') :
    c.Beside Q (lift r : Act R τ α) (lift r' : Act R υ β) where
  goes _ _ ht := .together ht h
  stays _ ht := by
    refine ⟨ht, ?_⟩
    rintro x rfl
    cases h with
    | ok h => exact ⟨_, h⟩

/-- Steps that look at their subjects and leave them as they are. -/
theorem read {a : Act R τ α} {b : Act R υ β} (ha : ∀ t, (a.run t).2 = t)
    (hb : ∀ u, (b.run u).2 = u)
    (h : ∀ t u, c.together t u → Agree Q (a.run t).1 (b.run u).1)
    (hfit : ∀ t, c.astray t → ∀ x, (a.run t).1 = .ok x → ∃ x', Q x x') : c.Beside Q a b where
  goes t u ht := by
    have hends : c.together (a.run t).2 (b.run u).2 := by
      rw [ha, hb]
      exact ht
    exact .together hends (h t u ht)
  stays t ht := by
    rw [ha]
    exact ⟨ht, hfit t ht⟩

protected theorem modify {f : τ → τ} {g : υ → υ}
    (h : ∀ t u, c.together t u → c.together (f t) (g u)) (hs : ∀ t, c.astray t → c.astray (f t)) :
    c.Beside Eq (modify f : Act R τ PUnit) (modify g : Act R υ PUnit) where
  goes t u ht := .together (h t u ht) (.ok rfl)
  stays t ht := ⟨hs t ht, fun x _ => ⟨x, rfl⟩⟩

/-! ### One step after another -/

protected theorem bind {a : Act R τ α} {b : Act R υ β} {f : α → Act R τ γ} {g : β → Act R υ δ}
    (h : c.Beside Q a b) (hf : ∀ x y, Q x y → c.Beside S (f x) (g y)) :
    c.Beside S (a >>= f) (b >>= g) where
  goes t u ht := by
    have hgoes := h.goes t u ht
    rw [run_bind, run_bind]
    rcases ha : a.run t with ⟨r, t'⟩
    rcases hb : b.run u with ⟨r', u'⟩
    rw [ha, hb] at hgoes
    cases hgoes with
    | together ht' hr =>
      cases hr with
      | error e => exact .together ht' (.error e)
      | ok hxy => exact (hf _ _ hxy).goes t' u' ht'
    | broken ht' => exact .broken ht'
    | astray ht' hr =>
      cases r with
      | error e => exact .astray ht' nofun
      | ok x =>
        -- the other step has left the course, so any answer that fits it will do
        obtain ⟨y, hxy⟩ := hr x rfl
        obtain ⟨hstays, hfit⟩ := (hf x y hxy).stays t' ht'
        exact .astray hstays hfit
  stays t ht := by
    obtain ⟨ht', hr⟩ := h.stays t ht
    rw [run_bind]
    rcases ha : a.run t with ⟨r, t'⟩
    rw [ha] at ht' hr
    cases r with
    | error e => exact ⟨ht', nofun⟩
    | ok x =>
      obtain ⟨y, hxy⟩ := hr x rfl
      exact (hf x y hxy).stays t' ht'

/-- The case of equal values, in which one continuation follows. -/
theorem bind_eq {a : Act R τ α} {b : Act R υ α} {f : α → Act R τ γ} {g : α → Act R υ δ}
    (h : c.Beside Eq a b) (hf : ∀ x, c.Beside S (f x) (g x)) : c.Beside S (a >>= f) (b >>= g) :=
  h.bind fun x _ hx => hx ▸ hf x

protected theorem map {a : Act R τ α} {b : Act R υ β} {f : α → γ} {g : β → δ}
    (h : c.Beside Q a b) (hf : ∀ x y, Q x y → S (f x) (g y)) :
    c.Beside S (f <$> a) (g <$> b) := by
  rw [map_eq_pure_bind, map_eq_pure_bind]
  exact h.bind fun x y hxy => .pure (hf x y hxy)

protected theorem ite {p : Prop} [Decidable p] {a a' : Act R τ α} {b b' : Act R υ β}
    (h : c.Beside Q a b) (h' : c.Beside Q a' b') :
    c.Beside Q (if p then a else a') (if p then b else b') := by
  split
  · exact h
  · exact h'

protected theorem forIn (xs : List δ) {f : δ → γ → Act R τ (ForInStep γ)}
    {g : δ → γ → Act R υ (ForInStep γ)} (h : ∀ x ∈ xs, ∀ y, c.Beside Eq (f x y) (g x y)) (y : γ) :
    c.Beside Eq (forIn xs y f) (forIn xs y g) := by
  induction xs generalizing y with
  | nil => exact .pure rfl
  | cons x xs ih =>
    rw [List.forIn_cons, List.forIn_cons]
    refine (h x (by simp) y).bind_eq fun r => ?_
    cases r with
    | done z => exact .pure rfl
    | yield z => exact ih (fun x' hx' => h x' (by simp [hx'])) z

/-- Steps whose outcome is looked at, where a fault is passed on once what breaks the course was
attended to. -/
theorem attempt_bind {a : Act R τ α} {b : Act R υ β} {k : Except (Fault R) α → Act R τ γ}
    {k' : Except (Fault R) β → Act R υ δ} (h : c.Beside Q a b)
    (hk : ∀ r r', Agree Q r r' → c.Beside S (k r) (k' r'))
    (hbroken : ∀ f t, c.broken t f →
      ∃ t', (k (.error f)).run t = (.error f, t') ∧ c.broken t' f) :
    c.Beside S (a.attempt >>= k) (b.attempt >>= k') where
  goes t u ht := by
    have hgoes := h.goes t u ht
    rw [run_bind_of_ok (run_attempt a t), run_bind_of_ok (run_attempt b u)]
    rcases ha : a.run t with ⟨r, t'⟩
    rcases hb : b.run u with ⟨r', u'⟩
    rw [ha, hb] at hgoes
    cases hgoes with
    | together ht' hr => exact (hk r r' hr).goes t' u' ht'
    | broken ht' =>
      -- only the first step attends to the fault; the second one owes nothing any more
      obtain ⟨t'', hrun, ht''⟩ := hbroken _ _ ht'
      dsimp only
      rw [hrun]
      exact .broken ht''
    | astray ht' hr =>
      cases r with
      | error e =>
        obtain ⟨hstays, hfit⟩ := (hk _ _ (.error e)).stays t' ht'
        exact .astray hstays hfit
      | ok x =>
        obtain ⟨y, hxy⟩ := hr x rfl
        obtain ⟨hstays, hfit⟩ := (hk _ _ (.ok hxy)).stays t' ht'
        exact .astray hstays hfit
  stays t ht := by
    obtain ⟨ht', hr⟩ := h.stays t ht
    rw [run_bind_of_ok (run_attempt a t)]
    rcases ha : a.run t with ⟨r, t'⟩
    rw [ha] at ht' hr
    cases r with
    | error e => exact (hk _ _ (.error e)).stays t' ht'
    | ok x =>
      obtain ⟨y, hxy⟩ := hr x rfl
      exact (hk _ _ (.ok hxy)).stays t' ht'

end Beside

/-- Along a course that nothing breaks or leaves, steps end alike at subjects that are together. -/
theorem Beside.together {c : Course R τ υ} {Q : α → β → Prop} {a : Act R τ α} {b : Act R υ β}
    (h : c.Beside Q a b) (hbroken : ∀ t f, ¬ c.broken t f) (hastray : ∀ t, ¬ c.astray t) {t : τ}
    {u : υ} (htu : c.together t u) :
    Agree Q (a.run t).1 (b.run u).1 ∧ c.together (a.run t).2 (b.run u).2 := by
  have hgoes := h.goes t u htu
  rcases ha : a.run t with ⟨r, t'⟩
  rcases hb : b.run u with ⟨r', u'⟩
  rw [ha, hb] at hgoes
  cases hgoes with
  | together ht hr => exact ⟨hr, ht⟩
  | broken ht => exact absurd ht (hbroken _ _)
  | astray ht _ => exact absurd ht (hastray _)

/-! ### Courses on parts -/

section

variable {τ' υ' : Type}

/-- A course of parts frames one of wholes: the parts of what is together are, and what they come to
is put back so that the wholes go on as the parts do. -/
structure Frames (c : Course R τ υ) (c' : Course R τ' υ') (part : τ' → τ) (part' : υ' → υ)
    (put : τ → τ' → τ') (put' : υ → υ' → υ') : Prop where
  enter : ∀ {t u}, c'.together t u → c.together (part t) (part' u)
  leave : ∀ {t u x y}, c'.together t u → c.together x y → c'.together (put x t) (put' y u)
  broken : ∀ {t x f}, c.broken x f → c'.broken (put x t) f
  astray : ∀ {t}, c'.astray t → c.astray (part t)
  leave_astray : ∀ {t x}, (c'.astray t ∨ ∃ u, c'.together t u) → c.astray x →
    c'.astray (put x t)

variable {c : Course R τ υ} {c' : Course R τ' υ'} {part : τ' → τ} {part' : υ' → υ}
  {put : τ → τ' → τ'} {put' : υ → υ' → υ'} {Q : α → β → Prop}

/-- Steps on parts go side by side with the wholes as they do on the parts. -/
theorem Beside.zoom {a : Act R τ α} {b : Act R υ β} (h : c.Beside Q a b)
    (hc : c.Frames c' part part' put put') :
    c'.Beside Q (zoom part put a) (zoom part' put' b) where
  goes t u ht := by
    have hgoes := h.goes _ _ (hc.enter ht)
    rw [run_zoom, run_zoom]
    rcases ha : a.run (part t) with ⟨r, x⟩
    rcases hb : b.run (part' u) with ⟨r', y⟩
    rw [ha, hb] at hgoes
    cases hgoes with
    | together hxy hr => exact .together (hc.leave ht hxy) hr
    | broken hx => exact .broken (hc.broken hx)
    | astray hx hr => exact .astray (hc.leave_astray (.inr ⟨u, ht⟩) hx) hr
  stays t ht := by
    obtain ⟨hx, hr⟩ := h.stays _ (hc.astray ht)
    exact ⟨hc.leave_astray (.inl ht) hx, hr⟩

/-- The course that two subjects follow whose parts follow a course, and which are the `same`
otherwise. -/
def on (c : Course R τ υ) (part : τ' → τ) (part' : υ' → υ) (same : τ' → υ' → Prop) :
    Course R τ' υ' where
  together t u := same t u ∧ c.together (part t) (part' u)
  broken t f := c.broken (part t) f
  astray t := (∃ u, same t u) ∧ c.astray (part t)

variable {same : τ' → υ' → Prop}

theorem frames_on (hput : ∀ x t, part (put x t) = x) (hput' : ∀ y u, part' (put' y u) = y)
    (hsame : ∀ t u x y, same t u → same (put x t) (put' y u)) :
    c.Frames (c.on part part' same) part part' put put' where
  enter h := h.2
  leave {t u x y} h hxy := by
    refine ⟨hsame t u x y h.1, ?_⟩
    rw [hput, hput']
    exact hxy
  broken {t x f} h := by
    show c.broken (part (put x t)) f
    rw [hput]
    exact h
  astray h := h.2
  leave_astray {t x} h hx := by
    have hu : ∃ u, same t u := h.elim And.left fun ⟨u, hu⟩ => ⟨u, hu.1⟩
    obtain ⟨u, hu⟩ := hu
    refine ⟨⟨put' (part' u) u, hsame t u x _ hu⟩, ?_⟩
    rw [hput]
    exact hx

/-- What is read of the whole is related as the two are. -/
protected theorem Beside.get :
    (c.on part part' same).Beside same (get : Act R τ' τ') (get : Act R υ' υ') where
  goes t u ht := .together ht (.ok ht.1)
  stays t ht := by
    refine ⟨ht, ?_⟩
    rintro _ ⟨⟩
    exact ht.1

/-- What is changed beside the part that follows the course. -/
theorem Beside.modify_beside {f : τ' → τ'} {g : υ' → υ'} (hf : ∀ t, part (f t) = part t)
    (hg : ∀ u, part' (g u) = part' u) (hsame : ∀ t u, same t u → same (f t) (g u)) :
    (c.on part part' same).Beside Eq (modify f : Act R τ' PUnit) (modify g : Act R υ' PUnit) := by
  refine .modify (fun t u ht => ⟨hsame t u ht.1, ?_⟩) fun t ht => ⟨?_, ?_⟩
  · rw [hf, hg]
    exact ht.2
  · obtain ⟨u, hu⟩ := ht.1
    exact ⟨g u, hsame t u hu⟩
  · rw [hf]
    exact ht.2

end

end Course

end Descent
