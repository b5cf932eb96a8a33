import Descent.Logging.Registry
import Descent.Proofs.Act.Run

/-!
# What is done to loggers

A level may be given by its number or by its name, in any letter case (`Level.StandsFor`).  Loggers
are found by name and changed by name; a change that keeps names changes the logger of the name and
leaves the others alone (`Registry.find?_update_self`, `Registry.find?_update_of_ne`).

In these terms the equations `run_*` say what `Registry.obtain`, `Registry.setLevel` and
`Registry.configure` do, those for a format that cannot be used among them: a handler is refused
where it would be made, and what was done before that stays done.
-/

namespace Descent

open Act

/-! ### Levels as they are given -/

namespace Level

/-- The names of levels that are given by name. -/
def standard : List (String × Int) :=
  [("DEBUG", 10), ("INFO", 20), ("WARNING", 30), ("ERROR", 40), ("CRITICAL", 50)]

/-- The value stands for the number of a level: it is the number, which is positive, or a standard
name in any letter case. -/
inductive StandsFor : Value Float → Int → Prop
  | number {n : Int} (h : 0 < n) : StandsFor (.int n) n
  | name {s name : String} {n : Int} (h : (name, n) ∈ standard)
      (hs : s.toList.map Char.toUpper = name.toList) : StandsFor (.text s) n

/-- A character whose capital is a basic one has no other capitals. -/
theorem capital_of_basic {c : Char} (h : c.toUpper.toNat < 128) : capital c = [c.toUpper] := by
  have hc : c.toNat < 128 := by
    refine Nat.lt_of_not_le fun hbeyond => ?_
    -- a character beyond the basic ones is its own capital
    have hsame : c.toUpper = c := by
      unfold Char.toUpper
      rw [dif_neg]
      rintro ⟨-, hle⟩
      have hz : c.toNat ≤ 122 := UInt32.le_iff_toNat_le.mp hle
      omega
    rw [hsame] at h
    omega
  unfold capital
  simp (disch := omega) only [if_neg, Bool.or_eq_true, decide_eq_true_eq]

theorem capitals_of_basic {s : String} (h : ∀ c ∈ s.toList.map Char.toUpper, c.toNat < 128) :
    capitals s = String.ofList (s.toList.map Char.toUpper) := by
  unfold capitals
  congr 1
  generalize s.toList = cs at h
  induction cs with
  | nil => rfl
  | cons c cs ih =>
    rw [List.map_cons, List.forall_mem_cons] at h
    rw [List.flatMap_cons, List.map_cons, capital_of_basic h.1, ih h.2, List.singleton_append]

theorem StandsFor.pos {v : Value Float} {n : Int} (h : StandsFor v n) : 0 < n := by
  cases h with
  | number h => exact h
  | name h =>
    have hall : ∀ p ∈ standard, 0 < p.2 := by decide
    exact hall _ h

/-- What stands for a level is taken as that level. -/
theorem StandsFor.ofValue {v : Value Float} {n : Int} (h : StandsFor v n) :
    Level.ofValue v = .rank ⟨n, false⟩ := by
  cases h with
  | number h => rfl
  | @name s name _ h hs =>
    have hbasic : ∀ p ∈ standard, ∀ c ∈ p.1.toList, c.toNat < 128 := by
      simp [standard]
    have hknown : ∀ p ∈ standard, List.lookup p.1 names = some p.2 := by decide +kernel
    have hcapitals : capitals s = name := by
      rw [capitals_of_basic fun c hc => hbasic _ h c (hs ▸ hc), hs, String.ofList_toList]
    show ofText s = _
    unfold ofText
    dsimp only
    rw [hcapitals, hknown _ h]

end Level

namespace Registry

/-! ### Loggers by name -/

/-- The registry with the loggers of some names changed. -/
def updateAll (g : Registry) (names : List String) (f : Logger → Logger) : Registry :=
  names.foldl (fun g name => g.update name f) g

section

variable {g : Registry} {name other : String} {names : List String} {f h : Logger → Logger}

theorem name_of_find? {l : Logger} (hl : g.find? name = some l) : l.name = name := by
  have hname := List.find?_some (p := fun l : Logger => l.name == name) hl
  exact eq_of_beq hname

theorem update_update (hf : ∀ l, (f l).name = l.name) :
    (g.update name f).update name h = g.update name fun l => h (f l) := by
  unfold update
  dsimp only
  rw [List.map_map]
  congr 2
  funext l
  by_cases hl : l.name = name <;> simp [hl, hf]

variable (hf : ∀ l, (f l).name = l.name)

include hf

theorem find?_update (g : Registry) (name other : String) :
    (g.update name f).find? other =
      (g.find? other).map fun l => if l.name == name then f l else l := by
  have hsame : ((fun l : Logger => l.name == other) ∘ fun l => if l.name == name then f l else l) =
      fun l : Logger => l.name == other := by
    funext l
    by_cases hl : l.name = name <;> simp [hl, hf]
  unfold update find?
  rw [List.find?_map, hsame]

/-- A change that keeps names changes the logger of the name. -/
theorem find?_update_self : (g.update name f).find? name = (g.find? name).map f := by
  rw [find?_update hf]
  cases hl : g.find? name with
  | none => rfl
  | some l => rw [Option.map_some, Option.map_some, name_of_find? hl, beq_self_eq_true, if_pos rfl]

/-- It leaves the others alone. -/
theorem find?_update_of_ne (hne : other ≠ name) :
    (g.update name f).find? other = g.find? other := by
  rw [find?_update hf]
  cases hl : g.find? other with
  | none => rfl
  | some l => simp [name_of_find? hl, hne]

/-- What changes nothing the second time may change a logger more than once. -/
theorem find?_updateAll (hidem : ∀ l, f (f l) = f l) (g : Registry) (names : List String)
    (other : String) :
    (g.updateAll names f).find? other =
      (g.find? other).map fun l => if l.name ∈ names then f l else l := by
  induction names generalizing g with
  | nil => simp [updateAll]
  | cons name names ih =>
    show ((g.update name f).updateAll names f).find? other = _
    rw [ih, find?_update hf, Option.map_map]
    congr 1
    funext l
    by_cases hname : l.name = name <;> by_cases hnames : name ∈ names <;>
      simp [hname, hnames, hf, hidem]

omit hf in
theorem updateAll_keeps {α : Type} (part : Registry → α)
    (hpart : ∀ g name, part (g.update name f) = part g) :
    part (g.updateAll names f) = part g := by
  induction names generalizing g with
  | nil => rfl
  | cons name names ih => exact ih.trans (hpart g name)

end

theorem find?_ensure_self (g : Registry) (name : String) :
    (g.ensure name).find? name = some ((g.find? name).getD { name := name }) := by
  unfold ensure
  cases hl : g.find? name with
  | none =>
    have hnone : g.loggers.find? (·.name == name) = none := hl
    simp [find?, List.find?_append, hnone]
  | some l => simp [hl]

theorem find?_ensure_of_ne {g : Registry} {name other : String} (hne : other ≠ name) :
    (g.ensure name).find? other = g.find? other := by
  unfold ensure
  split
  · rfl
  · simp [find?, List.find?_append, hne.symm]

theorem find?_update_ensure_self {g : Registry} {name : String} {f : Logger → Logger} {l : Logger}
    (hf : ∀ l, (f l).name = l.name) (hl : (g.ensure name).find? name = some l) :
    ((g.ensure name).update name f).find? name = some (f l) := by
  rw [find?_update_self hf, hl, Option.map_some]

theorem find?_update_ensure_of_ne {g : Registry} {name other : String} {f : Logger → Logger}
    (hf : ∀ l, (f l).name = l.name) (hne : other ≠ name) :
    ((g.ensure name).update name f).find? other = g.find? other := by
  rw [find?_update_of_ne hf hne, find?_ensure_of_ne hne]

/-- A logger is made among the others. -/
theorem ensure_keeps {α : Type} {g : Registry} {name : String} (part : Registry → α)
    (hpart : ∀ g loggers, part { g with loggers } = part g) : part (g.ensure name) = part g := by
  unfold ensure
  split
  · rfl
  · exact hpart g _

/-! ### One logger -/

section

variable {g : Registry} {r : Rank} {name : String}

theorem run_setLoggerLevel (g : Registry) (name : String) (r : Rank) :
    (setLoggerLevel name (.rank r)).run g =
      (.ok ⟨⟩, g.update name fun l => { l with level := r }) := rfl

/-- A handler is made of the format and the stream in force. -/
theorem run_addHandler {format stream : String} (hf : g.format = format) (hs : g.stream = stream)
    (hformat : Logging.Format.isValid format = true) :
    (addHandler name (.rank r)).run g = (.ok ⟨⟩, g.update name fun l =>
      { l with handlers := l.handlers ++ [⟨r, some format, stream⟩] }) := by
  subst hf hs
  unfold addHandler
  show (Act.run (if !Logging.Format.isValid g.format then _ else _) g) = _
  rw [hformat]
  rfl

/-- No handler is made of a format that cannot be used. -/
theorem run_addHandler_refused (hformat : Logging.Format.isValid g.format = false) :
    (addHandler name (.rank r)).run g = (.error .wrongValue, g) := by
  unfold addHandler
  show (Act.run (if !Logging.Format.isValid g.format then _ else _) g) = _
  rw [hformat]
  rfl

end

/-! ### Every logger -/

/-- A level for a logger and its handlers. -/
def graded (r : Rank) (l : Logger) : Logger :=
  { l with level := r, handlers := l.handlers.map fun h => { h with level := r } }

/-- A logger at a level without handlers. -/
def emptied (r : Rank) (l : Logger) : Logger := { l with level := r, handlers := [] }

/-- A logger with one handler, at its level. -/
def renewed (h : Handler) (l : Logger) : Logger := { l with level := h.level, handlers := [h] }

theorem graded_graded (r : Rank) (l : Logger) : graded r (graded r l) = graded r l := by
  simp [graded]

/-- A loop whose passes each change the logger of a name, by one change, changes all of them.  What
the change depends on is part of the registries that the passes meet. -/
theorem run_forIn {f : Logger → Logger} {p : Registry → Prop}
    {pass : String → PUnit → Act Float Registry (ForInStep PUnit)}
    (hkeep : ∀ g name, p g → p (g.update name f))
    (hpass : ∀ g name, p g → (pass name ⟨⟩).run g = (.ok (.yield ⟨⟩), g.update name f))
    (names : List String) {g : Registry} (hg : p g) :
    (forIn names PUnit.unit pass).run g = (.ok ⟨⟩, g.updateAll names f) := by
  induction names generalizing g with
  | nil => rfl
  | cons name names ih =>
    rw [List.forIn_cons, run_bind_of_ok (hpass g name hg)]
    exact ih (hkeep g name hg)

theorem run_setLevel (g : Registry) (r : Rank) :
    (setLevel (.rank r)).run g =
      (.ok ⟨⟩, { g.updateAll g.cached (graded r) with defaultLevel := .rank r }) := by
  unfold setLevel
  rw [run_bind_of_ok (run_get g)]
  refine run_bind_of_ok (run_forIn (p := fun _ => True) (fun _ _ _ => trivial) ?_ g.cached trivial)
  intro g name _
  rw [run_bind_of_ok (run_setLoggerLevel g name r)]
  refine congrArg (Except.ok (ForInStep.yield PUnit.unit), ·) ?_
  exact update_update fun _ => rfl

/-- The format that a text given for one stands for, which is the usual one if the text is
empty. -/
def formatGiven (format : String) : String := if format = "" then defaultFormat else format

/-- The registry with settings for loggers to come. -/
def withSettings (g : Registry) (r : Rank) (format stream : String) : Registry :=
  { g with defaultLevel := .rank r, format := formatGiven format, stream := stream }

/-- Settings are recorded before any logger is given them. -/
theorem run_configure_eq (g : Registry) (r : Rank) (format stream : String) :
    (configure (.rank r) (some format) (some stream)).run g =
      (forIn g.cached PUnit.unit fun name _ => do
        setLoggerLevel name (.rank r)
        modify fun g : Registry => g.update name fun l => { l with handlers := [] }
        addHandler name (.rank r)
        pure (ForInStep.yield PUnit.unit)).run (g.withSettings r format stream) := by
  have hgiven : ((some format).filter (· != "")).getD defaultFormat = formatGiven format := by
    unfold formatGiven
    by_cases h : format = "" <;> simp [h, Option.filter]
  unfold configure
  dsimp only
  rw [hgiven, run_bind_of_ok (run_modify _ _), run_bind_of_ok (run_get _), bind_pure_unit]
  rfl

section

variable {format : String}

/-- A logger is emptied before it is given a handler. -/
theorem run_renew {α : Type} (g : Registry) (name : String) (r : Rank)
    (rest : Act Float Registry α) :
    (do
      setLoggerLevel name (.rank r)
      modify fun g : Registry => g.update name fun l => { l with handlers := [] }
      rest).run g = rest.run (g.update name (emptied r)) := by
  rw [run_bind_of_ok (run_setLoggerLevel g name r), run_bind_of_ok (run_modify _ _)]
  exact congrArg rest.run (update_update fun _ => rfl)

/-- Settings whose format can be used are those of one handler for each logger. -/
theorem run_configure (g : Registry) (r : Rank) (stream : String)
    (hformat : Logging.Format.isValid (formatGiven format) = true) :
    (configure (.rank r) (some format) (some stream)).run g =
      (.ok ⟨⟩, (g.withSettings r format stream).updateAll g.cached
        (renewed ⟨r, some (formatGiven format), stream⟩)) := by
  rw [run_configure_eq]
  -- each pass meets the settings that were recorded first
  refine run_forIn
    (p := fun g => g.format = formatGiven format ∧ g.stream = stream) (fun _ _ h => h) ?_ g.cached
    ⟨rfl, rfl⟩
  rintro g name ⟨hg, hstream⟩
  rw [run_renew, run_bind_of_ok (run_addHandler (g := g.update name _) hg hstream hformat)]
  exact congrArg (Except.ok (ForInStep.yield PUnit.unit), ·) (update_update fun _ => rfl)

/-- Settings whose format cannot be used are recorded, and the first logger is left without a
handler; only where there is no logger yet are they not refused. -/
theorem run_configure_refused (g : Registry) (r : Rank) (stream : String)
    (hformat : Logging.Format.isValid (formatGiven format) = false) :
    (configure (.rank r) (some format) (some stream)).run g =
      match g.cached with
      | [] => (.ok ⟨⟩, g.withSettings r format stream)
      | name :: _ =>
        (.error .wrongValue, (g.withSettings r format stream).update name (emptied r)) := by
  rw [run_configure_eq]
  cases g.cached with
  | nil => rfl
  | cons name names =>
    -- the pass for the first logger ends the loop
    rw [List.forIn_cons]
    refine run_bind_of_error ?_
    rw [run_renew]
    exact run_bind_of_error (run_addHandler_refused hformat)

end

/-! ### A logger obtained -/

/-- A full name is its own full name. -/
theorem qualified_qualified (name : Option String) :
    qualified (some (qualified name)) = qualified name := by
  cases name with
  | none => rfl
  | some name =>
    unfold qualified
    dsimp only
    split
    · rfl
    · have hbelow : (packageName ++ ".").isPrefixOf (packageName ++ "." ++ name) = true := by
        refine String.startsWith_string_iff.mpr ?_
        rw [String.toList_append, String.toList_append, String.toList_append]
        exact List.prefix_append _ _
      rw [hbelow, Bool.or_true, if_pos rfl]

section

variable {g : Registry} {r : Rank} {name : Option String}

/-- A logger that was obtained before is the one that there is. -/
theorem run_obtain_cached (hcached : qualified name ∈ g.cached) :
    (obtain name).run g =
      (.ok ((g.find? (qualified name)).getD { name := qualified name }), g) := by
  unfold obtain
  dsimp only
  rw [run_bind_of_ok (run_get g), List.contains_iff_mem.mpr hcached]
  rfl

/-- A logger that was obtained is obtained again by its name. -/
theorem run_obtain_again {l : Logger} (hcached : qualified name ∈ g.cached)
    (hl : g.find? (qualified name) = some l) : (obtain (some l.name)).run g = (.ok l, g) := by
  have hname : qualified (some l.name) = qualified name := by
    rw [name_of_find? hl, qualified_qualified]
  rw [run_obtain_cached (hname ▸ hcached), hname, hl, Option.getD_some]

/-- A logger that has no handler yet. -/
def Bare (g : Registry) (name : String) : Prop := ∀ l, g.find? name = some l → l.handlers = []

theorem Bare.ensure {name : String} (hbare : g.Bare name) :
    ∃ l, (g.ensure name).find? name = some l ∧ l.handlers = [] := by
  refine ⟨_, find?_ensure_self g name, ?_⟩
  cases hl : g.find? name with
  | none => rfl
  | some l => exact hbare l hl

/-- A logger at the level of a handler that it is given, whose records go no further. -/
def joined (h : Handler) (l : Logger) : Logger :=
  { l with level := h.level, handlers := l.handlers ++ [h], propagate := false }

/-- A logger that has no handler yet is made before it is given one. -/
theorem run_obtain_eq (hnew : qualified name ∉ g.cached) (hbare : g.Bare (qualified name))
    (hlevel : g.defaultLevel = .rank r) :
    (obtain name).run g =
      (do
        addHandler (qualified name) (.rank r)
        modify fun g : Registry => g.update (qualified name) fun l => { l with propagate := false }
        modify fun g : Registry => { g with cached := g.cached ++ [qualified name] }
        return ((← get).find? (qualified name)).getD { name := qualified name }).run
      ((g.ensure (qualified name)).update (qualified name) fun l => { l with level := r }) := by
  have hnot : g.cached.contains (qualified name) = false := by
    rw [← Bool.not_eq_true, List.contains_iff_mem]
    exact hnew
  obtain ⟨l, hl, hnone⟩ := hbare.ensure
  -- a logger without handlers is given its level and a handler
  have hempty : l.handlers.isEmpty = true := List.isEmpty_iff.mpr hnone
  have hdefault : (g.ensure (qualified name)).defaultLevel = .rank r :=
    (ensure_keeps (·.defaultLevel) fun _ _ => rfl).trans hlevel
  unfold Registry.obtain
  dsimp only
  rw [run_bind_of_ok (run_get g), hnot]
  refine (run_bind_of_ok (run_modify _ _)).trans ?_
  rw [run_bind_of_ok (run_get _), hl]
  dsimp only
  rw [if_pos hempty, run_bind_of_ok (run_get _), hdefault,
    run_bind_of_ok (run_setLoggerLevel _ _ r)]

/-- A logger that has no handler yet is given one with the settings in force, and is obtained from
then on. -/
theorem run_obtain (hnew : qualified name ∉ g.cached) (hbare : g.Bare (qualified name))
    (hlevel : g.defaultLevel = .rank r) (hformat : Logging.Format.isValid g.format = true) :
    ∃ l, ((g.ensure (qualified name)).update (qualified name)
        (joined ⟨r, some g.format, g.stream⟩)).find? (qualified name) = some l ∧
      (obtain name).run g = (.ok l, { (g.ensure (qualified name)).update (qualified name)
        (joined ⟨r, some g.format, g.stream⟩) with cached := g.cached ++ [qualified name] }) := by
  have hformat' : (g.ensure (qualified name)).format = g.format :=
    ensure_keeps (·.format) fun _ _ => rfl
  have hstream' : (g.ensure (qualified name)).stream = g.stream :=
    ensure_keeps (·.stream) fun _ _ => rfl
  have hcached' : (g.ensure (qualified name)).cached = g.cached :=
    ensure_keeps (·.cached) fun _ _ => rfl
  -- level, handler and no propagation come to one change of the logger
  have hjoined : (((g.ensure (qualified name)).update (qualified name)
        fun l => { l with level := r }).update (qualified name)
        fun l => { l with handlers := l.handlers ++ [⟨r, some g.format, g.stream⟩] }).update
        (qualified name) (fun l => { l with propagate := false }) =
      (g.ensure (qualified name)).update (qualified name)
        (joined ⟨r, some g.format, g.stream⟩) := by
    rw [update_update, update_update]
    · rfl
    all_goals exact fun _ => rfl
  obtain ⟨l, hl, -⟩ := hbare.ensure
  have hfound := find?_update_ensure_self (f := joined ⟨r, some g.format, g.stream⟩)
    (fun _ => rfl) hl
  refine ⟨_, hfound, ?_⟩
  rw [run_obtain_eq hnew hbare hlevel,
    run_bind_of_ok (run_addHandler (g := update _ _ _) hformat' hstream' hformat),
    run_bind_of_ok (run_modify _ _), hjoined, run_bind_of_ok (run_modify _ _),
    run_bind_of_ok (run_get _), run_pure]
  refine Prod.ext (congrArg (fun o => Except.ok (Option.getD o _)) hfound) ?_
  exact congrArg (fun cached => ({ (g.ensure (qualified name)).update (qualified name)
    (joined ⟨r, some g.format, g.stream⟩) with cached := cached ++ [qualified name] } : Registry))
    hcached'

/-- A logger that would be made with a format that cannot be used is not obtained. -/
theorem run_obtain_refused (hnew : qualified name ∉ g.cached) (hbare : g.Bare (qualified name))
    (hlevel : g.defaultLevel = .rank r) (hformat : Logging.Format.isValid g.format = false) :
    (obtain name).run g =
      (.error .wrongValue,
        (g.ensure (qualified name)).update (qualified name) fun l => { l with level := r }) := by
  rw [run_obtain_eq hnew hbare hlevel]
  refine run_bind_of_error (run_addHandler_refused ?_)
  exact (congrArg _ (ensure_keeps (·.format) fun _ _ => rfl)).trans hformat

end

end Registry

end Descent
