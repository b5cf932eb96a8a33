import Descent.Proofs.Logging.Loggers

/-!
# Loggers under the settings in force

Loggers are obtained, and their level, format and stream are set, by calls that may come in any
order (`Registry.Call`).  `Registry.served` says what a sequence of calls comes to, beginning with
no logger at all, and `Registry.inForce` what it has set last.

As long as the format in force is one that can be used, every logger that was returned follows the
settings in force, whether it was made before they were set or after (`Registry.Uniform`).  A format
that cannot be used is refused only where a handler is made of it, when the settings are recorded
and the first of the loggers has lost its handler.  This logger is left without one, and no further
logger can be obtained, until another format is set.  So the loggers are uniform exactly while the
format in force can be used, or while there are none (`Registry.served_uniform_iff`).

What the calls keep is `Registry.Sound`, by one lemma for each kind of call.
-/

namespace Descent

open Act

/-! ### Settings -/

namespace Logging

/-- What is in force for all loggers. -/
structure Settings where
  level : Int := warningLevel.number
  format : String := defaultFormat
  stream : String := defaultStream

namespace Settings

/-- The format can be used. -/
def Usable (s : Settings) : Prop := Format.isValid s.format = true

/-- The level in force. -/
def rank (s : Settings) : Rank := ⟨s.level, false⟩

/-- The handler with the settings. -/
def handler (s : Settings) : Handler := ⟨s.rank, some s.format, s.stream⟩

end Settings

end Logging

open Logging (Settings)

/-- The logger is at the level of the settings and has one handler, which has them too, and its
records go no further. -/
structure Logger.Follows (l : Logger) (s : Settings) : Prop where
  level : l.level = s.rank
  handlers : l.handlers = [s.handler]
  propagate : l.propagate = false

namespace Registry

/-! ### Calls -/

/-- A level as it is given, with the number that it stands for. -/
structure Grade where
  value : Value Float
  number : Int
  stands : Level.StandsFor value number

/-- A call: a logger is obtained, the level is set, or all settings are. -/
inductive Call where
  | obtain (name : Option String)
  | setLevel (level : Grade)
  | configure (level : Grade) (format stream : String)

namespace Call

/-- What a call does; one that obtains a logger answers with it. -/
def act : Call → Act Float Registry (Option Logger)
  | obtain name => do return some (← Registry.obtain name)
  | setLevel level => do
    Registry.setLevel (Level.ofValue level.value)
    return none
  | configure level format stream => do
    Registry.configure (Level.ofValue level.value) (some format) (some stream)
    return none

/-- The names of the loggers that a call has returned. -/
def returned : Except (Fault Float) (Option Logger) → List String
  | .ok (some l) => [l.name]
  | _ => []

/-- The settings after a call. -/
def settle (s : Settings) : Call → Settings
  | obtain _ => s
  | setLevel level => { s with level := level.number }
  | configure level format stream => ⟨level.number, formatGiven format, stream⟩

end Call

/-- A registry with the names of the loggers that were returned so far. -/
structure Served where
  registry : Registry := {}
  returned : List String := []

/-- One call more, which may be refused. -/
def Served.serve (t : Served) (c : Call) : Served :=
  let (r, g) := c.act.run t.registry
  ⟨g, t.returned ++ Call.returned r⟩

/-- What calls come to, one after the other. -/
def served (calls : List Call) : Served := calls.foldl Served.serve {}

/-- What calls have set last. -/
def inForce (calls : List Call) : Settings := calls.foldl Call.settle {}

theorem serve_of_run {t : Served} {c : Call} {r : Except (Fault Float) (Option Logger)}
    {g : Registry} (h : c.act.run t.registry = (r, g)) :
    t.serve c = ⟨g, t.returned ++ Call.returned r⟩ := by
  unfold Served.serve
  rw [h]

theorem serve_of_run_nothing {t : Served} {c : Call} {r : Except (Fault Float) (Option Logger)}
    {g : Registry} (h : c.act.run t.registry = (r, g)) (hr : Call.returned r = []) :
    t.serve c = ⟨g, t.returned⟩ := by
  rw [serve_of_run h, hr, List.append_nil]

/-! ### What the calls keep -/

/-- A logger that was returned is one of those obtained from the library, which all follow the
settings if their format can be used, while the first of them has no handler if it cannot.  A logger
that was not obtained yet has no handler. -/
structure Sound (t : Served) (s : Settings) : Prop where
  level_pos : 0 < s.level
  defaultLevel : t.registry.defaultLevel = .rank s.rank
  format : t.registry.format = s.format
  stream : t.registry.stream = s.stream
  returned : ∀ name, name ∈ t.returned ↔ name ∈ t.registry.cached
  first : t.returned.head? = t.registry.cached.head?
  made : ∀ name ∈ t.registry.cached, ∃ l, t.registry.find? name = some l ∧ l.propagate = false ∧
    (s.Usable → l.Follows s)
  bare : ∀ name ∉ t.registry.cached, t.registry.Bare name
  stripped : ¬s.Usable → ∀ name, t.registry.cached.head? = some name → t.registry.Bare name

theorem sound_empty : Sound {} {} where
  level_pos := by decide
  defaultLevel := rfl
  format := rfl
  stream := rfl
  returned := fun _ => .rfl
  first := rfl
  made := nofun
  bare := nofun
  stripped := nofun

section

variable {t : Served} {s : Settings}

/-- A change of loggers, each by itself, along with the settings. -/
theorem Sound.change {s' : Settings} {g : Registry} {f : Logger → Logger} (h : Sound t s)
    (hfind : ∀ name, g.find? name = (t.registry.find? name).map f)
    (hcached : g.cached = t.registry.cached) (hpos : 0 < s'.level)
    (hlevel : g.defaultLevel = .rank s'.rank) (hformat : g.format = s'.format)
    (hstream : g.stream = s'.stream)
    (hmade : ∀ l, l.name ∈ t.registry.cached → l.propagate = false → (s.Usable → l.Follows s) →
      (f l).propagate = false ∧ (s'.Usable → (f l).Follows s'))
    (hbare : ∀ l, l.name ∉ t.registry.cached → l.handlers = [] → (f l).handlers = [])
    (hempty : ¬s'.Usable → ∀ l, t.registry.cached.head? = some l.name →
      (¬s.Usable → l.handlers = []) → (f l).handlers = []) :
    Sound ⟨g, t.returned⟩ s' where
  level_pos := hpos
  defaultLevel := hlevel
  format := hformat
  stream := hstream
  returned := hcached ▸ h.returned
  first := hcached ▸ h.first
  made := by
    intro name hname
    have hname' : name ∈ t.registry.cached := hcached ▸ hname
    obtain ⟨l, hl, hprop, hfollows⟩ := h.made name hname'
    obtain rfl := name_of_find? hl
    exact ⟨f l, by rw [hfind, hl, Option.map_some], hmade l hname' hprop hfollows⟩
  bare := by
    intro name hname l' hl'
    rw [hfind] at hl'
    obtain ⟨l, hl, rfl⟩ := Option.map_eq_some_iff.mp hl'
    obtain rfl := name_of_find? hl
    have hname' : l.name ∉ t.registry.cached := hcached ▸ hname
    exact hbare l hname' (h.bare _ hname' l hl)
  stripped := by
    intro hs' name hhead l' hl'
    rw [hfind] at hl'
    obtain ⟨l, hl, rfl⟩ := Option.map_eq_some_iff.mp hl'
    obtain rfl := name_of_find? hl
    have hhead' : t.registry.cached.head? = some l.name := hcached ▸ hhead
    exact hempty hs' l hhead' fun hs => h.stripped hs _ hhead' l hl

theorem Sound.setLevel (h : Sound t s) (level : Grade) :
    Sound (t.serve (.setLevel level)) { s with level := level.number } := by
  have hrun := run_setLevel t.registry ⟨level.number, false⟩
  rw [← level.stands.ofValue] at hrun
  rw [serve_of_run_nothing (run_bind_of_ok hrun) rfl]
  refine h.change (find?_updateAll (f := graded ⟨level.number, false⟩) (fun _ => rfl)
      (graded_graded _) _ _)
    (updateAll_keeps (·.cached) fun _ _ => rfl) level.stands.pos level.stands.ofValue
    ((updateAll_keeps (·.format) fun _ _ => rfl).trans h.format)
    ((updateAll_keeps (·.stream) fun _ _ => rfl).trans h.stream) ?_ ?_ ?_
  · -- a logger that was made before has its level and that of its handlers changed
    intro l hl hprop hfollows
    rw [if_pos hl]
    refine ⟨hprop, fun hs => ⟨rfl, ?_, hprop⟩⟩
    rw [graded, (hfollows hs).handlers]
    rfl
  · -- any other is left alone
    intro l hl hnone
    rw [if_neg hl, hnone]
  · intro hs l hhead hnone
    rw [if_pos (List.mem_of_mem_head? hhead), graded, hnone hs]
    rfl

theorem Sound.configure (h : Sound t s) (level : Grade) (format stream : String) :
    Sound (t.serve (.configure level format stream))
      ⟨level.number, formatGiven format, stream⟩ := by
  cases hformat : Logging.Format.isValid (formatGiven format) with
  | true =>
    have hrun := run_configure t.registry ⟨level.number, false⟩ stream hformat
    rw [← level.stands.ofValue] at hrun
    rw [serve_of_run_nothing (run_bind_of_ok hrun) rfl]
    refine h.change (find?_updateAll (f := renewed ⟨⟨level.number, false⟩, _, stream⟩)
        (fun _ => rfl) (fun _ => rfl) _ _)
      (updateAll_keeps (·.cached) fun _ _ => rfl) level.stands.pos
      (updateAll_keeps (·.defaultLevel) fun _ _ => rfl)
      (updateAll_keeps (·.format) fun _ _ => rfl)
      (updateAll_keeps (·.stream) fun _ _ => rfl) ?_ ?_ ?_
    · intro l hl hprop _
      rw [if_pos hl]
      exact ⟨hprop, fun _ => ⟨rfl, rfl, hprop⟩⟩
    · intro l hl hnone
      rw [if_neg hl, hnone]
    · exact fun hs => absurd hformat hs
  | false =>
    have hunusable : ¬Settings.Usable ⟨level.number, formatGiven format, stream⟩ := by
      rw [Settings.Usable, hformat]
      exact Bool.false_ne_true
    have hrun := run_configure_refused t.registry ⟨level.number, false⟩ stream hformat
    rw [← level.stands.ofValue] at hrun
    cases hcached : t.registry.cached with
    | nil =>
      -- no handler is made, so nothing is refused yet
      rw [hcached] at hrun
      rw [serve_of_run_nothing (run_bind_of_ok hrun) rfl]
      refine h.change (f := id) (fun name => (congrFun Option.map_id _).symm) rfl level.stands.pos
        rfl rfl rfl ?_ (fun _ _ hnone => hnone) ?_
      · exact fun l _ hprop _ => ⟨hprop, fun hs => absurd hs hunusable⟩
      · exact fun _ l hhead => nomatch hcached ▸ hhead
    | cons name names =>
      -- the first logger has lost its handler, and the others are as they were
      rw [hcached] at hrun
      rw [serve_of_run_nothing (run_bind_of_error hrun) rfl]
      refine h.change (find?_update (f := emptied ⟨level.number, false⟩) (fun _ => rfl) _ name)
        rfl level.stands.pos rfl rfl rfl ?_ ?_ ?_
      · intro l _ hprop _
        refine ⟨?_, fun hs => absurd hs hunusable⟩
        split
        · exact hprop
        · exact hprop
      · intro l _ hnone
        split
        · rfl
        · exact hnone
      · intro _ l hhead _
        rw [hcached, List.head?_cons, Option.some.injEq] at hhead
        rw [if_pos (beq_iff_eq.mpr hhead.symm)]
        rfl

/-- A logger that was obtained before is returned once more. -/
theorem Sound.again {name : String} (h : Sound t s) (hname : name ∈ t.registry.cached) :
    Sound ⟨t.registry, t.returned ++ [name]⟩ s where
  level_pos := h.level_pos
  defaultLevel := h.defaultLevel
  format := h.format
  stream := h.stream
  returned := by
    intro other
    rw [List.mem_append, List.mem_singleton, h.returned]
    exact ⟨fun hor => hor.elim id fun heq => heq ▸ hname, .inl⟩
  first := by
    have hsome : t.registry.cached.head? ≠ none := by
      rw [Ne, List.head?_eq_none_iff]
      exact List.ne_nil_of_mem hname
    rw [List.head?_append, h.first]
    exact Option.or_of_isSome (Option.isSome_iff_ne_none.mpr hsome)
  made := h.made
  bare := h.bare
  stripped := h.stripped

/-- A logger that was not obtained before is made with the settings in force and returned. -/
theorem Sound.fresh {name : String} {g : Registry} {l : Logger} (h : Sound t s) (hs : s.Usable)
    (hself : g.find? name = some l) (hfollows : l.Follows s)
    (hother : ∀ other, other ≠ name → g.find? other = t.registry.find? other)
    (hcached : g.cached = t.registry.cached ++ [name])
    (hlevel : g.defaultLevel = t.registry.defaultLevel)
    (hformat : g.format = t.registry.format) (hstream : g.stream = t.registry.stream) :
    Sound ⟨g, t.returned ++ [name]⟩ s where
  level_pos := h.level_pos
  defaultLevel := hlevel.trans h.defaultLevel
  format := hformat.trans h.format
  stream := hstream.trans h.stream
  returned := by
    intro other
    rw [hcached, List.mem_append, List.mem_append, h.returned]
  first := by
    rw [hcached, List.head?_append, List.head?_append, h.first]
  made := by
    intro other hmem
    -- the new logger follows the settings, and the others are as they were
    by_cases hne : other = name
    · subst hne
      exact ⟨l, hself, hfollows.propagate, fun _ => hfollows⟩
    · have hmem' : other ∈ t.registry.cached := by simpa [hcached, hne] using hmem
      obtain ⟨l', hl', hmade⟩ := h.made other hmem'
      exact ⟨l', (hother other hne).trans hl', hmade⟩
  bare := by
    intro other hmem l' hl'
    obtain ⟨hmem', hne⟩ : other ∉ t.registry.cached ∧ other ≠ name := by simpa [hcached] using hmem
    exact h.bare other hmem' l' ((hother other hne).symm.trans hl')
  stripped := fun hnot => absurd hs hnot

/-- A logger that would be made with a format that cannot be used has no handler. -/
theorem Sound.barely {name : String} {g : Registry} (h : Sound t s)
    (hname : name ∉ t.registry.cached) (hbare : g.Bare name)
    (hother : ∀ other, other ≠ name → g.find? other = t.registry.find? other)
    (hcached : g.cached = t.registry.cached) (hlevel : g.defaultLevel = t.registry.defaultLevel)
    (hformat : g.format = t.registry.format) (hstream : g.stream = t.registry.stream) :
    Sound ⟨g, t.returned⟩ s where
  level_pos := h.level_pos
  defaultLevel := hlevel.trans h.defaultLevel
  format := hformat.trans h.format
  stream := hstream.trans h.stream
  returned := hcached ▸ h.returned
  first := hcached ▸ h.first
  made := by
    intro other hmem
    have hmem' : other ∈ t.registry.cached := hcached ▸ hmem
    rw [hother other fun heq => hname (heq ▸ hmem')]
    exact h.made other hmem'
  bare := by
    intro other hmem
    by_cases hne : other = name
    · exact hne ▸ hbare
    · intro l' hl'
      exact h.bare other (hcached ▸ hmem) l' ((hother other hne).symm.trans hl')
  stripped := by
    intro hnot other hhead l' hl'
    have hhead' : t.registry.cached.head? = some other := hcached ▸ hhead
    -- the first logger was made before, so it is another one
    have hne : other ≠ name := fun heq => hname (heq ▸ List.mem_of_mem_head? hhead')
    exact h.stripped hnot other hhead' l' ((hother other hne).symm.trans hl')

theorem Sound.obtain (h : Sound t s) (name : Option String) :
    Sound (t.serve (.obtain name)) s := by
  by_cases hname : qualified name ∈ t.registry.cached
  · obtain ⟨l, hl, -⟩ := h.made _ hname
    have hrun := run_obtain_cached hname
    rw [hl, Option.getD_some] at hrun
    rw [serve_of_run (c := .obtain name) (run_bind_of_ok hrun)]
    exact (name_of_find? hl ▸ h.again hname :)
  have hbare := h.bare _ hname
  obtain ⟨l, hl, hnone⟩ := hbare.ensure
  cases hformat : Logging.Format.isValid t.registry.format with
  | true =>
    obtain ⟨l', hl', hrun⟩ := run_obtain hname hbare h.defaultLevel hformat
    rw [serve_of_run (c := .obtain name) (run_bind_of_ok hrun)]
    have hs : s.Usable := (congrArg _ h.format.symm).trans hformat
    have hself := find?_update_ensure_self (f := joined ⟨s.rank, some t.registry.format,
      t.registry.stream⟩) (fun _ => rfl) hl
    have hfollows : (joined ⟨s.rank, some t.registry.format, t.registry.stream⟩ l).Follows s := by
      refine ⟨rfl, ?_, rfl⟩
      rw [joined, hnone, h.format, h.stream]
      rfl
    rw [Call.returned, name_of_find? hl']
    exact h.fresh hs hself hfollows (fun other hne => find?_update_ensure_of_ne (fun _ => rfl) hne)
      rfl (ensure_keeps (·.defaultLevel) fun _ _ => rfl)
      (ensure_keeps (·.format) fun _ _ => rfl) (ensure_keeps (·.stream) fun _ _ => rfl)
  | false =>
    -- the logger is there from now on, without a handler, but was not returned
    have hrun := run_obtain_refused hname hbare h.defaultLevel hformat
    rw [serve_of_run_nothing (c := .obtain name) (run_bind_of_error hrun) rfl]
    refine h.barely hname (fun l' hl' => ?_)
      (fun other hne => find?_update_ensure_of_ne (fun _ => rfl) hne)
      (ensure_keeps (·.cached) fun _ _ => rfl) (ensure_keeps (·.defaultLevel) fun _ _ => rfl)
      (ensure_keeps (·.format) fun _ _ => rfl) (ensure_keeps (·.stream) fun _ _ => rfl)
    have hl'' := find?_update_ensure_self (f := fun l => { l with level := s.rank })
      (fun _ => rfl) hl
    obtain rfl := Option.some.inj (hl''.symm.trans hl')
    exact hnone

theorem Sound.obtain_again {name : Option String} {l : Logger} {g : Registry} (h : Sound t s)
    (hrun : (Registry.obtain name).run t.registry = (.ok l, g)) :
    (Registry.obtain (some l.name)).run g = (.ok l, g) := by
  by_cases hname : qualified name ∈ t.registry.cached
  · obtain ⟨l', hl', -⟩ := h.made _ hname
    rw [run_obtain_cached hname, hl', Option.getD_some] at hrun
    cases hrun
    exact run_obtain_again hname hl'
  have hbare := h.bare _ hname
  cases hformat : Logging.Format.isValid t.registry.format with
  | true =>
    obtain ⟨l', hl', hnew⟩ := run_obtain hname hbare h.defaultLevel hformat
    rw [hnew] at hrun
    cases hrun
    exact run_obtain_again (List.mem_append_right _ (List.mem_singleton_self _)) hl'
  | false =>
    rw [run_obtain_refused hname hbare h.defaultLevel hformat] at hrun
    exact nomatch hrun

/-- One call more. -/
theorem Sound.serve (h : Sound t s) : ∀ c : Call, Sound (t.serve c) (c.settle s)
  | .obtain name => h.obtain name
  | .setLevel level => h.setLevel level
  | .configure level format stream => h.configure level format stream

end

/-- All calls, by induction on those made so far. -/
theorem sound_served (calls : List Call) : Sound (served calls) (inForce calls) := by
  have hfrom : ∀ t s, Sound t s →
      Sound (calls.foldl Served.serve t) (calls.foldl Call.settle s) := by
    induction calls with
    | nil => exact fun _ _ h => h
    | cons c calls ih => exact fun _ _ h => ih _ _ (h.serve c)
  exact hfrom {} {} sound_empty

/-! ### Loggers and what they write -/

/-- Every logger that was returned follows the settings, and what it writes for a record is one line
to the stream in force, as long as the record reaches the level in force. -/
def Uniform (t : Served) (s : Settings) : Prop :=
  ∀ name ∈ t.returned,
    (∃ l, t.registry.find? name = some l ∧ l.Follows s) ∧
    ∀ r : LogRecord, r.logger = name → t.registry.written r =
      if s.level ≤ r.level.number then [(s.stream, s.handler.write r)] else []

/-- A logger that follows settings of a positive level writes at this level. -/
theorem written_of_follows {g : Registry} {s : Settings} {l : Logger} {r : LogRecord}
    (hl : g.find? r.logger = some l) (hfollows : l.Follows s) (hpos : 0 < s.level) :
    g.written r = if s.level ≤ r.level.number then [(s.stream, s.handler.write r)] else [] := by
  have hlevel : l.level.number = s.level := congrArg Rank.number hfollows.level
  have heffective : effectiveLevel (g.chain l) = s.level := by
    rw [chain, effectiveLevel, if_neg (by omega), hlevel]
  unfold written
  rw [hl]
  dsimp only
  rw [heffective]
  by_cases hreach : s.level ≤ r.level.number
  · have hhandler : s.handler.level.number ≤ r.level.number := hreach
    rw [if_pos hreach, if_pos ⟨by omega, hreach⟩, chain, emit, hfollows.handlers,
      hfollows.propagate,
      List.filter_cons_of_pos (p := fun h : Handler => decide (h.level.number ≤ r.level.number))
        (decide_eq_true hhandler)]
    rfl
  · rw [if_neg hreach, if_neg fun h => hreach h.2]

/-- **The loggers that were returned all follow the settings in force, whenever they were made,
exactly while the format in force can be used or there are none.**  While it cannot be used, the
first of them has no handler, and a logger that was not returned before is not obtained.  To obtain
a logger by its full name is to obtain the same one again. -/
theorem served_uniform_iff (calls : List Call) :
    (Uniform (served calls) (inForce calls) ↔
      (served calls).returned = [] ∨ (inForce calls).Usable) ∧
    (¬(inForce calls).Usable →
      (∀ name, (served calls).returned.head? = some name →
        ∃ l, (served calls).registry.find? name = some l ∧ l.handlers = []) ∧
      ∀ name, qualified name ∉ (served calls).returned →
        ((obtain name).run (served calls).registry).1 = .error .wrongValue) ∧
    ∀ name l g, (obtain name).run (served calls).registry = (.ok l, g) →
      (obtain (some l.name)).run g = (.ok l, g) := by
  -- that the calls lead to something sound is all that is needed of them
  have hsound := sound_served calls
  generalize served calls = t at hsound ⊢
  generalize inForce calls = s at hsound ⊢
  have hhead : ¬s.Usable → ∀ name, t.returned.head? = some name →
      ∃ l, t.registry.find? name = some l ∧ l.handlers = [] := by
    intro hs name hname
    have hcached : t.registry.cached.head? = some name := hsound.first ▸ hname
    obtain ⟨l, hl, -⟩ := hsound.made name (List.mem_of_mem_head? hcached)
    exact ⟨l, hl, hsound.stripped hs name hcached l hl⟩
  refine ⟨⟨fun huniform => ?_, ?_⟩, fun hs => ⟨hhead hs, fun name hname => ?_⟩,
    fun name l g h => ?_⟩
  · cases hreturned : t.returned with
    | nil => exact .inl rfl
    | cons name names =>
      -- the first one that was returned would have a handler and have none
      refine .inr (Classical.byContradiction fun hs => ?_)
      obtain ⟨l, hl, hnone⟩ := hhead hs name (by rw [hreturned, List.head?_cons])
      obtain ⟨⟨l', hl', hfollows⟩, -⟩ := huniform name (by rw [hreturned]; exact List.mem_cons_self)
      obtain rfl := Option.some.inj (hl.symm.trans hl')
      exact nomatch hnone.symm.trans hfollows.handlers
  · rintro hor name hname
    have hcached := (hsound.returned name).mp hname
    obtain ⟨l, hl, -, hfollows⟩ := hsound.made name hcached
    have hs : s.Usable := hor.resolve_left (List.ne_nil_of_mem hname)
    refine ⟨⟨l, hl, hfollows hs⟩, fun r hr => ?_⟩
    exact written_of_follows (hr ▸ hl) (hfollows hs) hsound.level_pos
  · have hcached : qualified name ∉ t.registry.cached := fun h => hname ((hsound.returned _).mpr h)
    have hformat : Logging.Format.isValid t.registry.format = false := by
      rw [hsound.format, ← Bool.not_eq_true]
      exact hs
    rw [run_obtain_refused hcached (hsound.bare _ hcached) hsound.defaultLevel hformat]
  · exact hsound.obtain_again h

/-- A logger that was returned before a format without a field is set has no handler after it, and
no further one is obtained. -/
theorem served_plain :
    let calls : List Call :=
      [.obtain (some "core.executor"),
        .configure ⟨.int 10, 10, .number (by decide)⟩ "plain" "stderr"]
    ¬Uniform (served calls) (inForce calls) ∧
    (∃ l, (served calls).registry.find? "iterconduit.core.executor" = some l ∧
      l.handlers = []) ∧
    ((obtain (some "core.observers")).run (served calls).registry).1 = .error .wrongValue := by
  intro calls
  have hreturned : (served calls).returned = ["iterconduit.core.executor"] := by decide +kernel
  -- a format without a field is refused
  have hunusable : ¬(inForce calls).Usable := by
    show ¬Logging.Format.isValid "plain" = true
    decide +kernel
  obtain ⟨huniform, hrefused, -⟩ := served_uniform_iff calls
  have hnone : (served calls).returned ≠ [] := by
    rw [hreturned]
    exact List.cons_ne_nil _ _
  obtain ⟨hempty, hobtain⟩ := hrefused hunusable
  refine ⟨fun h => (huniform.mp h).elim hnone hunusable, hempty _ ?_, hobtain _ ?_⟩
  · rw [hreturned, List.head?_cons]
  · rw [hreturned]
    decide +kernel

end Registry

end Descent
