import Descent.Proofs.Document.Saved

/-!
# Checkpoints and saves that fail

A save empties its path before it knows whether the state can be written, so what was there is gone
whether it succeeds or not.  It ends in one of four ways (`Store.Saving`): the state has no document
or the indentation no layout, and the path stays empty; a value is refused, and the path holds less
than the text of the document; or the path holds all of it.

What a save that succeeds has left is read as the document of the state, if the strings and keys of
the state are kept by text (`State.Kept`), so loading it has the outcome of reading the document
(`Store.exists_saving`).
-/

namespace Descent

variable {V M : Type}

/-! ### Saving -/

namespace Store

variable {codec : ArrayCodec V M} {path text : String} {indent : Value Float}
  {s : State Float V M} {doc : Document} {layout : Json.Layout} {f : Fault Float}

/-- What a save ends with and leaves at its path. -/
inductive Saving (codec : ArrayCodec V M) (indent : Value Float) (s : State Float V M) :
    Except (Fault Float) Unit → String → Prop where
  /-- The state has no document. -/
  | notEncoded {f : Fault Float} (h : Document.encodeState codec s = .error f) :
      Saving codec indent s (.error f) ""
  /-- The indentation has no layout. -/
  | notLaidOut {doc : Document} {f : Fault Float} (h : Document.encodeState codec s = .ok doc)
      (hindent : Json.Layout.ofIndent indent = .error f) : Saving codec indent s (.error f) ""
  /-- A value is refused, and less than the text of the document is there. -/
  | refused {doc : Document} {layout : Json.Layout} {part rest : String}
      (h : Document.encodeState codec s = .ok doc)
      (hindent : Json.Layout.ofIndent indent = .ok layout) (hdoc : Json.isWritable doc = false)
      (htext : Json.print layout 0 doc = part ++ rest) (hrest : rest ≠ "") :
      Saving codec indent s (.error .wrongValue) part
  /-- The text of the document is there. -/
  | written {doc : Document} {layout : Json.Layout} (h : Document.encodeState codec s = .ok doc)
      (hindent : Json.Layout.ofIndent indent = .ok layout) (hdoc : Json.isWritable doc = true) :
      Saving codec indent s (.ok ()) (Json.print layout 0 doc)

theorem write_self (store : Store) (path text : String) :
    store.write path text path = some text := if_pos rfl

theorem write_write (store : Store) (path text text' : String) :
    (store.write path text).write path text' = store.write path text' := by
  funext p
  unfold write
  split <;> rfl

theorem run_save_of_encodeState (h : Document.encodeState codec s = .error f) (store : Store) :
    (save codec path indent s).run store = (.error f, store.write path "") := by
  unfold save
  rw [Act.run_bind_of_ok (Act.run_modify _ _), h]
  exact Act.run_bind_of_error (Act.run_lift _ _)

theorem run_save_of_ofIndent (h : Document.encodeState codec s = .ok doc)
    (hindent : Json.Layout.ofIndent indent = .error f) (store : Store) :
    (save codec path indent s).run store = (.error f, store.write path "") := by
  unfold save
  rw [Act.run_bind_of_ok (Act.run_modify _ _), h, Act.run_bind_of_ok (Act.run_lift _ _), hindent]
  exact Act.run_bind_of_error (Act.run_lift _ _)

/-- A document is written into the path that was emptied. -/
theorem run_save_of_stream (h : Document.encodeState codec s = .ok doc)
    (hindent : Json.Layout.ofIndent indent = .ok layout) {result : Except (Fault Float) Unit}
    (hstream : (Json.stream layout 0 "" doc).run "" = (result, text)) (store : Store) :
    (save codec path indent s).run store = (result, store.write path text) := by
  unfold save
  rw [Act.run_bind_of_ok (Act.run_modify _ _), h, Act.run_bind_of_ok (Act.run_lift _ _), hindent,
    Act.run_bind_of_ok (Act.run_lift _ _), Act.run_zoom, write_self, Option.getD_some, hstream,
    write_write]

theorem run_save_of_isWritable (h : Document.encodeState codec s = .ok doc)
    (hindent : Json.Layout.ofIndent indent = .ok layout) (hdoc : Json.isWritable doc = true)
    (store : Store) :
    (save codec path indent s).run store =
      (.ok (), store.write path (Json.print layout 0 doc)) := by
  have hwrites := Json.writes_stream layout 0 "" doc ""
  rw [hdoc, if_pos rfl, String.empty_append, String.empty_append] at hwrites
  exact run_save_of_stream h hindent hwrites store

/-- How a save ends and what it leaves at its path do not depend on what was there, and nothing
else changes. -/
theorem exists_run_save (codec : ArrayCodec V M) (path : String) (indent : Value Float)
    (s : State Float V M) :
    ∃ result text, Saving codec indent s result text ∧
      ∀ store, (save codec path indent s).run store = (result, store.write path text) := by
  cases h : Document.encodeState codec s with
  | error f => exact ⟨_, _, .notEncoded h, run_save_of_encodeState h⟩
  | ok doc =>
    cases hindent : Json.Layout.ofIndent indent with
    | error f => exact ⟨_, _, .notLaidOut h hindent, run_save_of_ofIndent h hindent⟩
    | ok layout =>
      cases hdoc : Json.isWritable doc with
      | true => exact ⟨_, _, .written h hindent hdoc, run_save_of_isWritable h hindent hdoc⟩
      | false =>
        have hwrites := Json.writes_stream layout 0 "" doc ""
        rw [hdoc, if_neg (by decide), String.empty_append] at hwrites
        obtain ⟨part, rest, htext, hrest, hrun⟩ := hwrites
        rw [String.empty_append] at hrun
        exact ⟨_, _, .refused h hindent hdoc htext hrest, run_save_of_stream h hindent hrun⟩

theorem run_save_of_saving (h : Saving codec indent s (.ok ()) text) (store : Store) :
    (save codec path indent s).run store = (.ok (), store.write path text) := by
  cases h with
  | written h hindent hdoc => exact run_save_of_isWritable h hindent hdoc store

theorem saving_of_render (h : render codec indent s = .ok text) :
    Saving codec indent s (.ok ()) text := by
  obtain ⟨doc, hdoc, h⟩ := Act.bind_eq_ok.mp h
  obtain ⟨layout, hindent, h⟩ := Act.bind_eq_ok.mp h
  rw [Json.printed_eq] at h
  split at h
  · rename_i hwritable
    cases h
    exact .written hdoc hindent hwritable
  · cases h

/-! ### Loading -/

theorem run_load (store : Store) :
    (load codec path).run (store.write path text) = (parse codec text, store.write path text) := by
  unfold load
  rw [Act.run_bind_of_ok (Act.run_get _), write_self]
  exact Act.run_lift _ _

/-- The document of a state has fields. -/
theorem exists_fields_of_encodeState (codec : ArrayCodec V M) (s : State Float V M) :
    Act.Returns (fun doc => ∃ f fs, doc = .object (f :: fs)) (Document.encodeState codec s) := by
  unfold Document.encodeState
  iterate 13 refine .next fun _ => ?_
  rcases s.time with _ | t <;> exact .next fun _ => .ok ⟨_, _, rfl⟩

/-- Some text is written for the document of a state. -/
theorem print_ne_empty (h : Document.encodeState codec s = .ok doc) (layout : Json.Layout) :
    Json.print layout 0 doc ≠ "" := by
  obtain ⟨f, fs, rfl⟩ := exists_fields_of_encodeState codec s doc h
  intro hempty
  have hmark := congrArg String.toList hempty
  rw [Json.print_object (List.cons_ne_nil f fs)] at hmark
  cases hmark

/-- Lines that begin with a letter are not read. -/
theorem parse_lettered (h : Document.encodeState codec s = .ok doc) :
    parse codec (Json.print (.indented "x") 0 doc) = .error .malformedText := by
  obtain ⟨f, fs, rfl⟩ := exists_fields_of_encodeState codec s doc h
  unfold parse Json.read
  rw [Json.print_object (List.cons_ne_nil f fs)]
  rfl

theorem run_load_empty (store : Store) :
    (load codec path).run (store.write path "") =
      (.error .malformedText, store.write path "") :=
  run_load store

/-- What a save that succeeds leaves is loaded as the document of the state is read. -/
theorem run_load_of_saving (h : Saving codec indent s (.ok ()) text)
    (hunit : ∀ unit, indent = .text unit → ∀ c ∈ unit.toList, Json.isSpace c = true)
    (hs : s.Kept codec) (store : Store) :
    (load codec path).run (store.write path text) =
      (Document.encodeState codec s >>= Document.decodeState codec, store.write path text) := by
  cases h with
  | @written doc layout h hindent hdoc =>
    have hlegible := Json.legible_of_kept doc hdoc (Document.kept_encodeState hs doc h)
    have hread := Json.read_print (Json.Layout.isBlank_of_ofIndent hindent hunit) hlegible
    rw [run_load, parse, hread, h]

/-- **A save leaves nothing of what was at its path.**  It ends with the same result, and leaves the
same text, whatever was there, and changes no other path: a save that fails leaves nothing, or less
than the text of the new document.  If it succeeds, the path is loaded with the outcome of reading
the document of the state, be that the state or a fault; the indentation must be of white space, and
text must keep the strings of the state. -/
theorem exists_saving (codec : ArrayCodec V M) (path : String) (indent : Value Float)
    (s : State Float V M) :
    ∃ result text, Saving codec indent s result text ∧
      (∀ store : Store, (save codec path indent s).run store = (result, store.write path text)) ∧
      (result = .ok () →
        (∀ unit, indent = .text unit → ∀ c ∈ unit.toList, Json.isSpace c = true) →
        s.Kept codec → ∀ store : Store, (load codec path).run (store.write path text) =
          (Document.encodeState codec s >>= Document.decodeState codec,
            store.write path text)) := by
  obtain ⟨result, text, hsaving, hrun⟩ := exists_run_save codec path indent s
  refine ⟨result, text, hsaving, hrun, ?_⟩
  rintro rfl hunit hs store
  exact run_load_of_saving hsaving hunit hs store

/-! ### Saves on single states -/

/-- The document of a state that is written, read again. -/
abbrev reread (s : State Float (Tensor Float) (Curvature Float)) :
    Except (Fault Float) (State Float (Tensor Float) (Curvature Float)) :=
  Document.encodeState ArrayCodec.tensors s >>= Document.decodeState ArrayCodec.tensors

theorem fst_load_of_saving {s : State Float (Tensor Float) (Curvature Float)}
    (h : Saving ArrayCodec.tensors defaultIndent s (.ok ()) text) (hs : s.Kept ArrayCodec.tensors)
    (store : Store) : ((load ArrayCodec.tensors path).run (store.write path text)).1 = reread s :=
  congrArg Prod.fst (run_load_of_saving h nofun hs store)

/-- A state with a point, a gradient that has a value that is not finite, and a diagnostic. -/
def stepped : State Float (Tensor Float) (Curvature Float) where
  param := some (.vector .numpy [0.1, -2.5])
  grad := some (.vector .torch [1.0 / 0.0])
  cost := .real 1e-300
  curIter := .int 3
  kv := [("alpha", .real 0.5), ("trials", .int 2)]

theorem kept_stepped : stepped.Kept ArrayCodec.tensors := by
  refine State.kept_tensors ⟨by decide, ?_⟩
  exact ⟨Document.unpaired_of_basic rfl, trivial, Document.unpaired_of_basic rfl, trivial, trivial⟩

/-- The document of the state can be written, and read again. -/
theorem exists_encodeState_stepped :
    (∃ doc, Document.encodeState ArrayCodec.tensors stepped = .ok doc ∧
      Json.isWritable doc = true) ∧
    (reread stepped).toOption.map (fun s => (s.param, s.grad, s.kv.map Prod.fst)) =
      some (stepped.param, stepped.grad, ["alpha", "trials"]) := by
  have hwritable : (Document.encodeState ArrayCodec.tensors stepped).toOption.map
      Json.isWritable = some true := by decide +kernel
  obtain ⟨doc, hdoc, h⟩ := Option.map_eq_some_iff.mp hwritable
  exact ⟨⟨doc, Act.toOption_eq_some.mp hdoc, h⟩, by decide +kernel⟩

theorem isOk_reread_stepped : (reread stepped).isOk = true := by
  have hreread := exists_encodeState_stepped.2
  cases h : reread stepped with
  | error f =>
    rw [h] at hreread
    cases hreread
  | ok s => rfl

/-- The state is saved, and loaded as it was. -/
theorem exists_saving_stepped :
    ∃ text, ∀ store : Store,
      (save ArrayCodec.tensors "run.json" defaultIndent stepped).run store =
        (.ok (), store.write "run.json" text) ∧
      ((load ArrayCodec.tensors "run.json").run (store.write "run.json" text)).1.toOption.map
        (fun s => (s.param, s.grad, s.kv.map Prod.fst)) =
        some (stepped.param, stepped.grad, ["alpha", "trials"]) := by
  obtain ⟨⟨doc, hdoc, hwritable⟩, hreread⟩ := exists_encodeState_stepped
  obtain ⟨result, text, hsaving, hrun, hload⟩ :=
    exists_saving ArrayCodec.tensors "run.json" defaultIndent stepped
  -- the document is written, and so it is neither refused nor left out
  have hresult : result = .ok () := by
    cases hsaving with
    | notEncoded h => cases h.symm.trans hdoc
    | notLaidOut h hindent => cases hindent
    | refused h hindent hrefused =>
      cases h.symm.trans hdoc
      rw [hwritable] at hrefused
      cases hrefused
    | written => rfl
  refine ⟨text, fun store => ⟨by rw [hrun, hresult], ?_⟩⟩
  rw [hload hresult nofun kept_stepped]
  exact hreread

/-- A state with one diagnostic. -/
def diagnosed (key : String) : State Float (Tensor Float) (Curvature Float) where
  kv := [(key, .real 1.0)]

/-- The halves of a character are written as the character is. -/
theorem render_halves :
    (render ArrayCodec.tensors defaultIndent (diagnosed halves)).toOption =
      (render ArrayCodec.tensors defaultIndent (diagnosed "😀")).toOption := by
  decide +kernel

/-- A state whose Hessian is a function has no document. -/
def functional : State Float (Tensor Float) (Curvature Float) where
  hessian := some (.function .ok)

theorem kept_face : (diagnosed "😀").Kept ArrayCodec.tensors := by
  refine State.kept_tensors ⟨by decide, ?_, trivial, trivial⟩
  exact List.isChain_singleton _

/-- The document with the character has a text, from which the character is read. -/
theorem exists_render_face :
    (∃ text, render ArrayCodec.tensors defaultIndent (diagnosed "😀") = .ok text) ∧
    (reread (diagnosed "😀")).toOption.map (·.kv.map Prod.fst) = some ["😀"] ∧
    (reread (diagnosed halves)).toOption.map (·.kv.map Prod.fst) = some [halves] := by
  refine ⟨?_, by decide +kernel, by decide +kernel⟩
  have hsome :
      (render ArrayCodec.tensors defaultIndent (diagnosed "😀")).toOption.isSome = true := by
    decide +kernel
  obtain ⟨text, h⟩ := Option.isSome_iff_exists.mp hsome
  exact ⟨text, Act.toOption_eq_some.mp h⟩

/-- A save that fails destroys what could be loaded before it.  A save that succeeds may leave what
is not loaded as the document is read: halves of a character that follow each other are loaded as
the character, and an indentation by letters is not loaded at all. -/
theorem save_destroys_stepped :
    let saved (indent : Value Float) (s : State Float (Tensor Float) (Curvature Float))
        (store : Store) := (save ArrayCodec.tensors "run.json" indent s).run store
    let loaded (store : Store) := ((load ArrayCodec.tensors "run.json").run store).1
    let empty : Store := fun _ => none
    let checkpoint := (saved defaultIndent stepped empty).2
    ((loaded checkpoint).isOk = true ∧
      (saved defaultIndent functional checkpoint).1 = .error (.notEncodable "function") ∧
      (saved defaultIndent functional checkpoint).2 "run.json" ≠ checkpoint "run.json" ∧
      loaded (saved defaultIndent functional checkpoint).2 = .error .malformedText) ∧
    ((saved defaultIndent (diagnosed halves) empty).1 = .ok () ∧
      (reread (diagnosed halves)).toOption.map (·.kv.map Prod.fst) = some [halves] ∧
      (loaded (saved defaultIndent (diagnosed halves) empty).2).toOption.map (·.kv.map Prod.fst) ≠
        some [halves]) ∧
    ((saved (.text "x") stepped empty).1 = .ok () ∧ (reread stepped).isOk = true ∧
      loaded (saved (.text "x") stepped empty).2 = .error .malformedText) := by
  intro saved loaded empty checkpoint
  obtain ⟨⟨doc, hdoc, hwritable⟩, -⟩ := exists_encodeState_stepped
  refine ⟨?_, ?_, ?_⟩
  · -- a state with an operator where its matrix should be is not written, and the file is empty
    have hcheckpoint : checkpoint = empty.write "run.json" (Json.print (.blanks 2) 0 doc) :=
      congrArg Prod.snd (run_save_of_isWritable hdoc rfl hwritable empty)
    have hloaded : loaded checkpoint = reread stepped := by
      rw [hcheckpoint]
      exact fst_load_of_saving (.written hdoc rfl hwritable) kept_stepped empty
    have hfailed : saved defaultIndent functional checkpoint =
        (.error (.notEncodable "function"), checkpoint.write "run.json" "") :=
      run_save_of_encodeState rfl checkpoint
    rw [hfailed, hloaded]
    refine ⟨isOk_reread_stepped, rfl, ?_, congrArg Prod.fst (run_load_empty checkpoint)⟩
    dsimp only
    rw [write_self, hcheckpoint, write_self]
    exact fun hempty => print_ne_empty hdoc _ (Option.some.inj hempty).symm
  · -- the two halves of a character are read as the character
    obtain ⟨⟨text, htext⟩, hface, hhalves⟩ := exists_render_face
    have hsame : render ArrayCodec.tensors defaultIndent (diagnosed halves) = .ok text := by
      rw [← Act.toOption_eq_some, render_halves, Act.toOption_eq_some]
      exact htext
    have hsaved : saved defaultIndent (diagnosed halves) empty =
        (.ok (), empty.write "run.json" text) :=
      run_save_of_saving (saving_of_render hsame) empty
    have hloaded : loaded (empty.write "run.json" text) = reread (diagnosed "😀") :=
      fst_load_of_saving (saving_of_render htext) kept_face empty
    rw [hsaved]
    dsimp only
    rw [hloaded, hface]
    exact ⟨rfl, hhalves, by decide⟩
  · -- an indent of letters makes a text that is not read
    have hsaved : saved (.text "x") stepped empty =
        (.ok (), empty.write "run.json" (Json.print (.indented "x") 0 doc)) :=
      run_save_of_isWritable hdoc rfl hwritable empty
    rw [hsaved]
    refine ⟨rfl, isOk_reread_stepped, ?_⟩
    exact (congrArg Prod.fst (run_load empty)).trans (parse_lettered hdoc)

end Store

end Descent
