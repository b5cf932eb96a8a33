import Descent.Document.Store
import Descent.Proofs.Document.RoundTrip
import Descent.Proofs.Json.Writer

/-!
# Saving a state and loading it

A storable state goes through its document unchanged, and so it does through every text that holds
the document (`Document.decodeState_encodeState`).  A text is written for it exactly if its integers
are not too long for the writer (`State.Brief`): the arrays and the measured values of its document
are always written.  What is written is read as the state, unless a key of a diagnostic has the two
halves of a character next to each other: they are read as the character
(`Document.lost_annotated`).
-/

namespace Descent

variable {V M : Type}

namespace Document

/-! ### Strings and keys that text keeps -/

/-- A text of basic characters holds no stand-ins. -/
theorem unpaired_of_basic {s : String} (h : s.toList.all (·.toNat < 128) = true) :
    Text.Unpaired s := by
  refine List.Pairwise.isChain (List.pairwise_of_forall_mem_list ?_)
  intro c hc d _ hcd
  obtain ⟨⟨code, hcode, -⟩, -⟩ := hcd
  have hlt := of_decide_eq_true (List.all_eq_true.mp h c hc)
  rw [Text.half?_of_toNat_lt (Nat.lt_trans hlt (by decide))] at hcode
  cases hcode

theorem kept_ofReal (x : Float) : Json.Kept (ofReal x) := by
  rcases ofReal_cases x with ⟨-, hx⟩ | ⟨s, hs, hx, -⟩
  · rw [hx]
    trivial
  · rw [hx]
    have hall : ∀ s ∈ Schema.specialWords, s.toList.all (·.toNat < 128) = true := by decide
    exact unpaired_of_basic (hall s hs)

theorem kept_ofDiagnostic {v : Document} (h : Json.Kept v) : Json.Kept (ofDiagnostic v) := by
  cases v with
  | real x => exact kept_ofReal x
  | null | bool | int | text | list | object => exact h

theorem kept_ofMeasured (v : Value Float) : Act.Returns Json.Kept (ofMeasured v) :=
  .next fun x => .ok (kept_ofReal x)

theorem kept_ofCount (v : Value Float) : Act.Returns Json.Kept (ofCount v) :=
  .next fun _ => .ok trivial

/-- The document of an array is kept by text if the name of its type is. -/
theorem kept_encode {a : StoredArray} (h : Text.Unpaired a.element.label) :
    Act.Returns Json.Kept a.encode := by
  have hbackend : ∀ b : Backend, b.label.toList.all (·.toNat < 128) = true := by
    intro b
    cases b <;> rfl
  have hkeys : ["backend", "dtype", "shape", "data"].Nodup := by decide
  refine (Act.Returns.mapM fun _ _ => .next fun x => .ok (kept_ofReal x)).bind
    fun data hdata => .ok ⟨hkeys, Json.fieldsKept_iff.mpr ?_⟩
  have haxes : Json.AllKept (a.shape.map fun n : Nat => .int n) := by
    refine Json.allKept_iff.mpr fun v hv => ?_
    obtain ⟨n, -, rfl⟩ := List.mem_map.mp hv
    trivial
  simp only [List.forall_mem_cons, List.not_mem_nil, false_imp_iff, implies_true, and_true]
  exact ⟨⟨unpaired_of_basic rfl, unpaired_of_basic (hbackend a.backend)⟩,
    ⟨unpaired_of_basic rfl, h⟩, ⟨unpaired_of_basic rfl, haxes⟩,
    ⟨unpaired_of_basic rfl, Json.allKept_iff.mpr hdata⟩⟩

end Document

/-- A state whose arrays and diagnostics are kept by text. -/
structure State.Kept (codec : ArrayCodec V M) (s : State Float V M) : Prop where
  vector : ∀ o ∈ [s.param, s.prevParam, s.bestParam, s.grad], ∀ v, o = some v →
    Act.Returns Json.Kept (codec.encodeVector v)
  matrix : ∀ m, s.hessian = some m → Act.Returns Json.Kept (codec.encodeMatrix m)
  kv : Json.Kept (.object s.kv)

/-- Arrays of measured values are kept. -/
theorem State.kept_tensors {s : State Float (Tensor Float) (Curvature Float)}
    (h : Json.Kept (.object s.kv)) : s.Kept ArrayCodec.tensors := by
  have hlabel : Text.Unpaired (ElementType.floating 64).label := Document.unpaired_of_basic rfl
  refine ⟨fun _ _ t _ => Document.kept_encode hlabel, fun m _ => ?_, h⟩
  cases m with
  | matrix t => exact Document.kept_encode hlabel
  | function product => exact nofun

/-- Stored arrays are kept if the names of their types are. -/
theorem State.kept_stored {s : State Float StoredArray StoredArray}
    (hlabel : ∀ o ∈ [s.param, s.prevParam, s.bestParam, s.grad, s.hessian], ∀ a, o = some a →
      Text.Unpaired a.element.label)
    (h : Json.Kept (.object s.kv)) : s.Kept ArrayCodec.stored := by
  simp only [List.forall_mem_cons, List.not_mem_nil, false_imp_iff, implies_true, and_true]
    at hlabel
  obtain ⟨hparam, hprevParam, hbestParam, hgrad, hhessian⟩ := hlabel
  refine ⟨?_, fun a ha => Document.kept_encode (hhessian a ha), h⟩
  simp only [List.forall_mem_cons, List.not_mem_nil, false_imp_iff, implies_true, and_true]
  exact ⟨fun a ha => Document.kept_encode (hparam a ha),
    fun a ha => Document.kept_encode (hprevParam a ha),
    fun a ha => Document.kept_encode (hbestParam a ha),
    fun a ha => Document.kept_encode (hgrad a ha)⟩

namespace Document

variable {codec : ArrayCodec V M} {s : State Float V M}

theorem kept_encodeOption {α : Type} {encode : α → Except (Fault Float) Document} {o : Option α}
    (h : ∀ a, o = some a → Act.Returns Json.Kept (encode a)) :
    Act.Returns Json.Kept (ArrayCodec.encodeOption encode o) := by
  cases o with
  | none => exact .ok trivial
  | some a => exact h a rfl

/-- The document of a state is kept by text as the parts of the state are. -/
theorem kept_encodeState (h : s.Kept codec) : Act.Returns Json.Kept (encodeState codec s) := by
  have hvector := h.vector
  simp only [List.forall_mem_cons, List.not_mem_nil, false_imp_iff, implies_true, and_true]
    at hvector
  obtain ⟨hparam, hprevParam, hbestParam, hgrad⟩ := hvector
  -- the labels and the field names have no surrogates
  have hreason : ∀ r : Reason, r.label.toList.all (·.toNat < 128) = true := by
    intro r
    cases r <;> rfl
  have hkv : Json.Kept (.object (s.kv.map fun f => (f.1, ofDiagnostic f.2))) := by
    refine ⟨?_, Json.fieldsKept_iff.mpr fun f hf => ?_⟩
    · rw [List.map_map]
      exact h.kv.1
    · obtain ⟨g, hg, rfl⟩ := List.mem_map.mp hf
      obtain ⟨hkey, hvalue⟩ := Json.fieldsKept_iff.mp h.kv.2 g hg
      exact ⟨hkey, kept_ofDiagnostic hvalue⟩
  have hkeys : ["version", "kind", "param", "prev_param", "best_param", "grad", "hessian", "cost",
      "prev_cost", "best_cost", "prev_best_cost", "target_cost", "last_best_iter", "cur_iter",
      "max_iters", "termination_reason", "time", "kv"].Nodup := by decide
  unfold encodeState
  refine (kept_encodeOption hparam).bind fun param hparam => ?_
  refine (kept_encodeOption hprevParam).bind fun prevParam hprevParam => ?_
  refine (kept_encodeOption hbestParam).bind fun bestParam hbestParam => ?_
  refine (kept_encodeOption hgrad).bind fun grad hgrad => ?_
  refine (kept_encodeOption h.matrix).bind fun hessian hhessian => ?_
  refine (kept_ofMeasured s.cost).bind fun cost hcost => ?_
  refine (kept_ofMeasured s.prevCost).bind fun prevCost hprevCost => ?_
  refine (kept_ofMeasured s.bestCost).bind fun bestCost hbestCost => ?_
  refine (kept_ofMeasured s.prevBestCost).bind fun prevBestCost hprevBestCost => ?_
  refine (kept_ofMeasured s.targetCost).bind fun targetCost htargetCost => ?_
  refine (kept_ofCount s.lastBestIter).bind fun lastBestIter hlastBestIter => ?_
  refine (kept_ofCount s.curIter).bind fun curIter hcurIter => ?_
  refine (kept_ofCount s.maxIters).bind fun maxIters hmaxIters => ?_
  -- the time is `null` or a number, and the rest of the document is the same for both
  rcases s.time with _ | t
  case' none => refine Act.Returns.bind (P := Json.Kept) (.ok trivial) fun time htime => ?_
  case' some => refine (kept_ofMeasured t).bind fun time htime => ?_
  all_goals
    refine .ok ⟨hkeys, Json.fieldsKept_iff.mpr ?_⟩
    simp only [List.forall_mem_cons, List.not_mem_nil, false_imp_iff, implies_true, and_true]
    refine ⟨⟨?_, unpaired_of_basic rfl⟩, ⟨?_, unpaired_of_basic rfl⟩, ⟨?_, hparam⟩,
      ⟨?_, hprevParam⟩, ⟨?_, hbestParam⟩, ⟨?_, hgrad⟩, ⟨?_, hhessian⟩, ⟨?_, hcost⟩,
      ⟨?_, hprevCost⟩, ⟨?_, hbestCost⟩, ⟨?_, hprevBestCost⟩, ⟨?_, htargetCost⟩,
      ⟨?_, hlastBestIter⟩, ⟨?_, hcurIter⟩, ⟨?_, hmaxIters⟩,
      ⟨?_, unpaired_of_basic (hreason s.reason)⟩, ⟨?_, htime⟩, ⟨?_, hkv⟩⟩ <;>
      exact unpaired_of_basic rfl

end Document

/-! ### Integers that are written -/

/-- An integer has no more digits than are written or read.  Any other value is brief. -/
def Value.IsBrief (v : Value Float) : Prop :=
  ∀ n : Int, v = .int n → n.natAbs < 10 ^ Text.maxDigits

/-- The counts of a state and the integers among its diagnostics are brief. -/
structure State.Brief (s : State Float StoredArray StoredArray) : Prop where
  count : ∀ v ∈ [s.lastBestIter, s.curIter, s.maxIters], v.IsBrief
  diagnostic : ∀ f ∈ s.kv, f.2.IsBrief

namespace Document

/-- A measured value is written, as a number if it is finite and as a word if it is not. -/
theorem isWritable_ofReal (x : Float) : Json.isWritable (ofReal x) = true := by
  rcases ofReal_cases x with ⟨hfinite, hx⟩ | ⟨s, -, hx, -⟩
  · rw [hx]
    exact hfinite
  · rw [hx]
    rfl

theorem isWritable_ofDiagnostic {v : Value Float} (h : v.isSimple = true) :
    Json.isWritable (ofDiagnostic v) = true ↔ v.IsBrief := by
  cases v with
  | real x => exact iff_of_true (isWritable_ofReal x) nofun
  | int n =>
    refine Json.isWritable_int.trans ?_
    exact ⟨fun hn _ hv => Value.int.inj hv ▸ hn, fun hv => hv n rfl⟩
  | null | bool => exact iff_of_true rfl nofun
  | text | list | object => cases h

/-- An array is written: the lengths of its axes have few digits. -/
theorem isWritable_ofArray {o : Option StoredArray} (h : ∀ a, o = some a → a.Floating) :
    Json.isWritable (ofArray o) = true := by
  cases o with
  | none => rfl
  | some a =>
    have ha := h a rfl
    -- an axis has at most `19` digits
    have haxes : Json.areWritable a.payload.axes = true := by
      refine Json.areWritable_eq_true.mpr fun v hv => ?_
      obtain ⟨n, hn, rfl⟩ := List.mem_map.mp hv
      have hlength : n < 10 ^ 19 := Int.ofNat_lt.mp (Int.lt_of_le_of_lt (ha.axes n hn) (by decide))
      exact Json.isWritable_int.mpr (Nat.lt_of_lt_of_le hlength (Nat.pow_le_pow_right (by decide)
        (by decide)))
    have hentries : Json.areWritable a.payload.entries = true := by
      refine Json.areWritable_eq_true.mpr fun v hv => ?_
      obtain ⟨e, he, rfl⟩ := List.mem_map.mp hv
      obtain ⟨xs, hxs, -⟩ := ha.entries
      obtain ⟨x, -, rfl⟩ := List.mem_map.mp (hxs ▸ he)
      exact isWritable_ofReal x
    refine Json.fieldsWritable_eq_true.mpr ?_
    simp only [Payload.fields, List.forall_mem_cons, List.not_mem_nil, false_imp_iff,
      implies_true, and_true]
    exact ⟨rfl, rfl, haxes, hentries⟩

variable {s : State Float StoredArray StoredArray} {indent : Value Float} {layout : Json.Layout}

/-- Only the integers of a storable state can be refused by the writer. -/
theorem isWritable_ofState (h : s.Storable) : Json.isWritable (ofState s) = true ↔ s.Brief := by
  obtain ⟨hparam, hprevParam, hbestParam, hgrad, hhessian⟩ := h.arrays
  obtain ⟨hcost, hprevCost, hbestCost, hprevBestCost, htargetCost⟩ := h.reals
  obtain ⟨hlastBestIter, hcurIter, hmaxIters⟩ := h.counts
  have hreal {v : Value Float} (hv : ∃ x, v = .real x) :
      Json.isWritable (ofDiagnostic v) = true := by
    obtain ⟨x, rfl⟩ := hv
    exact isWritable_ofReal x
  have hint {v : Value Float} (hv : ∃ n : Int, v = .int n ∧ 0 ≤ n) :
      Json.isWritable v = true ↔ v.IsBrief := by
    obtain ⟨n, rfl, -⟩ := hv
    exact isWritable_ofDiagnostic (v := .int n) rfl
  have htime : Json.isWritable ((s.time.map ofDiagnostic).getD .null) = true := by
    cases ht : s.time with
    | none => rfl
    | some t => exact hreal (h.time t ht)
  have hword (word : String) : Json.isWritable (.text word) = true := rfl
  have hkv : Json.isWritable (.object (s.kv.map fun f => (f.1, ofDiagnostic f.2))) = true ↔
      ∀ f ∈ s.kv, f.2.IsBrief := by
    rw [Json.isWritable, Json.fieldsWritable_eq_true, List.forall_mem_map]
    exact forall₂_congr fun f hf => isWritable_ofDiagnostic (h.kv f hf)
  -- what is left of the eighteen fields are the counts and the diagnostics
  rw [ofState, Json.isWritable, Json.fieldsWritable_eq_true]
  simp only [List.forall_mem_cons, List.not_mem_nil, false_imp_iff, implies_true, and_true,
    isWritable_ofArray hparam, isWritable_ofArray hprevParam, isWritable_ofArray hbestParam,
    isWritable_ofArray hgrad, isWritable_ofArray hhessian, hreal hcost, hreal hprevCost,
    hreal hbestCost, hreal hprevBestCost, hreal htargetCost, htime, hint hlastBestIter,
    hint hcurIter, hint hmaxIters, hkv, hword, true_and]
  constructor
  · rintro ⟨hlast, hcur, hmax, hdiagnostic⟩
    refine ⟨?_, hdiagnostic⟩
    simp only [List.forall_mem_cons, List.not_mem_nil, false_imp_iff, implies_true, and_true]
    exact ⟨hlast, hcur, hmax⟩
  · rintro ⟨hbrief, hdiagnostic⟩
    simp only [List.forall_mem_cons, List.not_mem_nil, false_imp_iff, implies_true, and_true]
      at hbrief
    exact ⟨hbrief.1, hbrief.2.1, hbrief.2.2, hdiagnostic⟩

/-! ### Through the text -/

/-- The text of a storable state is that of its document, if its integers are brief. -/
theorem render_stored (h : s.Storable) (hlayout : Json.Layout.ofIndent indent = .ok layout) :
    Store.render ArrayCodec.stored indent s =
      if Json.isWritable (ofState s) then .ok (Json.print layout 0 (ofState s))
      else .error .wrongValue := by
  simp only [Store.render, encodeState_eq h, hlayout, Json.printed_eq, bind, Except.bind]

/-- A text that holds the document of a storable state is read as the state. -/
theorem parse_stored (h : s.Storable) {text : String} (hread : Json.read text = .ok (ofState s)) :
    Store.parse ArrayCodec.stored text = .ok s := by
  simp only [Store.parse, hread, decodeState_ofState h, bind, Except.bind]

theorem kept_ofState (h : s.Storable) (hkeys : (s.kv.map Prod.fst).Nodup)
    (hunpaired : ∀ f ∈ s.kv, Text.Unpaired f.1) : Json.Kept (ofState s) := by
  refine kept_encodeState (State.kept_stored ?_ ⟨hkeys, ?_⟩) _ (encodeState_eq h)
  · intro o ho a ha
    have hlabels : ∀ b : Backend, (ElementType.floatingTypes b).all
        (fun t => t.label.toList.all (·.toNat < 128)) = true := by
      intro b
      cases b <;> rfl
    exact unpaired_of_basic
      (List.all_eq_true.mp (hlabels a.backend) a.element (h.array o ho a ha).element)
  · refine Json.fieldsKept_iff.mpr fun f hf => ⟨hunpaired f hf, ?_⟩
    have hsimple := h.kv f hf
    cases hv : f.2 with
    | null | bool | int | real => trivial
    | text | list | object =>
      rw [hv] at hsimple
      cases hsimple

/-- A storable state is written as a valid and strict document, from which it is read back in
every field; so it is from every text that holds the document.  However it is indented, such a text
is written for it if its integers are brief, and otherwise it is refused.  What is written is read
as the state, too, unless the keys of its diagnostics have the two halves of a character next to
each other. -/
theorem decodeState_encodeState (h : s.Storable) :
    ∃ doc, encodeState ArrayCodec.stored s = .ok doc ∧ Json.isStrict doc = true ∧
      Schema.validateState doc = .ok () ∧ decodeState ArrayCodec.stored doc = .ok s ∧
      (∀ text, Json.read text = .ok doc → Store.parse ArrayCodec.stored text = .ok s) ∧
      ∀ indent layout, Json.Layout.ofIndent indent = .ok layout →
        (¬ s.Brief → Store.render ArrayCodec.stored indent s = .error .wrongValue) ∧
        (s.Brief → ∃ text, Store.render ArrayCodec.stored indent s = .ok text ∧
          (layout.IsBlank → (s.kv.map Prod.fst).Nodup → (∀ f ∈ s.kv, Text.Unpaired f.1) →
            Json.read text = .ok doc ∧ Store.parse ArrayCodec.stored text = .ok s)) := by
  refine ⟨ofState s, encodeState_eq h, isStrict_ofState h,
    Schema.validateState_eq_ok.mpr (valid_ofState h), decodeState_ofState h,
    fun _ => parse_stored h, ?_⟩
  intro indent layout hlayout
  rw [render_stored h hlayout]
  constructor
  · -- some integer has too many digits
    intro hbrief
    rw [if_neg (mt (isWritable_ofState h).mp hbrief)]
  · -- all integers can be written, and then everything else can
    intro hbrief
    have hwritable := (isWritable_ofState h).mpr hbrief
    rw [if_pos hwritable]
    refine ⟨_, rfl, fun hblank hkeys hunpaired => ?_⟩
    have hread := Json.read_print hblank
      (Json.legible_of_kept _ hwritable (kept_ofState h hkeys hunpaired))
    exact ⟨hread, parse_stored h hread⟩

/-- A state with an array without axes, an empty one, and measured values of every kind. -/
def storedSample : State Float StoredArray StoredArray where
  param := some ⟨.numpy, .floating 64, [], [.real (0.0 / 0.0)]⟩
  prevParam := some ⟨.torch, .floating 32, [0, 2], []⟩
  grad := some ⟨.numpy, .floating 16, [2], [.real 0.5, .real (1.0 / 0.0)]⟩
  cost := .real (-0.0)
  bestCost := .real 1e-5
  curIter := .int 3
  reason := .converged
  time := some (.real (0.0 / 0.0))
  kv := [("alpha", .real (-1.0 / 0.0)), ("trials", .int (-2)), ("exact", .bool true),
    ("slope", .null)]

theorem floating_storedSample : ∀ o ∈ [storedSample.param, storedSample.prevParam,
    storedSample.bestParam, storedSample.grad, storedSample.hessian], ∀ a, o = some a →
    a.Floating := by
  simp only [storedSample, List.forall_mem_cons, List.not_mem_nil, false_imp_iff, implies_true,
    Option.some.injEq, reduceCtorEq, forall_eq', and_true, true_and]
  refine ⟨⟨?_, ⟨[0.0 / 0.0], rfl, ?_⟩, rfl, nofun, rfl⟩,
    ⟨?_, ⟨[], rfl, nofun⟩, rfl, ?_, rfl⟩, ⟨?_, ⟨[0.5, 1.0 / 0.0], rfl, ?_⟩, rfl, ?_, rfl⟩⟩
  all_goals decide +kernel

/-- The sample goes through the text of its document. -/
theorem decodeState_encodeState_storedSample :
    storedSample.Storable ∧ storedSample.Brief ∧
      ∃ text, Store.render ArrayCodec.stored Store.defaultIndent storedSample = .ok text ∧
        Store.parse ArrayCodec.stored text = .ok storedSample := by
  have hstorable : storedSample.Storable := by
    refine ⟨floating_storedSample, ?_, ?_, ?_, by decide⟩
    · simp only [List.forall_mem_cons, List.not_mem_nil, false_imp_iff, implies_true, and_true]
      exact ⟨⟨_, rfl⟩, ⟨_, rfl⟩, ⟨_, rfl⟩, ⟨_, rfl⟩, ⟨_, rfl⟩⟩
    · simp only [List.forall_mem_cons, List.not_mem_nil, false_imp_iff, implies_true, and_true]
      exact ⟨⟨0, rfl, by decide⟩, ⟨3, rfl, by decide⟩, ⟨unlimited, rfl, by decide⟩⟩
    · rintro _ ⟨⟩
      exact ⟨_, rfl⟩
  have hbrief : storedSample.Brief := (isWritable_ofState hstorable).mp (by decide +kernel)
  have hunpaired : ∀ f ∈ storedSample.kv, Text.Unpaired f.1 := by
    intro f hf
    have hbasic : ∀ f ∈ storedSample.kv, f.1.toList.all (·.toNat < 128) = true := by decide
    exact unpaired_of_basic (hbasic f hf)
  obtain ⟨doc, -, -, -, -, -, hrender⟩ := decodeState_encodeState hstorable
  obtain ⟨text, htext, hread⟩ := (hrender Store.defaultIndent (.blanks 2) rfl).2 hbrief
  exact ⟨hstorable, hbrief, text, htext,
    (hread (Json.Layout.isBlank_blanks 2) (by decide) hunpaired).2⟩

/-- A state with one diagnostic and no arrays. -/
def annotated (key : String) (v : Value Float) : State Float StoredArray StoredArray where
  kv := [(key, v)]

theorem storable_annotated {key : String} {v : Value Float} (h : v.isSimple = true) :
    (annotated key v).Storable := by
  refine ⟨?_, ?_, ?_, nofun, ?_⟩
  · simp only [annotated, List.forall_mem_cons, List.not_mem_nil, false_imp_iff, implies_true,
      reduceCtorEq, and_true]
  · simp only [List.forall_mem_cons, List.not_mem_nil, false_imp_iff, implies_true, and_true]
    exact ⟨⟨_, rfl⟩, ⟨_, rfl⟩, ⟨_, rfl⟩, ⟨_, rfl⟩, ⟨_, rfl⟩⟩
  · simp only [List.forall_mem_cons, List.not_mem_nil, false_imp_iff, implies_true, and_true]
    exact ⟨⟨0, rfl, by decide⟩, ⟨0, rfl, by decide⟩, ⟨unlimited, rfl, by decide⟩⟩
  · intro f hf
    obtain rfl := List.mem_singleton.mp hf
    exact h

end Document

namespace Store

/-- The two halves of a character, each by itself. -/
def halves : String := String.ofList [Text.ofHalf 0xd83d, Text.ofHalf 0xde00]

end Store

namespace Document

theorem not_brief_annotated (key : String) {k : Nat} (h : Text.maxDigits ≤ k) :
    ¬ (annotated key (.int (10 ^ k))).Brief := by
  intro hbrief
  have habs : (10 ^ k : Int).natAbs = 10 ^ k := Int.natAbs_pow 10 k
  have hlt := hbrief.diagnostic _ (List.mem_singleton_self _) _ rfl
  rw [habs] at hlt
  exact Nat.not_lt.mpr (Nat.pow_le_pow_right (by decide) h) hlt

theorem isWritable_annotated_null (key : String) :
    Json.isWritable (ofState (annotated key .null)) = true := by
  refine (isWritable_ofState (storable_annotated rfl)).mpr ⟨?_, List.forall_mem_singleton.mpr nofun⟩
  have hcounts : ∀ n ∈ [0, 0, unlimited], n.natAbs < 10 ^ Text.maxDigits := by decide +kernel
  simp only [List.forall_mem_cons, List.not_mem_nil, false_imp_iff, implies_true, and_true]
    at hcounts ⊢
  obtain ⟨hzero, -, hunlimited⟩ := hcounts
  exact ⟨fun _ hv => Value.int.inj hv ▸ hzero, fun _ hv => Value.int.inj hv ▸ hzero,
    fun _ hv => Value.int.inj hv ▸ hunlimited⟩

/-- The halves of a character are written as the character is. -/
theorem print_halves :
    Json.print (.blanks 2) 0 (ofState (annotated Store.halves .null)) =
      Json.print (.blanks 2) 0 (ofState (annotated "😀" .null)) := by
  decide +kernel

/-- Not every storable state goes through a text: an integer of more digits than are written is
refused, and halves of a character that follow each other are read as the character. -/
theorem lost_annotated :
    ((annotated "n" (.int (10 ^ 4300))).Storable ∧
      Store.render ArrayCodec.stored Store.defaultIndent (annotated "n" (.int (10 ^ 4300))) =
        .error .wrongValue) ∧
    ((annotated Store.halves .null).Storable ∧
      ∃ text, Store.render ArrayCodec.stored Store.defaultIndent (annotated Store.halves .null) =
          .ok text ∧
        Store.parse ArrayCodec.stored text = .ok (annotated "😀" .null) ∧
        Store.parse ArrayCodec.stored text ≠ .ok (annotated Store.halves .null)) := by
  have hlayout : Json.Layout.ofIndent Store.defaultIndent = .ok (.blanks 2) := rfl
  refine ⟨⟨storable_annotated rfl, ?_⟩, storable_annotated rfl, ?_⟩
  · -- an integer of `4301` digits
    rw [render_stored (storable_annotated rfl) hlayout, if_neg]
    rw [isWritable_ofState (storable_annotated rfl)]
    exact not_brief_annotated "n" (by decide)
  · -- what is written for the halves is what is written for the whole character
    have hface : (annotated "😀" .null).Storable := storable_annotated rfl
    have hkept : Json.Kept (ofState (annotated "😀" .null)) :=
      kept_ofState hface (by decide)
        (List.forall_mem_singleton.mpr (List.isChain_singleton _))
    have hread := Json.read_print (Json.Layout.isBlank_blanks 2)
      (Json.legible_of_kept _ (isWritable_annotated_null "😀") hkept)
    have hparse := parse_stored hface hread
    refine ⟨_, ?_, hparse, ?_⟩
    · rw [render_stored (storable_annotated rfl) hlayout, print_halves, isWritable_annotated_null,
        if_pos rfl]
    · rw [hparse]
      intro hsame
      have hkeys := congrArg (fun s : State Float StoredArray StoredArray => s.kv.map Prod.fst)
        (Except.ok.inj hsame)
      exact absurd hkeys (by decide)

end Document

end Descent
