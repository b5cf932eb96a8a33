import Descent.Proofs.Json.Numbers
import Descent.Proofs.Json.Strings
import Mathlib.Data.List.Nodup

/-!
# Documents are read as they are written

`Json.Legible` says of a document what its text cannot keep otherwise: its integers are not too
long for the reader, its measured values are read back from their own texts, no two lone
surrogates of a string are a pair, and no object has a key twice.  Such a document is read back
from its text, on one line or indented by blanks (`Json.read_print`).

The proof follows the printer: what is written for a value is read as the value, whatever follows
it, with any budget that exceeds the length of what is written (`Json.conveys`).
-/

namespace Descent.Json

/-! ### What can be read back -/

/-- A measured value is read from its own text. -/
def ReadsBack (x : Float) : Prop := scalar (realText x).toList = .ok (.real x, [])

mutual

/-- The document can be read from its text. -/
def Legible : Document → Prop
  | .null | .bool _ => True
  | .int n => (Nat.toDigits 10 n.natAbs).length ≤ Text.maxDigits
  | .real x => ReadsBack x
  | .text s => Text.Unpaired s
  | .list vs => AllLegible vs
  | .object fs => (fs.map Prod.fst).Nodup ∧ FieldsLegible fs

/-- The items can be read from their texts. -/
def AllLegible : List Document → Prop
  | [] => True
  | v :: vs => Legible v ∧ AllLegible vs

/-- The fields can be read from their texts. -/
def FieldsLegible : List (String × Document) → Prop
  | [] => True
  | (k, v) :: fs => Text.Unpaired k ∧ Legible v ∧ FieldsLegible fs

end

/-- What stands between items is white space and the comma. -/
def Layout.IsBlank (layout : Layout) : Prop :=
  ∀ depth, ∀ c ∈ (layout.lead depth).toList, isSpace c = true

theorem Layout.isBlank_line : line.IsBlank := fun _ _ hc => nomatch hc

theorem Layout.isBlank_indented {unit : String} (h : ∀ c ∈ unit.toList, isSpace c = true) :
    (indented unit).IsBlank := by
  intro depth c hc
  simp only [lead, String.toList_append, String.toList_join, List.mem_append] at hc
  rcases hc with hc | hc
  · obtain rfl := List.mem_singleton.mp hc
    rfl
  · obtain ⟨s, hs, hc⟩ := List.mem_flatMap.mp hc
    rw [List.eq_of_mem_replicate hs] at hc
    exact h c hc

theorem Layout.isBlank_blanks (width : Int) : (blanks width).IsBlank := by
  refine isBlank_indented fun c hc => ?_
  rw [String.toList_ofList] at hc
  rw [List.eq_of_mem_replicate hc]
  rfl

/-- A layout is of white space unless it is that of a text with other characters. -/
theorem Layout.isBlank_of_ofIndent {indent : Value Float} {layout : Layout}
    (h : ofIndent indent = .ok layout)
    (hunit : ∀ unit, indent = .text unit → ∀ c ∈ unit.toList, isSpace c = true) :
    layout.IsBlank := by
  unfold ofIndent at h
  split at h
  · cases h
    exact isBlank_line
  · cases h
    exact isBlank_indented (hunit _ rfl)
  · cases h
    exact isBlank_blanks _
  · cases h

/-! ### Blanks and ends -/

theorem ends_cons {c : Char} (h : Text.isDigit c = false ∧ c ≠ '.' ∧ c ≠ 'e' ∧ c ≠ 'E')
    (cs : List Char) : Ends (c :: cs) := by
  intro d hd
  cases hd
  exact h

theorem skip_append {blank cs : List Char} (hblank : ∀ c ∈ blank, isSpace c = true)
    (hcs : ∀ c ∈ cs.head?, isSpace c = false) : skip (blank ++ cs) = cs := by
  rw [skip, List.dropWhile_append_of_pos hblank]
  cases cs with
  | nil => rfl
  | cons c cs => rw [List.dropWhile_cons_of_neg (by simp [hcs c rfl])]

/-- White space before what ends a number ends it, too. -/
theorem Ends.append {blank cs : List Char} (hblank : ∀ c ∈ blank, isSpace c = true)
    (hcs : Ends cs) : Ends (blank ++ cs) := by
  cases blank with
  | nil => exact hcs
  | cons c blank =>
    refine ends_cons ?_ _
    have hc := hblank c List.mem_cons_self
    simp only [isSpace, Bool.or_eq_true, beq_iff_eq, or_assoc] at hc
    rcases hc with rfl | rfl | rfl | rfl <;> decide

/-! ### Where values begin -/

/-- Characters that no scalar begins with: the marks of other values, white space and the
byte-order mark. -/
def marks : List Char :=
  ['"', '[', ']', '\x7b', '\x7d', ' ', '\t', '\n', '\r', Char.ofNat 0xfeff]

theorem scalar_mark {c : Char} (hc : c ∈ marks) (cs : List Char) :
    scalar (c :: cs) = .error .malformedText := by
  simp only [marks, List.mem_cons, List.not_mem_nil, or_false] at hc
  rcases hc with rfl | rfl | rfl | rfl | rfl | rfl | rfl | rfl | rfl | rfl <;> rfl

theorem print_list {vs : List Document} (h : vs ≠ []) (layout : Layout) (depth : Nat) :
    (print layout depth (.list vs)).toList = '[' :: ((layout.lead (depth + 1)).toList ++
      ((printItems layout (depth + 1) vs).toList ++ ((layout.lead depth).toList ++ [']']))) := by
  rw [print]
  · simp only [String.toList_append, List.append_assoc]
    rfl
  · exact h

theorem print_object {fs : List (String × Document)} (h : fs ≠ []) (layout : Layout)
    (depth : Nat) :
    (print layout depth (.object fs)).toList =
      '\x7b' :: ((layout.lead (depth + 1)).toList ++ ((printFields layout (depth + 1) fs).toList ++
        ((layout.lead depth).toList ++ ['\x7d']))) := by
  rw [print]
  · simp only [String.toList_append, List.append_assoc]
    rfl
  · exact h

theorem printItems_cons {vs : List Document} (h : vs ≠ []) (layout : Layout) (depth : Nat)
    (v : Document) :
    (printItems layout depth (v :: vs)).toList = (print layout depth v).toList ++
      ((layout.separator depth).toList ++ (printItems layout depth vs).toList) := by
  rw [printItems, String.toList_append, String.toList_append, List.append_assoc]
  exact h

theorem printFields_single (layout : Layout) (depth : Nat) (k : String) (v : Document) :
    (printFields layout depth [(k, v)]).toList =
      (stringText k).toList ++ (':' :: ' ' :: (print layout depth v).toList) := by
  rw [printFields, String.toList_append, String.toList_append, List.append_assoc]
  rfl

theorem printFields_cons {fs : List (String × Document)} (h : fs ≠ []) (layout : Layout)
    (depth : Nat) (k : String) (v : Document) :
    (printFields layout depth ((k, v) :: fs)).toList =
      (stringText k).toList ++ (':' :: ' ' :: ((print layout depth v).toList ++
        ((layout.separator depth).toList ++ (printFields layout depth fs).toList))) := by
  rw [printFields]
  · simp only [String.toList_append, List.append_assoc]
    rfl
  · exact h

/-- The text of a value begins with a character that is no white space, closes nothing and is no
byte-order mark. -/
def Begins (cs : List Char) : Prop :=
  ∃ c rest, cs = c :: rest ∧ isSpace c = false ∧ c ≠ ']' ∧ c ≠ '\x7d' ∧ c ≠ Char.ofNat 0xfeff

theorem exists_of_scalar {cs : List Char} {v : Document} (h : scalar cs = .ok (v, [])) :
    ∃ c rest, cs = c :: rest ∧ c ∉ marks := by
  cases cs with
  | nil => cases h
  | cons c rest =>
    refine ⟨c, rest, rfl, fun hc => ?_⟩
    rw [scalar_mark hc] at h
    cases h

theorem value_of_scalar {cs rest : List Char} {v : Document} (h : scalar cs = .ok (v, []))
    (hrest : Ends rest) (fuel : Nat) : value (fuel + 1) (cs ++ rest) = .ok (v, rest) := by
  have hread := scalar_append hrest h
  obtain ⟨c, cs', rfl, hc⟩ := exists_of_scalar h
  rw [List.cons_append] at hread ⊢
  simp only [marks, List.mem_cons, List.not_mem_nil, or_false, not_or] at hc
  rw [value]
  · exact hread
  · intro _ heq
    exact hc.1 (List.cons.inj heq).1
  · intro _ heq
    exact hc.2.1 (List.cons.inj heq).1
  · intro _ heq
    exact hc.2.2.2.1 (List.cons.inj heq).1

theorem Begins.skip_append {blank cs : List Char} (hblank : ∀ c ∈ blank, isSpace c = true)
    (h : Begins cs) (rest : List Char) : skip (blank ++ (cs ++ rest)) = cs ++ rest := by
  obtain ⟨c, cs, rfl, hc, -⟩ := h
  refine Json.skip_append hblank fun d hd => ?_
  cases hd
  exact hc

theorem Begins.head?_append {cs : List Char} (h : Begins cs) (rest : List Char) :
    ∀ c ∈ (cs ++ rest).head?, c ≠ ']' ∧ c ≠ '\x7d' ∧ c ≠ Char.ofNat 0xfeff := by
  obtain ⟨c, cs, rfl, -, hc⟩ := h
  intro d hd
  cases hd
  exact hc

theorem begins_of_scalar {cs : List Char} {v : Document} (h : scalar cs = .ok (v, [])) :
    Begins cs := by
  obtain ⟨c, rest, rfl, hc⟩ := exists_of_scalar h
  simp only [marks, List.mem_cons, List.not_mem_nil, or_false, not_or] at hc
  obtain ⟨-, -, hlist, -, hobject, hspace, htab, hline, hreturn, horder⟩ := hc
  refine ⟨c, rest, rfl, ?_, hlist, hobject, horder⟩
  simp [isSpace, hspace, htab, hline, hreturn]

theorem ends_nil : Ends [] := nofun

theorem scalar_toString {n : Int} (h : Legible (.int n)) :
    scalar (toString n).toList = .ok (.int n, []) := by
  have hread := scalar_int h ends_nil
  rwa [List.append_nil] at hread

theorem begins_stringText (s : String) : Begins (stringText s).toList := by
  rw [stringText, String.toList_ofList]
  exact ⟨'"', _, rfl, rfl, by decide, by decide, by decide⟩

theorem begins_print (layout : Layout) (depth : Nat) {v : Document} (h : Legible v) :
    Begins (print layout depth v).toList := by
  cases v with
  | null =>
    rw [print]
    exact begins_of_scalar (v := .null) rfl
  | bool b =>
    rw [print]
    cases b
    · exact begins_of_scalar (v := .bool false) rfl
    · exact begins_of_scalar (v := .bool true) rfl
  | int n =>
    rw [print]
    exact begins_of_scalar (scalar_toString h)
  | real x =>
    rw [print]
    exact begins_of_scalar h
  | text s =>
    rw [print]
    exact begins_stringText s
  | list vs =>
    cases vs with
    | nil =>
      rw [print]
      exact ⟨'[', [']'], rfl, rfl, by decide, by decide, by decide⟩
    | cons v vs =>
      rw [print_list (List.cons_ne_nil v vs)]
      exact ⟨'[', _, rfl, rfl, by decide, by decide, by decide⟩
  | object fs =>
    cases fs with
    | nil =>
      rw [print]
      exact ⟨'\x7b', ['\x7d'], rfl, rfl, by decide, by decide, by decide⟩
    | cons f fs =>
      rw [print_object (List.cons_ne_nil f fs)]
      exact ⟨'\x7b', _, rfl, rfl, by decide, by decide, by decide⟩

theorem begins_printItems (layout : Layout) (depth : Nat) {v : Document} (h : Legible v)
    (vs : List Document) : Begins (printItems layout depth (v :: vs)).toList := by
  obtain ⟨c, cs, htext, hc⟩ := begins_print layout depth h
  cases vs with
  | nil => exact ⟨c, cs, by rw [printItems, htext], hc⟩
  | cons w vs =>
    simp only [printItems, String.toList_append, htext]
    exact ⟨c, _, rfl, hc⟩

theorem begins_printFields (layout : Layout) (depth : Nat) (f : String × Document)
    (fs : List (String × Document)) : Begins (printFields layout depth (f :: fs)).toList := by
  obtain ⟨k, v⟩ := f
  obtain ⟨c, cs, htext, hc⟩ := begins_stringText k
  cases fs <;>
    simp only [printFields, String.toList_append, htext] <;>
    exact ⟨c, _, rfl, hc⟩

/-- Items are separated by a comma and white space. -/
theorem Layout.IsBlank.separator {layout : Layout} (h : layout.IsBlank) (depth : Nat) :
    ∃ blank, (layout.separator depth).toList = ',' :: blank ∧
      ∀ c ∈ blank, isSpace c = true := by
  cases layout with
  | line =>
    refine ⟨[' '], by rw [Layout.separator]; rfl, fun c hc => ?_⟩
    obtain rfl := List.mem_singleton.mp hc
    rfl
  | indented unit =>
    refine ⟨((indented unit).lead depth).toList, ?_, h depth⟩
    rw [Layout.separator, String.toList_append]
    rfl

/-! ### One step of the reader -/

section

variable {fuel : Nat} {key : String} {v : Document} {cs text after more rest : List Char}

theorem items_last (hv : value fuel cs = .ok (v, after)) (hafter : skip after = ']' :: rest)
    (acc : List Document) :
    items (fuel + 1) acc cs = .ok (.list (acc.reverse ++ [v]), rest) := by
  simp only [items, hv, bind, Except.bind, hafter, List.reverse_cons]
  rfl

theorem items_more (hv : value fuel cs = .ok (v, after)) (hafter : skip after = ',' :: more)
    (acc : List Document) :
    items (fuel + 1) acc cs = items fuel (v :: acc) (skip more) := by
  simp only [items, hv, bind, Except.bind, hafter]

theorem fields_last (hkey : string cs = .ok (key, ':' :: text))
    (hv : value fuel (skip text) = .ok (v, after)) (hafter : skip after = '\x7d' :: rest)
    (acc : List (String × Document)) :
    fields (fuel + 1) acc ('"' :: cs) = .ok (.object (Value.insert key v acc), rest) := by
  have hcolon : skip (':' :: text) = ':' :: text := rfl
  simp only [fields, hkey, bind, Except.bind, hcolon, hv, hafter]
  rfl

theorem fields_more (hkey : string cs = .ok (key, ':' :: text))
    (hv : value fuel (skip text) = .ok (v, after)) (hafter : skip after = ',' :: more)
    (acc : List (String × Document)) :
    fields (fuel + 1) acc ('"' :: cs) = fields fuel (Value.insert key v acc) (skip more) := by
  have hcolon : skip (':' :: text) = ':' :: text := rfl
  simp only [fields, hkey, bind, Except.bind, hcolon, hv, hafter]

theorem value_list (htext : skip cs = text) (hbegins : ∀ c ∈ text.head?, c ≠ ']') :
    value (fuel + 1) ('[' :: cs) = items fuel [] text := by
  rw [value, htext]
  split
  · exact absurd rfl (hbegins ']' rfl)
  · rfl

theorem value_object (htext : skip cs = text) (hbegins : ∀ c ∈ text.head?, c ≠ '\x7d') :
    value (fuel + 1) ('\x7b' :: cs) = fields fuel [] text := by
  rw [value, htext]
  split
  · exact absurd rfl (hbegins '\x7d' rfl)
  · rfl

end

/-- A field of a new key goes to the end. -/
theorem insert_of_not_mem {key : String} (v : Document) {acc : List (String × Document)}
    (h : key ∉ acc.map Prod.fst) : Value.insert key v acc = acc ++ [(key, v)] := by
  induction acc with
  | nil => rfl
  | cons f acc ih =>
    obtain ⟨k, w⟩ := f
    rw [List.map_cons, List.mem_cons, not_or] at h
    have hk : (k == key) = false := beq_false_of_ne (Ne.symm h.1)
    rw [Value.insert, hk, ih h.2]
    rfl

/-! ### Values -/

/-- What the layout writes for the value is read as the value, whatever follows it, with any
budget that exceeds the length of what is written. -/
def Layout.Conveys (layout : Layout) (v : Document) : Prop :=
  ∀ (depth fuel : Nat) (rest : List Char), Ends rest →
    (print layout depth v).toList.length ≤ fuel →
      value (fuel + 1) ((print layout depth v).toList ++ rest) = .ok (v, rest)

section

variable {layout : Layout} {depth fuel : Nat} {blank rest : List Char}

/-- What is written for items is read as the items, after those read before. -/
theorem items_print (hl : layout.IsBlank) {vs : List Document} (hne : vs ≠ [])
    (hlegible : AllLegible vs) (hvs : ∀ v ∈ vs, layout.Conveys v)
    (hblank : ∀ c ∈ blank, isSpace c = true)
    (hfuel : (printItems layout depth vs).toList.length < fuel) (acc : List Document) :
    items (fuel + 1) acc ((printItems layout depth vs).toList ++ (blank ++ ']' :: rest)) =
      .ok (.list (acc.reverse ++ vs), rest) := by
  -- each value costs at least a character of the text, so the budget outlasts the items
  obtain ⟨m, rfl⟩ : ∃ m, fuel = m + 1 := ⟨fuel - 1, by omega⟩
  induction vs generalizing m acc with
  | nil => exact absurd rfl hne
  | cons v vs ih =>
    have hv := hvs v List.mem_cons_self depth m
    cases vs with
    | nil =>
      have hclose : Ends (blank ++ ']' :: rest) := (ends_cons (by decide) rest).append hblank
      rw [printItems] at hfuel ⊢
      exact items_last (hv _ hclose (by omega)) (skip_append hblank (by simp [isSpace])) acc
    | cons w vs =>
      obtain ⟨space, hseparator, hspace⟩ := hl.separator depth
      have hbegins := begins_printItems layout depth hlegible.2.1 vs
      rw [printItems_cons (List.cons_ne_nil w vs), hseparator] at hfuel ⊢
      simp only [List.length_append, List.length_cons] at hfuel
      simp only [List.append_assoc, List.cons_append]
      obtain ⟨n, rfl⟩ : ∃ n, m = n + 1 := ⟨m - 1, by omega⟩
      rw [items_more (hv _ (ends_cons (by decide) _) (by omega)) rfl, hbegins.skip_append hspace,
        ih (List.cons_ne_nil w vs) hlegible.2 (fun x hx => hvs x (List.mem_cons_of_mem v hx))
          (v :: acc) n (by omega)]
      rw [List.reverse_cons, List.append_assoc]
      rfl

/-- What is written for fields of new keys is read as the fields, after those read before. -/
theorem fields_print (hl : layout.IsBlank) {fs : List (String × Document)} (hne : fs ≠ [])
    (hlegible : FieldsLegible fs) (hfs : ∀ f ∈ fs, layout.Conveys f.2)
    (hblank : ∀ c ∈ blank, isSpace c = true)
    (hfuel : (printFields layout depth fs).toList.length < fuel)
    {acc : List (String × Document)} (hkeys : ((acc ++ fs).map Prod.fst).Nodup) :
    fields (fuel + 1) acc ((printFields layout depth fs).toList ++ (blank ++ '\x7d' :: rest)) =
      .ok (.object (acc ++ fs), rest) := by
  obtain ⟨m, rfl⟩ : ∃ m, fuel = m + 1 := ⟨fuel - 1, by omega⟩
  induction fs generalizing m acc with
  | nil => exact absurd rfl hne
  | cons f fs ih =>
    obtain ⟨k, v⟩ := f
    obtain ⟨hk, hv, hlegible⟩ := hlegible
    have hread : layout.Conveys v := hfs (k, v) List.mem_cons_self
    have hspace : ∀ c ∈ [' '], isSpace c = true := List.forall_mem_singleton.mpr rfl
    have hskip := (begins_print layout depth hv).skip_append hspace
    -- the reader replaces the field of a key that it has; this one is new
    have hnew : k ∉ acc.map Prod.fst := by
      rw [List.map_append, List.map_cons] at hkeys
      exact fun hmem => List.disjoint_of_nodup_append hkeys hmem List.mem_cons_self
    cases fs with
    | nil =>
      obtain ⟨cs, htext, hkey⟩ := string_stringText hk
        (':' :: ' ' :: ((print layout depth v).toList ++ (blank ++ '\x7d' :: rest)))
      rw [printFields_single] at hfuel ⊢
      simp only [List.length_append, List.length_cons] at hfuel
      have hends := (ends_cons (c := '\x7d') (by decide) rest).append hblank
      have hvalue := hread depth m _ hends (by omega)
      rw [← hskip] at hvalue
      rw [List.append_assoc, List.cons_append, List.cons_append, htext,
        fields_last hkey hvalue (skip_append hblank (by simp [isSpace])), insert_of_not_mem v hnew]
    | cons f fs =>
      obtain ⟨space, hseparator, hspace⟩ := hl.separator depth
      have hbegins := begins_printFields layout depth f fs
      obtain ⟨cs, htext, hkey⟩ := string_stringText hk
        (':' :: ' ' :: ((print layout depth v).toList ++ (',' :: (space ++
          ((printFields layout depth (f :: fs)).toList ++ (blank ++ '\x7d' :: rest))))))
      rw [printFields_cons (List.cons_ne_nil f fs), hseparator] at hfuel ⊢
      simp only [List.length_append, List.length_cons] at hfuel
      obtain ⟨n, rfl⟩ : ∃ n, m = n + 1 := ⟨m - 1, by omega⟩
      -- the value has budget to spare: the separator and what follows it were written, too
      have hvalue := hread depth (n + 1)
        (',' :: (space ++
          ((printFields layout depth (f :: fs)).toList ++ (blank ++ '\x7d' :: rest))))
        (ends_cons (by decide) _) (by omega)
      rw [← hskip] at hvalue
      have hkeys' : ((acc ++ [(k, v)] ++ f :: fs).map Prod.fst).Nodup := by
        rwa [List.append_assoc]
      have hrest := ih (List.cons_ne_nil f fs) hlegible
        (fun g hg => hfs g (List.mem_cons_of_mem (k, v) hg)) hkeys' n (by omega)
      simp only [List.append_assoc, List.cons_append] at htext ⊢
      rw [htext, fields_more hkey hvalue rfl, insert_of_not_mem v hnew,
        hbegins.skip_append hspace, hrest, List.append_assoc]
      rfl

end

mutual

/-- What is written for a value is read as the value. -/
theorem conveys {layout : Layout} (hl : layout.IsBlank) :
    ∀ v : Document, Legible v → layout.Conveys v
  | .null, _, depth, fuel, rest, hrest, _ => by
    rw [print]
    exact value_of_scalar rfl hrest fuel
  | .bool false, _, depth, fuel, rest, hrest, _ => by
    rw [print]
    exact value_of_scalar rfl hrest fuel
  | .bool true, _, depth, fuel, rest, hrest, _ => by
    rw [print]
    exact value_of_scalar rfl hrest fuel
  | .int n, h, depth, fuel, rest, hrest, _ => by
    rw [print]
    exact value_of_scalar (scalar_toString h) hrest fuel
  | .real x, h, depth, fuel, rest, hrest, _ => by
    rw [print]
    exact value_of_scalar h hrest fuel
  | .text s, h, depth, fuel, rest, _, _ => by
    obtain ⟨cs, htext, hread⟩ := string_stringText h rest
    rw [print, htext, value, hread]
    rfl
  | .list [], _, depth, fuel, rest, _, _ => by
    rw [print]
    rfl
  | .list (v :: vs), h, depth, fuel, rest, _, hfuel => by
    -- the first item tells a list from an empty one
    have hbegins := begins_printItems layout (depth + 1) h.1 vs
    rw [print_list (List.cons_ne_nil v vs)] at hfuel ⊢
    simp only [List.length_cons, List.length_append, List.length_nil] at hfuel
    -- the opening bracket takes one step of the reader
    obtain ⟨m, rfl⟩ : ∃ m, fuel = m + 1 := ⟨fuel - 1, by omega⟩
    rw [List.cons_append, List.append_assoc, List.append_assoc, List.append_assoc,
      value_list (hbegins.skip_append (hl (depth + 1)) _) fun c hc =>
        (hbegins.head?_append _ c hc).1]
    exact items_print hl (List.cons_ne_nil v vs) h (conveys_items hl (v :: vs) h) (hl depth)
      (by omega) []
  | .object [], _, depth, fuel, rest, _, _ => by
    rw [print]
    rfl
  | .object (f :: fs), h, depth, fuel, rest, _, hfuel => by
    -- and the first key tells an object from an empty one
    have hbegins := begins_printFields layout (depth + 1) f fs
    rw [print_object (List.cons_ne_nil f fs)] at hfuel ⊢
    simp only [List.length_cons, List.length_append, List.length_nil] at hfuel
    obtain ⟨m, rfl⟩ : ∃ m, fuel = m + 1 := ⟨fuel - 1, by omega⟩
    rw [List.cons_append, List.append_assoc, List.append_assoc, List.append_assoc,
      value_object (hbegins.skip_append (hl (depth + 1)) _) fun c hc =>
        (hbegins.head?_append _ c hc).2.1]
    exact fields_print hl (List.cons_ne_nil f fs) h.2 (conveys_fields hl (f :: fs) h.2) (hl depth)
      (by omega) h.1

theorem conveys_items {layout : Layout} (hl : layout.IsBlank) :
    ∀ vs : List Document, AllLegible vs → ∀ v ∈ vs, layout.Conveys v
  | [], _ => nofun
  | v :: vs, h => List.forall_mem_cons.mpr ⟨conveys hl v h.1, conveys_items hl vs h.2⟩

theorem conveys_fields {layout : Layout} (hl : layout.IsBlank) :
    ∀ fs : List (String × Document), FieldsLegible fs → ∀ f ∈ fs, layout.Conveys f.2
  | [], _ => nofun
  | (_, v) :: fs, h => List.forall_mem_cons.mpr ⟨conveys hl v h.2.1, conveys_fields hl fs h.2.2⟩

end

/-- A document is read back from its text. -/
theorem read_print {layout : Layout} (hl : layout.IsBlank) {v : Document} (hv : Legible v) :
    read (print layout 0 v) = .ok v := by
  have hbegins := begins_print layout 0 hv
  have hnone : ∀ c ∈ ([] : List Char), isSpace c = true := nofun
  have hskip := hbegins.skip_append hnone []
  have hmark : (print layout 0 v).toList.head? ≠ some (Char.ofNat 0xfeff) := fun h =>
    (hbegins.head?_append [] _ (by rw [List.append_nil]; exact h)).2.2 rfl
  have hvalue := conveys hl v hv 0 (2 * (print layout 0 v).toList.length + 1) [] ends_nil
    (by omega)
  rw [List.append_nil] at hvalue hskip
  rw [List.nil_append] at hskip
  rw [read, if_neg hmark, hskip]
  simp only [hvalue, bind, Except.bind]
  rfl

end Descent.Json
