import FixedWidth.Proofs.NormalForm
import FixedWidth.Proofs.RoundTrip
import FixedWidth.Proofs.WellFormed

/-!
# Proofs/Truncation — what a cut text still holds

    abcde fg   ──cut──▸   abc        A wants 5 characters, B wants 2
    A     B               B   ?

A field that lacks characters stays unset, and the cursor stays with it; so a narrower field behind
it reads what belongs to the wide one. `SafeToCut` says that no later field ends within the width of
a step that may fail. For a type without nested records and lists this is exactly what makes a cut
text set nothing that the whole text does not set (`cut_iff_safeToCut`).
-/

namespace FixedWidth.Table

/-! ## Fields within the width of a step -/

/-- The number of characters that a step takes, if the step alone decides it. -/
def Step.extent (step : Step) : Nat := (RecordType.stepWidth? step).getD 0

/-- Whether a step reads a text. -/
def Step.isField : Step → Bool
  | .field _ _ => true
  | _ => false

/-- The number of characters that steps take. -/
def extents (steps : List Step) : Nat := (steps.map Step.extent).sum

/-- No field ends less than `reach` characters behind the beginning of the steps. -/
def FieldsEndBeyond : (reach : Nat) → List Step → Prop
  | _, [] => True
  | reach, step :: rest =>
    (step.isField → reach ≤ step.extent) ∧ FieldsEndBeyond (reach - step.extent) rest

/-- **No later field ends within the width of a step**, counted from the end of the step. -/
def SafeToCut : List Step → Prop
  | [] => True
  | step :: rest => FieldsEndBeyond step.extent rest ∧ SafeToCut rest

instance decidableFieldsEndBeyond :
    (reach : Nat) → (steps : List Step) → Decidable (FieldsEndBeyond reach steps)
  | _, [] => .isTrue trivial
  | _, _ :: rest => @instDecidableAnd _ _ _ (decidableFieldsEndBeyond _ rest)

instance decidableSafeToCut : (steps : List Step) → Decidable (SafeToCut steps)
  | [] => .isTrue trivial
  | _ :: rest => @instDecidableAnd _ _ _ (decidableSafeToCut rest)

variable {steps : List Step} {reach : Nat}

theorem exists_of_not_fieldsEndBeyond (h : ¬ FieldsEndBeyond reach steps) :
    ∃ before index layout after, steps = before ++ .field index layout :: after ∧
      extents before + layout.width < reach := by
  induction steps generalizing reach with
  | nil => exact absurd trivial h
  | cons step rest ih =>
    by_cases hfirst : step.isField → reach ≤ step.extent
    · obtain ⟨before, index, layout, after, rfl, hlt⟩ := ih fun hrest => h ⟨hfirst, hrest⟩
      refine ⟨step :: before, index, layout, after, rfl, ?_⟩
      rw [extents, List.map_cons, List.sum_cons]
      rw [extents] at hlt
      omega
    · rw [Classical.not_imp, Nat.not_le] at hfirst
      cases step with
      | field index layout =>
        refine ⟨[], index, layout, rest, rfl, ?_⟩
        rw [extents, List.map_nil, List.sum_nil, Nat.zero_add]
        exact hfirst.2
      | _ => cases hfirst.1

/-- **Steps that are not safe to cut** have a field within the width of an earlier step. -/
theorem exists_of_not_safeToCut (h : ¬ SafeToCut steps) :
    ∃ before step between index layout after,
      steps = before ++ step :: (between ++ .field index layout :: after) ∧
        extents between + layout.width < step.extent := by
  induction steps with
  | nil => exact absurd trivial h
  | cons step rest ih =>
    by_cases hfirst : FieldsEndBeyond step.extent rest
    · obtain ⟨before, wide, between, index, layout, after, rfl, hlt⟩ :=
        ih fun hrest => h ⟨hfirst, hrest⟩
      exact ⟨step :: before, wide, between, index, layout, after, rfl, hlt⟩
    · obtain ⟨between, index, layout, after, rfl, hlt⟩ := exists_of_not_fieldsEndBeyond hfirst
      exact ⟨[], step, between, index, layout, after, rfl, hlt⟩

end FixedWidth.Table

namespace FixedWidth.Codec

open Schema (Node Registry)
open Table
open Wire (Cursor)

variable {table : TypeTable} {type : RecordType} {index : Nat} {text cut : List Char}
  {steps : List Step} {reach : Nat}

/-! ## What flat steps set -/

/-- What a step sets when it takes these characters. -/
def setting? (type : RecordType) (taken : List Char) : Step → Option (String × Value)
  | .field index layout =>
    (type.properties[index]?).map fun property =>
      (property.name, .text (String.ofList (layout.decode taken)))
  | _ => none

/-- What steps set, in their order; one that lacks characters takes none. -/
def settings (type : RecordType) : List Step → (text : List Char) → List (String × Value)
  | [], _ => []
  | step :: rest, text =>
    if step.extent ≤ text.length then
      (setting? type (text.take step.extent) step).toList
        ++ settings type rest (text.drop step.extent)
    else settings type rest text

theorem settings_cons_of_le {step : Step} (h : step.extent ≤ text.length) :
    settings type (step :: steps) text =
      (setting? type (text.take step.extent) step).toList
        ++ settings type steps (text.drop step.extent) := if_pos h

theorem settings_cons_of_lt {step : Step} (h : text.length < step.extent) :
    settings type (step :: steps) text = settings type steps text := if_neg (Nat.not_le.2 h)

section Step

variable {step : Step} {cursor : Cursor} (decodeRecord : RecordDecoder) (start : Nat)
  (record : Record)

/-- A step whose width is fixed takes its characters. -/
theorem decodeStep_of_le (hflat : (RecordType.stepWidth? step).isSome)
    (hle : step.extent ≤ cursor.rest.length) :
    decodeStep decodeRecord type start (record, cursor) step =
      (putValue record (setting? type (cursor.rest.take step.extent) step),
        cursor.advance step.extent) := by
  have htake : cursor.take step.extent =
      (some (cursor.rest.take step.extent), cursor.advance step.extent) := Cursor.take_of_le hle
  cases step with
  | field index layout =>
    have hvalue : cursor.takeValue layout =
        (some (layout.decode (cursor.rest.take layout.width)), cursor.advance layout.width) := by
      rw [Cursor.takeValue, show cursor.take layout.width = _ from htake]
      rfl
    rw [decodeStep, hvalue, setting?]
    cases type.properties[index]? <;> rfl
  | constant _ width | padding width =>
    rw [decodeStep, Cursor.skip, show cursor.take width = _ from htake]
    rfl
  | unresolved | cycle =>
    have hstay : (record, cursor) = (record, cursor.advance 0) := by rw [Cursor.advance_zero]
    exact hstay
  | nested | list => cases hflat

/-- A step that lacks characters leaves all as it is. -/
theorem decodeStep_of_lt (hflat : (RecordType.stepWidth? step).isSome)
    (hlt : cursor.rest.length < step.extent) :
    decodeStep decodeRecord type start (record, cursor) step = (record, cursor) := by
  cases step with
  | field index layout => rw [decodeStep, Cursor.takeValue_of_lt hlt]
  | constant _ width | padding width =>
    rw [decodeStep, Cursor.skip, Cursor.take_of_lt (show cursor.remaining < width from hlt)]
  | unresolved | cycle => rfl
  | nested | list => cases hflat

end Step

/-- **Reading flat steps sets their settings**, one after the other. -/
theorem foldl_decodeStep_flat (decodeRecord : RecordDecoder) (start : Nat)
    (hflat : ∀ step ∈ steps, (RecordType.stepWidth? step).isSome) (record : Record)
    (cursor : Cursor) :
    (steps.foldl (decodeStep decodeRecord type start) (record, cursor)).1 =
      (settings type steps cursor.rest).foldl (fun record pair => putValue record (some pair))
        record := by
  induction steps generalizing record cursor with
  | nil => rfl
  | cons step rest ih =>
    rw [List.forall_mem_cons] at hflat
    rw [List.foldl_cons]
    obtain hlt | hle := Nat.lt_or_ge cursor.rest.length step.extent
    · rw [decodeStep_of_lt _ _ _ hflat.1 hlt, settings_cons_of_lt hlt]
      exact ih hflat.2 _ _
    · rw [decodeStep_of_le _ _ _ hflat.1 hle, settings_cons_of_le hle, ih hflat.2,
        List.foldl_append]
      cases setting? type (cursor.rest.take step.extent) step <;> rfl

theorem isSome_of_foldlM_stepWidth? {total : Nat}
    (h : (steps.foldlM (fun total step => (RecordType.stepWidth? step).map (total + ·))
      total).isSome) : ∀ step ∈ steps, (RecordType.stepWidth? step).isSome := by
  induction steps generalizing total with
  | nil => nofun
  | cons step rest ih =>
    rw [List.foldlM_cons] at h
    cases hstep : RecordType.stepWidth? step with
    | none => simp [hstep] at h
    | some width =>
      rw [List.forall_mem_cons]
      exact ⟨by rw [hstep]; rfl, ih (by simpa [hstep] using h)⟩

/-- A type with a flat width has flat steps only. -/
theorem isSome_of_flatWidth? (h : type.flatWidth?.isSome) :
    ∀ step ∈ type.steps, (RecordType.stepWidth? step).isSome :=
  isSome_of_foldlM_stepWidth? h

/-- The name of the property that a step uses. -/
def stepName? (type : RecordType) (step : Step) : Option String :=
  (type.stepProperty? step).map (·.name)

/-- The steps of a type set different names. -/
theorem nodup_stepNames (hm : WellMade type.properties type.steps) :
    (type.steps.filterMap (stepName? type)).Nodup := by
  have hnames : type.steps.filterMap (stepName? type) =
      (type.steps.filterMap (·.property?)).filterMap fun index =>
        (type.properties[index]?).map (·.name) := by
    rw [List.filterMap_filterMap]
    exact List.filterMap_congr fun step _ => Option.map_bind ..
  rw [hnames]
  refine hm.nodup_uses.filterMap fun i j name hi hj => ?_
  obtain ⟨property, hp, rfl⟩ := Option.map_eq_some_iff.1 hi
  obtain ⟨other, ho, hname⟩ := Option.map_eq_some_iff.1 hj
  exact index_eq_of_nodup hm.nodup_names hp ho hname.symm

theorem setting?_name {step : Step} {taken : List Char} {pair : String × Value}
    (h : setting? type taken step = some pair) : stepName? type step = some pair.1 := by
  cases step with
  | field index layout =>
    obtain ⟨property, hp, rfl⟩ := Option.map_eq_some_iff.1 h
    have hstep : type.stepProperty? (.field index layout) = some property := hp
    rw [stepName?, hstep]
    rfl
  | _ => cases h

/-- Settings come in the order of their steps. -/
theorem names_settings_sublist (type : RecordType) (steps : List Step) (text : List Char) :
    ((settings type steps text).map Prod.fst).Sublist (steps.filterMap (stepName? type)) := by
  induction steps generalizing text with
  | nil => exact List.Sublist.refl _
  | cons step rest ih =>
    have hcons : (rest.filterMap (stepName? type)).Sublist
        ((step :: rest).filterMap (stepName? type)) := (List.sublist_cons_self ..).filterMap _
    obtain hlt | hle := Nat.lt_or_ge text.length step.extent
    · rw [settings_cons_of_lt hlt]
      exact (ih text).trans hcons
    · rw [settings_cons_of_le hle]
      cases hset : setting? type (text.take step.extent) step with
      | none => exact (ih _).trans hcons
      | some pair =>
        rw [List.filterMap_cons_some (setting?_name hset)]
        exact (ih _).cons_cons pair.1

/-- **A flat record holds what its steps set.** -/
theorem get?_decode_iff (found : table.types[index]? = some type)
    (hm : WellMade type.properties type.steps) (hflat : type.flatWidth?.isSome) {name : String}
    {value : Value} : (decode table index text).get? name = some value ↔
      (name, value) ∈ settings type type.steps text := by
  have hdecode : decode table index text = (settings type type.steps text).foldl
      (fun record pair => putValue record (some pair)) [] := by
    rw [decode, decodeWith, found]
    exact foldl_decodeStep_flat _ _ (isSome_of_flatWidth? hflat) [] (.ofText text)
  have hnodup : ((settings type type.steps text).map Prod.fst).Nodup :=
    (names_settings_sublist _ _ _).nodup (nodup_stepNames hm)
  have hget : (decode table index text).get? name =
      ((settings type type.steps text).find? (·.1 == name)).map Prod.snd := by
    have hfold := get?_foldl_putValue Prod.fst (fun pair : String × Value => some pair.2) name
      _ hnodup []
    rw [hdecode, Option.map_eq_bind]
    exact hfold.trans Option.or_none
  rw [hget, Option.map_eq_some_iff]
  constructor
  · rintro ⟨pair, hfind, rfl⟩
    have hname : pair.1 = name := by simpa using List.find?_some hfind
    exact hname ▸ List.mem_of_find?_eq_some hfind
  · intro hmem
    exact ⟨(name, value), find?_eq_of_nodup hnodup hmem, rfl⟩

/-! ## Cutting a text -/

/-- Nothing is set where the text ends before every field does. -/
theorem settings_eq_nil (hends : FieldsEndBeyond reach steps) (hsafe : SafeToCut steps)
    (hlt : text.length < reach) : settings type steps text = [] := by
  induction steps generalizing reach text with
  | nil => rfl
  | cons step rest ih =>
    obtain hshort | hle := Nat.lt_or_ge text.length step.extent
    · rw [settings_cons_of_lt hshort]
      exact ih hsafe.1 hsafe.2 hshort
    · have hnone : setting? type (text.take step.extent) step = none := by
        cases step with
        | field => exact absurd (hends.1 rfl) (by omega)
        | _ => rfl
      rw [settings_cons_of_le hle, hnone]
      exact ih hends.2 hsafe.2 (by rw [List.length_drop]; omega)

/-- **A cut text sets what the whole text sets**, or less. -/
theorem settings_subset (hsafe : SafeToCut steps) (hcut : cut <+: text) :
    settings type steps cut ⊆ settings type steps text := by
  obtain ⟨behind, rfl⟩ := hcut
  induction steps generalizing cut with
  | nil => exact List.Subset.refl _
  | cons step rest ih =>
    obtain hlt | hle := Nat.lt_or_ge cut.length step.extent
    · rw [settings_cons_of_lt hlt, settings_eq_nil hsafe.1 hsafe.2 hlt]
      exact List.nil_subset _
    · have hle' : step.extent ≤ (cut ++ behind).length := by
        rw [List.length_append]
        omega
      rw [settings_cons_of_le hle, settings_cons_of_le hle', List.take_append_of_le_length hle,
        List.drop_append_of_le_length hle]
      exact List.append_subset.2 ⟨List.subset_append_left _ _,
        List.subset_append_of_subset_right _ (ih hsafe.2)⟩

/-! ## Where a cut goes wrong -/

/-- The steps behind a text that is long enough read on where the others end. -/
theorem settings_append_subset (before after : List Step) (h : extents before ≤ text.length) :
    settings type after (text.drop (extents before)) ⊆ settings type (before ++ after) text := by
  induction before generalizing text with
  | nil => exact List.Subset.refl _
  | cons step rest ih =>
    rw [extents, List.map_cons, List.sum_cons] at h ⊢
    have hrest := @ih (text.drop step.extent) (by rw [List.length_drop, extents]; omega)
    rw [List.drop_drop] at hrest
    rw [List.cons_append, settings_cons_of_le (by omega)]
    exact List.subset_append_of_subset_right _ hrest

/-- A field that is reached sets what it takes. -/
theorem mem_settings_field {before after : List Step} {index : Nat} {layout : Layout}
    {property : Property} (hp : type.properties[index]? = some property)
    (htext : text.length = extents before + layout.width) :
    (property.name, .text (String.ofList (layout.decode (text.drop (extents before))))) ∈
      settings type (before ++ .field index layout :: after) text := by
  have hlength : (text.drop (extents before)).length = layout.width := by
    rw [List.length_drop]
    omega
  refine settings_append_subset before _ (by omega) ?_
  rw [settings_cons_of_le (show Step.extent (.field index layout) ≤ _ from hlength.ge)]
  refine List.mem_append_left _ ?_
  rw [setting?, hp, List.take_of_length_le (show _ ≤ Step.extent (.field index layout)
    from hlength.le)]
  exact List.mem_singleton_self _

/-- A text of one character that is neither blank nor padding stands for itself. -/
theorem decode_replicate {layout : Layout} {c : Char} (hblank : Unicode.isBlank c = false)
    (hpad : c ≠ layout.pad) (count : Nat) :
    layout.decode (List.replicate count c) = List.replicate count c := by
  have hdrop : ∀ p : Char → Bool, p c = false →
      (List.replicate count c).dropWhile p = List.replicate count c := by
    intro p hp
    cases count <;> simp [List.replicate_succ, hp]
  have hend : ∀ p : Char → Bool, p c = false →
      Unicode.dropEndWhile p (List.replicate count c) = List.replicate count c := by
    intro p hp
    rw [Unicode.dropEndWhile, List.reverse_replicate, hdrop p hp, List.reverse_replicate]
  have htrim : Unicode.trim (List.replicate count c) = List.replicate count c := by
    rw [Unicode.trim, hdrop _ hblank, hend _ hblank]
  have hstrip : layout.stripPad (List.replicate count c) = List.replicate count c := by
    have hne : (c == layout.pad) = false := by simpa using hpad
    rw [Layout.stripPad]
    split
    · exact hend _ hne
    · exact hdrop _ hne
  simp [Layout.decode, htrim, hstrip]

/-- Two texts of any width that no field of a layout confuses. -/
theorem exists_distinct (layout : Layout) : ∃ c d : Char, c ≠ d ∧
    (∀ count, layout.decode (List.replicate count c) = List.replicate count c) ∧
    ∀ count, layout.decode (List.replicate count d) = List.replicate count d := by
  by_cases ha : layout.pad = 'a'
  · exact ⟨'b', 'c', by decide, decode_replicate (by decide) (by rw [ha]; decide),
      decode_replicate (by decide) (by rw [ha]; decide)⟩
  · by_cases hb : layout.pad = 'b'
    · exact ⟨'a', 'c', by decide, decode_replicate (by decide) (Ne.symm ha),
        decode_replicate (by decide) (by rw [hb]; decide)⟩
    · exact ⟨'a', 'b', by decide, decode_replicate (by decide) (Ne.symm ha),
        decode_replicate (by decide) (Ne.symm hb)⟩

/-- A field behind a step that lacks characters takes what belongs to that step. -/
theorem mem_settings_of_lt {before between after : List Step} {wide : Step} {index : Nat}
    {layout : Layout} {property : Property} (hp : type.properties[index]? = some property)
    (hwide : extents between + layout.width < wide.extent)
    (htext : text.length = extents before + (extents between + layout.width)) :
    (property.name, .text (String.ofList
        (layout.decode (text.drop (extents before + extents between))))) ∈
      settings type (before ++ wide :: (between ++ .field index layout :: after)) text := by
  have hlength : (text.drop (extents before)).length = extents between + layout.width := by
    rw [List.length_drop]
    omega
  refine settings_append_subset before _ (by omega) ?_
  rw [settings_cons_of_lt (by rw [hlength]; exact hwide), ← List.drop_drop]
  exact mem_settings_field hp hlength

/-- **A cut inside a wide step** lets a field behind it read other characters. -/
theorem exists_cut_of_not_safeToCut (hm : WellMade type.properties type.steps)
    (hwide : ¬ SafeToCut type.steps) :
    ∃ text cut name content content', cut <+: text ∧ content ≠ content' ∧
      (name, .text content) ∈ settings type type.steps cut ∧
      (name, .text content') ∈ settings type type.steps text := by
  obtain ⟨before, wide, between, index, layout, after, hsteps, hlt⟩ :=
    exists_of_not_safeToCut hwide
  obtain ⟨property, hp, huse⟩ := hm.exists_property
    (show Step.field index layout ∈ type.steps by rw [hsteps]; simp) rfl
  have hpos := hm.layout_pos property (List.mem_of_getElem? hp) layout
    (by rw [PropertyKind.eq_of_field_mem_stepsAt huse]; rfl)
  obtain ⟨c, d, hne, hc, hd⟩ := exists_distinct layout
  -- the whole text has `c` up to the field and `d` in it; the cut one ends within the wide step
  have hoffset : extents (before ++ wide :: between) =
      extents before + (wide.extent + extents between) := by
    rw [extents, List.map_append, List.sum_append, List.map_cons, List.sum_cons]
    rfl
  refine ⟨List.replicate (extents (before ++ wide :: between)) c ++ List.replicate layout.width d,
    List.replicate (extents before + (extents between + layout.width)) c, property.name,
    String.ofList (List.replicate layout.width c), String.ofList (List.replicate layout.width d),
    ?_, ?_, ?_, ?_⟩
  · refine ⟨.replicate (wide.extent - layout.width) c ++ .replicate layout.width d, ?_⟩
    rw [← List.append_assoc, ← List.replicate_add, hoffset]
    congr 2
    omega
  · intro heq
    rw [String.ofList_inj, List.replicate_right_inj hpos.ne'] at heq
    exact hne heq
  · have hmem := @mem_settings_of_lt type (.replicate _ c) before between after wide index layout
      property hp hlt (List.length_replicate ..)
    rw [List.drop_replicate, ← Nat.add_assoc, Nat.add_sub_cancel_left, hc] at hmem
    rwa [hsteps, ← Nat.add_assoc]
  · have hmem := @mem_settings_field type
      (.replicate (extents (before ++ wide :: between)) c ++ .replicate layout.width d)
      (before ++ wide :: between) after index layout property hp (by simp)
    rw [List.drop_left' (List.length_replicate ..), hd, List.append_assoc, List.cons_append] at hmem
    rwa [hsteps]

/-! ## The rule -/

/-- **When a cut text only loses its last fields.** In a type without nested records and lists, all
that a cut text sets is set by the whole text too, to the same value, exactly if no later field ends
within the width of a step. -/
theorem cut_iff_safeToCut (registry : Registry) (id : String) (index : Nat) (type : RecordType)
    (found : (compile registry id).types[index]? = some type) (hflat : type.flatWidth?.isSome) :
    (∀ text cut : List Char, cut <+: text → ∀ name content,
        (decode (compile registry id) index cut).get? name = some (.text content) →
        (decode (compile registry id) index text).get? name = some (.text content)) ↔
      SafeToCut type.steps := by
  have hm := (compiles_compile registry id).wellMade type (List.mem_of_getElem? found)
  refine ⟨fun hcut => ?_, fun hsafe text cut hbegins name content hget => ?_⟩
  · by_contra hwide
    obtain ⟨text, cut, name, content, content', hbegins, hne, hmem, hmem'⟩ :=
      exists_cut_of_not_safeToCut hm hwide
    have hget := hcut text cut hbegins name content ((get?_decode_iff found hm hflat).2 hmem)
    rw [(get?_decode_iff found hm hflat).2 hmem'] at hget
    cases hget
    exact hne rfl
  · rw [get?_decode_iff found hm hflat] at hget ⊢
    exact settings_subset hsafe hbegins hget

/-- A format of two texts with these lengths. -/
def pair (first second : String) : Registry :=
  .ofDocuments [.ofRoots "t.xml" [{ Node.ofTag "fmtDef" ⟨"t.xml", 1⟩ with
    id := some "R"
    children := [
      { Node.ofTag "fString" ⟨"t.xml", 1⟩ with attributes := [("dataName", "A")] },
      { Node.ofTag "delimDecor" ⟨"t.xml", 1⟩ with attributes := [("length", first)] },
      { Node.ofTag "fString" ⟨"t.xml", 1⟩ with attributes := [("dataName", "B")] },
      { Node.ofTag "delimDecor" ⟨"t.xml", 1⟩ with attributes := [("length", second)] }] }]]

/-- The type of two texts with these widths. -/
def pairType (first second : Nat) : RecordType where
  name := "R"
  properties := [⟨"A", .text (some (.text first)), false, ⟨"t.xml", 1⟩⟩,
    ⟨"B", .text (some (.text second)), false, ⟨"t.xml", 1⟩⟩]
  steps := [.field 0 (.text first), .field 1 (.text second)]
  place := ⟨"t.xml", 1⟩

/-- Of a text that is cut inside the first field, the second one reads the beginning. -/
theorem pair_misreads_cut :
    (compile (pair "5" "2") "R").types[0]? = some (pairType 5 2) ∧
      (pairType 5 2).flatWidth? = some 7 ∧ "abc".toList <+: "abcdefg".toList ∧
      (decode (compile (pair "5" "2") "R") 0 "abc".toList).get? "B" = some (.text "ab") ∧
      (decode (compile (pair "5" "2") "R") 0 "abcdefg".toList).get? "B" = some (.text "fg") := by
  decide +kernel

/-- The wide text may come last, but not first. -/
theorem pair_safeToCut :
    (compile (pair "2" "5") "R").types[0]? = some (pairType 2 5) ∧
      (pairType 2 5).flatWidth? = some 7 ∧ SafeToCut (pairType 2 5).steps ∧
      (∀ text cut : List Char, cut <+: text → ∀ name content,
        (decode (compile (pair "2" "5") "R") 0 cut).get? name = some (.text content) →
        (decode (compile (pair "2" "5") "R") 0 text).get? name = some (.text content)) ∧
      ¬ SafeToCut (pairType 5 2).steps := by
  have found : (compile (pair "2" "5") "R").types[0]? = some (pairType 2 5) := by decide +kernel
  have hsafe : SafeToCut (pairType 2 5).steps := by decide
  exact ⟨found, by decide, hsafe, (cut_iff_safeToCut _ _ _ _ found (by decide)).2 hsafe, by decide⟩

end FixedWidth.Codec
