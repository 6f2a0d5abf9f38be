import FixedWidth.Proofs.Cycles
import FixedWidth.Proofs.Reading
import FixedWidth.Proofs.Writing

/-!
# Proofs/CodecEnds — every text is decoded and every record encoded

A decoded record has values of the kinds of its properties, and its dynamic lists are not longer
than the text (`Within`): each of their items took a character. `codec_ends` states this together
with the runs of `Proofs/Reading` and `Proofs/Writing`, for every type of every compiled table.
-/

namespace FixedWidth.Codec

open Schema (Registry)
open Table
open Wire (Cursor)

/-! ## Values whose lists are short -/

/-- What an item of a list holds. -/
def itemKind : ItemType → PropertyKind
  | .record target => .nested target
  | .text layout => .text layout

/-- **A value of a kind, in which every dynamic list has at most `limit` items.** All fields of a
record are properties of its type, and again values of their kinds. -/
inductive Within (table : TypeTable) (limit : Nat) : PropertyKind → Value → Prop
  | text {layout : Option Layout} {content : String} :
    Within table limit (.text layout) (.text content)
  | record {target : Nat} {type : RecordType} {fields : Record}
      (found : table.types[target]? = some type)
      (known : ∀ name value, (name, value) ∈ fields → (type.property? name).isSome)
      (values : ∀ name value property, (name, value) ∈ fields →
        type.property? name = some property → Within table limit property.kind value) :
    Within table limit (.nested target) (.record fields)
  | list {item : ItemType} {repetition : Repetition} {items : List Value}
      (length : repetition = .dynamic → items.length ≤ limit)
      (values : ∀ value ∈ items, Within table limit (itemKind item) value) :
    Within table limit (.list item repetition) (.list items)

/-- Each field is a property of the type and a value of its kind. -/
def Fits (table : TypeTable) (limit : Nat) (type : RecordType) (record : Record) : Prop :=
  ∀ name value, (name, value) ∈ record →
    ∃ property ∈ type.properties, property.name = name ∧ Within table limit property.kind value

variable {table : TypeTable} {limit : Nat} {type : RecordType} {record : Record}
  {property : Property} {step : Step} {start : Nat} {cursor next last : Cursor} {task : Task}
  {result value : Value} {name : String}

theorem Fits.empty : Fits table limit type [] := fun _ _ hmem => nomatch hmem

theorem Fits.insert (h : Fits table limit type record) (hp : property ∈ type.properties)
    (hv : Within table limit property.kind value) :
    Fits table limit type (record.insert property.name value) := by
  intro name' value' hmem
  obtain heq | hmem := NameMap.mem_of_mem_insert hmem
  · cases heq
    exact ⟨property, hp, rfl, hv⟩
  · exact h name' value' hmem

theorem Fits.within {target : Nat} (h : Fits table limit type record)
    (found : table.types[target]? = some type) (hm : WellMade type.properties type.steps) :
    Within table limit (.nested target) (.record record) := by
  refine .record found (fun name value hmem => ?_) (fun name value property hmem hp => ?_)
  · obtain ⟨property, hp, rfl, -⟩ := h name value hmem
    rw [hm.property?_eq hp]
    rfl
  · obtain ⟨property', hp', rfl, hv⟩ := h name value hmem
    rw [hm.property?_eq hp', Option.some.injEq] at hp
    exact hp ▸ hv

/-! ## What a step may set -/

/-- Texts are taken as often as asked for. -/
theorem exists_takeExactly (layout : Layout) (count : Nat) (cursor : Cursor) :
    ∃ texts : List String, (takeExactly layout count cursor).1 = texts.map .text ∧
      texts.length = count := by
  induction count generalizing cursor with
  | zero => exact ⟨[], rfl, rfl⟩
  | succ count ih =>
    obtain ⟨texts, htexts, hlength⟩ := ih (cursor.takeValue layout).2
    refine ⟨String.ofList ((cursor.takeValue layout).1.getD []) :: texts, ?_, ?_⟩
    · simp only [takeExactly, htexts, List.map_cons]
    · rw [List.length_cons, hlength]

theorem exists_of_nestedAction {target : Nat}
    (h : nestedAction property start cursor = .nested name target) :
    name = property.name ∧ property.kind = .nested target := by
  rw [nestedAction] at h
  split at h
  · split at h <;> cases h
    exact ⟨rfl, ‹_›⟩
  · cases h

/-- **A list property sets a list of texts**, or leaves it to a task: none if any number may come,
and else as many as are declared. -/
theorem put_of_listAction {item : ItemType} {repetition : Repetition}
    {set : Option (String × Value)} (hk : property.kind = .list item repetition)
    (h : listAction property start cursor = .put set next) :
    ∃ layout, ∃ texts : List String, item = .text layout ∧
      set = some (property.name, .list (texts.map .text)) ∧
      (repetition = .dynamic → texts = []) ∧
      ∀ count, repetition = .fixed count → texts.length = count := by
  rw [listAction, hk] at h
  rcases item with target | _ | layout
  · cases h
  · cases repetition with
    | dynamic =>
      cases h
      exact ⟨none, [], rfl, rfl, fun _ => rfl, fun _ h => (by cases h)⟩
    | fixed count =>
      cases h
      refine ⟨none, List.replicate count "", rfl, ?_, fun h => (by cases h), fun _ h => ?_⟩
      · rw [List.map_replicate]
      · cases h
        exact List.length_replicate
  · cases repetition with
    | dynamic => cases h
    | fixed count =>
      cases h
      obtain ⟨texts, htexts, hlength⟩ := exists_takeExactly layout count cursor
      refine ⟨some layout, texts, rfl, by rw [htexts], fun h => (by cases h), fun _ h => ?_⟩
      cases h
      exact hlength

theorem task_of_listAction (h : listAction property start cursor = .items name task) :
    name = property.name ∧
      ((∃ layout, property.kind = .list (.text (some layout)) .dynamic ∧ task = .texts layout) ∨
        ∃ target repetition, property.kind = .list (.record target) repetition ∧
          task = .records target property.recursive start repetition) := by
  rw [listAction] at h
  split at h <;> cases h
  · exact ⟨rfl, Or.inl ⟨_, ‹_›, rfl⟩⟩
  · exact ⟨rfl, Or.inr ⟨_, _, ‹_›, rfl⟩⟩

/-- **What a step sets is a value of its property.** -/
theorem within_of_stepAction {set : Option (String × Value)}
    (hm : WellMade type.properties type.steps) (hs : step ∈ type.steps)
    (h : stepAction type start cursor step = .put set next) (hr : Fits table limit type record) :
    Fits table limit type (putValue record set) := by
  cases step with
  | field index layout =>
    obtain ⟨property, hp, huse⟩ := hm.exists_property hs rfl
    rw [stepAction, hp] at h
    cases h
    have hk := PropertyKind.eq_of_field_mem_stepsAt huse
    cases (cursor.takeValue layout).1 with
    | none => exact hr
    | some text => exact hr.insert (List.mem_of_getElem? hp) (hk ▸ .text)
  | nested index =>
    obtain ⟨property, hp, -⟩ := hm.exists_property hs rfl
    rw [stepAction, hp] at h
    simp only [nestedAction] at h
    split at h
    · split at h <;> cases h
      exact hr
    · cases h
      exact hr
  | list index =>
    obtain ⟨property, hp, huse⟩ := hm.exists_property hs rfl
    obtain ⟨item, repetition, hk⟩ := PropertyKind.eq_of_list_mem_stepsAt huse
    rw [stepAction, hp] at h
    obtain ⟨layout, texts, rfl, rfl, hnone, -⟩ := put_of_listAction hk h
    refine hr.insert (List.mem_of_getElem? hp) ?_
    rw [hk]
    exact .list (fun hdynamic => by simp [hnone hdynamic]) (List.forall_mem_map.2 fun _ _ => .text)
  | constant | padding | unresolved | cycle =>
    cases h
    exact hr

theorem exists_of_stepAction_nested {target : Nat}
    (h : stepAction type start cursor step = .nested name target) :
    ∃ property, type.stepProperty? step = some property ∧ name = property.name ∧
      property.kind = .nested target := by
  cases step with
  | nested index =>
    rw [stepAction] at h
    split at h
    · exact ⟨_, ‹_›, exists_of_nestedAction h⟩
    · cases h
  | list index =>
    rw [stepAction] at h
    split at h
    · rw [listAction] at h
      split at h <;> cases h
    · cases h
  | field index layout => rw [stepAction] at h; split at h <;> cases h
  | constant | padding | unresolved | cycle => cases h

theorem exists_of_stepAction_items (h : stepAction type start cursor step = .items name task) :
    ∃ property, type.stepProperty? step = some property ∧ name = property.name ∧
      ((∃ layout, property.kind = .list (.text (some layout)) .dynamic ∧ task = .texts layout) ∨
        ∃ target repetition, property.kind = .list (.record target) repetition ∧
          task = .records target property.recursive start repetition) := by
  cases step with
  | nested index =>
    rw [stepAction] at h
    split at h
    · rw [nestedAction] at h
      split at h
      · split at h <;> cases h
      · cases h
    · cases h
  | list index =>
    rw [stepAction] at h
    split at h
    · exact ⟨_, ‹_›, task_of_listAction h⟩
    · cases h
  | field index layout => rw [stepAction] at h; split at h <;> cases h
  | constant | padding | unresolved | cycle => cases h

/-! ## Decoded records -/

/-- The result of a task: a record that fits its type, or items of which there are not more than
the characters that remain. -/
def Task.Yields (table : TypeTable) (limit : Nat) (cursor : Cursor) (result : Value) : Task → Prop
  | .steps type _ record rest =>
    type ∈ table.types → rest ⊆ type.steps → Fits table limit type record →
      ∃ fields, result = .record fields ∧ Fits table limit type fields
  | .texts layout =>
    0 < layout.width → ∃ items, result = .list items ∧ items.length ≤ cursor.remaining ∧
      ∀ value ∈ items, Within table limit (.text (some layout)) value
  | .records target _ _ repetition =>
    ∃ items, result = .list items ∧
      (repetition = .dynamic → items.length ≤ cursor.remaining) ∧
      ∀ value ∈ items, Within table limit (.nested target) value

/-- A nested record that fits its type is a value of the property. -/
theorem Fits.insert_of_nested {target : Nat} {inner : RecordType} {fields : Record}
    (hr : Fits table limit type record) (hm : WellMade inner.properties inner.steps)
    (action : stepAction type start cursor step = .nested name target)
    (found : table.types[target]? = some inner) (hfit : Fits table limit inner fields) :
    Fits table limit type (record.insert name (.record fields)) := by
  obtain ⟨property, hp, rfl, hk⟩ := exists_of_stepAction_nested action
  refine hr.insert (RecordType.mem_of_stepProperty? hp) ?_
  rw [hk]
  exact hfit.within found hm

/-- What a task yields for a list property is a value of the property. -/
theorem Fits.insert_of_items (hr : Fits table limit type record)
    (hm : WellMade type.properties type.steps)
    (action : stepAction type start cursor step = .items name task)
    (hyields : task.Yields table limit cursor value)
    (hlimit : cursor.position + cursor.remaining ≤ limit) :
    Fits table limit type (record.insert name value) := by
  obtain ⟨property, hstep, rfl, hcases⟩ := exists_of_stepAction_items action
  have hp := RecordType.mem_of_stepProperty? hstep
  obtain ⟨layout, hk, rfl⟩ | ⟨target, repetition, hk, rfl⟩ := hcases
  · have hw := hm.layout_pos property hp layout (by rw [hk]; rfl)
    obtain ⟨items, rfl, hlength, hall⟩ := hyields hw
    refine hr.insert hp ?_
    rw [hk]
    exact .list (fun _ => by omega) hall
  · obtain ⟨items, rfl, hlength, hall⟩ := hyields
    refine hr.insert hp ?_
    rw [hk]
    exact .list (fun hd => by have := hlength hd; omega) hall

/-- **Every task yields values of their kinds, with short lists.** -/
theorem Reads.yields (h : Reads table task cursor result last)
    (hm : ∀ type ∈ table.types, WellMade type.properties type.steps)
    (hlimit : cursor.position + cursor.remaining ≤ limit) :
    task.Yields table limit cursor result := by
  induction h with
  | done => exact fun _ _ hr => ⟨_, rfl, hr⟩
  | put action _ ih =>
    intro ht hrest hr
    rw [List.cons_subset] at hrest
    have hahead := ahead_of_stepAction action
    exact ih (hahead.total_eq.trans_le hlimit) ht hrest.2
      (within_of_stepAction (hm _ ht) hrest.1 action hr)
  | nested action found read _ ihRead ih =>
    intro ht hrest hr
    rw [List.cons_subset] at hrest
    have hinner := List.mem_of_getElem? found
    obtain ⟨fields, hfields, hfit⟩ := ihRead hlimit hinner (List.Subset.refl _) .empty
    cases hfields
    exact ih (read.ahead.total_eq.trans_le hlimit) ht hrest.2
      (hr.insert_of_nested (hm _ hinner) action found hfit)
  | items action read _ ihRead ih =>
    intro ht hrest hr
    rw [List.cons_subset] at hrest
    exact ih (read.ahead.total_eq.trans_le hlimit) ht hrest.2
      (hr.insert_of_items (hm _ ht) action (ihRead hlimit) hlimit)
  | textsEnd => exact fun _ => ⟨[], rfl, Nat.zero_le _, nofun⟩
  | @text layout cursor next _ content items taken _ ih =>
    intro hw
    have hlen := Cursor.remaining_of_takeValue taken
    have hahead := cursor.ahead_takeValue layout
    rw [taken] at hahead
    obtain ⟨items', hitems, hlength, hall⟩ := ih (hahead.total_eq.trans_le hlimit) hw
    cases hitems
    refine ⟨_, rfl, ?_, List.forall_mem_cons.2 ⟨.text, hall⟩⟩
    rw [List.length_cons]
    omega
  | recordsEnd | idle => exact ⟨[], rfl, fun _ => Nat.zero_le _, nofun⟩
  | record _ found read moved _ ihRead ih =>
    have hinner := List.mem_of_getElem? found
    have hahead := read.ahead
    obtain ⟨fields, hfields, hfit⟩ := ihRead hlimit hinner (List.Subset.refl _) .empty
    cases hfields
    obtain ⟨items, hitems, hlength, hall⟩ := ih (hahead.total_eq.trans_le hlimit)
    cases hitems
    refine ⟨_, rfl, ?_, List.forall_mem_cons.2 ⟨hfit.within found (hm _ hinner), hall⟩⟩
    -- An item of a dynamic list moved on, so fewer characters remain for those behind it.
    rintro rfl
    have hle := hlength rfl
    have hmoved := moved rfl
    have hpos := hahead.position_le
    have htotal := hahead.total_eq
    rw [List.length_cons]
    omega

/-- **Dynamic lists are not longer than the text.** -/
theorem Decodes.within {index : Nat} {text : List Char} {fields : Record}
    (h : Decodes table index text fields)
    (hm : ∀ type ∈ table.types, WellMade type.properties type.steps) :
    Within table text.length (.nested index) (.record fields) := by
  obtain ⟨type, last, found, read⟩ := h
  have htype := List.mem_of_getElem? found
  have hstart : (Cursor.ofText text).position + (Cursor.ofText text).remaining ≤ text.length := by
    simp [Cursor.ofText, Cursor.remaining]
  obtain ⟨fields', hfields, hfit⟩ := read.yields hm hstart htype (List.Subset.refl _) .empty
  cases hfields
  exact hfit.within found (hm type htype)

/-! ## Every type of every table -/

/-- **Decoding and encoding end.** For each type of a compiled table, each text has exactly one
run of the decoder and each record exactly one run of the encoder, whose results `decode` and
`encode` compute; no dynamic list of a decoded record has more items than the text has
characters. -/
theorem codec_ends (registry : Registry) (id : String) (index : Nat)
    (h : index < (compile registry id).types.length) :
    (∀ text fields, Decodes (compile registry id) index text fields ↔
        fields = decode (compile registry id) index text) ∧
      (∀ text, Within (compile registry id) text.length (.nested index)
        (.record (decode (compile registry id) index text))) ∧
      ∀ record out, Encodes (compile registry id) index record out ↔
        out = encode (compile registry id) index record := by
  have hrun := compiles_compile registry id
  have hm := hrun.wellMade
  obtain ⟨rank, hr⟩ := hrun.exists_ranked
  refine ⟨fun text fields => ⟨fun hd => hd.unique (decodes_decode hr hm h text), ?_⟩,
    fun text => (decodes_decode hr hm h text).within hm,
    fun record out => ⟨fun he => he.unique (encodes_encode hr hm h record), ?_⟩⟩
  · rintro rfl
    exact decodes_decode hr hm h text
  · rintro rfl
    exact encodes_encode hr hm h record

/-- A person is encoded, with persons inside, and so is a person decoded from any text. -/
theorem person_codec_ends :
    0 < (compile people "Person").types.length ∧
      (∀ text fields, Decodes (compile people "Person") 0 text fields ↔
        fields = decode (compile people "Person") 0 text) ∧
      (∀ text, Within (compile people "Person") text.length (.nested 0)
        (.record (decode (compile people "Person") 0 text))) ∧
      ∀ record out, Encodes (compile people "Person") 0 record out ↔
        out = encode (compile people "Person") 0 record := by
  have h : 0 < (compile people "Person").types.length := by decide +kernel
  exact ⟨h, codec_ends people "Person" 0 h⟩

end FixedWidth.Codec
