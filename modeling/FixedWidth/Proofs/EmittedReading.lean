import FixedWidth.Proofs.EmittedDecoder
import FixedWidth.Proofs.Reading

/-!
# Proofs/EmittedReading — emitted routines read what the codec reads

    default struct ──statements──▸ struct
                                     │ stands for
    no properties ─────steps─────▸ record

Every reading of the codec has a run of the routine (`emits_of_reads`). Once the variables are bound
(`Runs.bindings`), the struct that they hold stands for the record up to the properties whose steps
are still to come, which have their defaults (`InProgress`), and the effect of each statement does
what the action of its step does (`hasEffect`).
-/

namespace FixedWidth.Emit

open Codec (Action Reads Task goesOn hasProgress leftOver putValue stepAction takeExactly)
open Table (ItemType Property PropertyKind RecordType Repetition Step TypeTable WellMade)
open Wire (Cursor)

/-! ## Structs in progress -/

variable {program : Program} {options : Options} {table : TypeTable} {rank : Nat → Nat}
  {index start : Nat} {type : RecordType} {record : Record} {property : Property} {datum : Datum}
  {locals : Locals} {step : Step} {rest : List Step} {fields : List (String × Datum)}
  {cursor last : Cursor}

/-- A step that reads the property is still to come. -/
def Pending (type : RecordType) (rest : List Step) (property : Property) : Prop :=
  ∃ i ∈ rest.filterMap (·.property?), type.properties[i]? = some property

theorem not_pending_nil : ¬ Pending type [] property := by
  rintro ⟨i, hi, -⟩
  cases hi

theorem pending_cons_iff {i : Nat} {other : Property} (hs : step.property? = some i)
    (hp : type.properties[i]? = some property) (hne : other.name ≠ property.name) :
    Pending type (step :: rest) other ↔ Pending type rest other := by
  have hi : type.properties[i]? ≠ some other := by
    rw [hp]
    rintro ⟨⟩
    exact hne rfl
  simp [Pending, List.filterMap_cons_some hs, hi]

/-- Only texts without a place on the wire are never pending. -/
theorem eq_text_of_not_pending (hm : WellMade type.properties type.steps) {i : Nat}
    (hp : type.properties[i]? = some property) (hnot : ¬ Pending type type.steps property) :
    property.kind = .text none := by
  have hstep : property.kind.hasStep = false := by
    refine Bool.eq_false_of_not_eq_true fun hstep => hnot ⟨i, ?_, hp⟩
    rw [hm.filterMap_property?]
    exact List.mem_map.2
      ⟨(property, i), List.mem_filter.2 ⟨List.mem_zipIdx_iff_getElem?.2 hp, hstep⟩, rfl⟩
  rcases hk : property.kind with _ | _ | _
  · rename_i layout
    cases layout with
    | none => rfl
    | some layout => simp [hk, PropertyKind.hasStep] at hstep
  · simp [hk, PropertyKind.hasStep] at hstep
  · simp [hk, PropertyKind.hasStep] at hstep

/-- **The datum is what was read for the property**, or the default until then. -/
def ReadSoFar (program : Program) (table : TypeTable) (type : RecordType) (rest : List Step)
    (record : Record) (property : Property) (datum : Datum) : Prop :=
  (Pending type rest property → IsDefault program (.ofProperty (identifierOf table) property)
    datum ∧ record.get? property.name = none) ∧
  (¬ Pending type rest property → HasShape program (.ofProperty (identifierOf table) property)
    datum ∧ datum.value? program = record.get? property.name)

/-- A property that was just read is not pending any more, and the others are as they were. -/
theorem StructOf.read (hm : WellMade type.properties type.steps)
    (hfields : StructOf (ReadSoFar program table type (step :: rest) record) type fields) {i : Nat}
    (hs : step.property? = some i) (hnotMem : i ∉ rest.filterMap (·.property?))
    (hp : type.properties[i]? = some property) (hnone : record.get? property.name = none)
    {name : String} {current new : Datum} (hfield : fields[i]? = some (name, current))
    (hnew : HasShape program (.ofProperty (identifierOf table) property) new) :
    StructOf (ReadSoFar program table type rest
      (putValue record ((new.value? program).map (property.name, ·)))) type
      (fields.set i (name, new)) := by
  refine hfields.set hm.nodup_names hp hfield ⟨?_, fun _ => ⟨hnew, ?_⟩⟩ ?_
  · rintro ⟨j, hj, hpj⟩
    exact absurd (Table.index_eq_of_nodup hm.nodup_names hp hpj rfl ▸ hj) hnotMem
  · rw [Codec.get?_putValue_self, hnone, Option.or_none]
  · intro other datum hname hother
    have hget := Codec.get?_putValue_of_ne record (Ne.symm hname) (new.value? program)
    rwa [ReadSoFar, pending_cons_iff hs hp hname, ← hget] at hother

/-- **The struct stands for the record up to the steps that remain**, and its start is remembered if
a property is recursive. -/
structure InProgress (program : Program) (table : TypeTable) (index start : Nat) (type : RecordType)
    (rest : List Step) (record : Record) (locals : Locals) : Prop where
  subset : rest ⊆ type.steps
  nodup_uses : (rest.filterMap (·.property?)).Nodup
  fields : ∃ fields, locals.value = some (.record (identifierOf table index) fields) ∧
    StructOf (ReadSoFar program table type rest record) type fields
  start_eq : ∀ property ∈ type.properties, property.recursive = true → locals.start = some start
  unknown : ∀ name, name ∉ type.properties.map (·.name) → record.get? name = none
  ordered : NameMap.Ordered record

/-- **A default struct stands for a record without properties.** -/
theorem InProgress.begin (h : Emittable table rank) (found : table.types[index]? = some type)
    (hdefault : IsDefault (.ofTable options table) (.record (identifierOf table index)) datum)
    {remembered : Option Nat}
    (hstart : ∀ property ∈ type.properties, property.recursive = true → remembered = some start) :
    InProgress (.ofTable options table) table index start type type.steps []
      ⟨remembered, some datum⟩ := by
  have hm := h.wellMade type (List.mem_of_getElem? found)
  obtain ⟨fields, rfl, hfields⟩ := (isDefault_record_iff h found).1 hdefault
  refine ⟨List.Subset.refl _, hm.nodup_uses, ⟨fields, rfl, hfields.names, ?_⟩, hstart,
    fun _ _ => rfl, .nil⟩
  intro i property name datum hp hfield
  have hd := hfields.data i property name datum hp hfield
  refine ⟨fun _ => ⟨hd, rfl⟩, fun hnot => ⟨hd.hasShape, ?_⟩⟩
  rw [FieldShape.ofProperty, eq_text_of_not_pending hm hp hnot] at hd
  cases hd
  rfl

/-- A step without a property leaves the struct as it is. -/
theorem InProgress.pass
    (h : InProgress program table index start type (step :: rest) record locals)
    (hs : step.property? = none) :
    InProgress program table index start type rest record locals := by
  have huses : (step :: rest).filterMap (·.property?) = rest.filterMap (·.property?) :=
    List.filterMap_cons_none hs
  have hread : ReadSoFar program table type (step :: rest) record =
      ReadSoFar program table type rest record := by
    funext property datum
    simp only [ReadSoFar, Pending, huses]
  exact ⟨(List.cons_subset.1 h.subset).2, huses ▸ h.nodup_uses, hread ▸ h.fields, h.start_eq,
    h.unknown, h.ordered⟩

/-- The field of a pending property has its default, and may be set. -/
theorem InProgress.exists_field (h : Emittable table rank)
    (hi : InProgress program table index start type (step :: rest) record locals)
    (found : table.types[index]? = some type) {i : Nat} (hs : step.property? = some i)
    (hp : type.properties[i]? = some property) :
    ∃ name current, (fieldIdentifiers (type.properties.map (·.name)))[i]? = some name ∧
      locals.get? name = some current ∧
      IsDefault program (.ofProperty (identifierOf table) property) current ∧
      (∀ new, HasShape program (.ofProperty (identifierOf table) property) new →
        InProgress program table index start type rest
          (putValue record ((new.value? program).map (property.name, ·))) (locals.set name new)) ∧
      locals.set name current = locals := by
  have hm := h.wellMade type (List.mem_of_getElem? found)
  obtain ⟨remembered, value⟩ := locals
  obtain ⟨hsubset, hnodup, ⟨fields, rfl, hfields⟩, hstart, hunknown, hordered⟩ := hi
  rw [List.filterMap_cons_some hs, List.nodup_cons] at hnodup
  have hpending : Pending type (step :: rest) property :=
    ⟨i, by rw [List.filterMap_cons_some hs]; exact List.mem_cons_self, hp⟩
  obtain ⟨name, current, hname, hfield, hlookup, hdatum, -⟩ := hfields.exists_datum hp
  obtain ⟨hdefault, hnone⟩ := hdatum hpending
  have hset (new : Datum) :
      Locals.set ⟨remembered, some (.record (identifierOf table index) fields)⟩ name new =
        ⟨remembered, some (.record (identifierOf table index) (fields.set i (name, new)))⟩ := by
    rw [Locals.set, Option.map_some, Datum.set_record _ hfields.nodup_names hfield]
  refine ⟨name, current, hname, hlookup, hdefault, fun new hnew => ?_, ?_⟩
  · rw [hset]
    refine ⟨(List.cons_subset.1 hsubset).2, hnodup.2,
      ⟨_, rfl, hfields.read hm hs hnodup.1 hp hnone hfield hnew⟩, hstart, fun other hother => ?_,
      Codec.ordered_putValue hordered _⟩
    have hne : property.name ≠ other := by
      rintro rfl
      exact hother (List.mem_map_of_mem (List.mem_of_getElem? hp))
    exact (Codec.get?_putValue_of_ne record hne _).trans (hunknown other hother)
  · obtain ⟨hlt, hentry⟩ := List.getElem?_eq_some_iff.1 hfield
    rw [hset, ← hentry, List.set_getElem_self]

/-- **At the end the struct stands for the record.** -/
theorem InProgress.finish (h : Emittable table rank)
    (hi : InProgress (.ofTable options table) table index start type [] record locals)
    (found : table.types[index]? = some type) :
    ∃ datum, locals.value = some datum ∧
      HasShape (.ofTable options table) (.record (identifierOf table index)) datum ∧
      datum.value? (.ofTable options table) = some (.record record) := by
  obtain ⟨-, -, ⟨fields, hvalue, hfields⟩, -, hunknown, hordered⟩ := hi
  have hshape : HasShape (.ofTable options table) (.record (identifierOf table index))
      (.record (identifierOf table index) fields) :=
    (hasShape_record_iff h found).2 ⟨fields, rfl, hfields.names, fun i property name datum hp hf =>
      ((hfields.data i property name datum hp hf).2 not_pending_nil).1⟩
  refine ⟨_, hvalue, hshape, ?_⟩
  rw [hshape.value?_eq, (ordered_recordOf _ _ _).ext hordered fun name => ?_]
  by_cases hname : name ∈ type.properties.map (·.name)
  · obtain ⟨property, hmem, rfl⟩ := List.mem_map.1 hname
    obtain ⟨i, hp⟩ := List.mem_iff_getElem?.1 hmem
    obtain ⟨field, datum, -, hfield, -, -, hsettled⟩ := hfields.exists_datum hp
    exact (get?_recordOf h options found hfields hp hfield).trans (hsettled not_pending_nil).2
  · exact (get?_recordOf_eq_none h options found hfields hname).trans (hunknown name hname).symm

/-! ## Effects and actions -/

namespace RecordLoop

/-- The loop of a list in a struct that began at position `start`. -/
def ofList (recursive : Bool) (start : Nat) : Repetition → RecordLoop
  | .dynamic => all (if recursive then some start else none)
  | .fixed count => if recursive then first start count else counted count

/-- **A loop goes on where the list does**: no cursor stands before the start. -/
theorem goes_ofList (recursive : Bool) (repetition : Repetition) (h : start ≤ cursor.position) :
    (ofList recursive start repetition).goes cursor = goesOn recursive start cursor repetition := by
  have hne : (cursor.position == start) = !decide (start < cursor.position) := by
    rw [Bool.eq_iff_iff]
    simp
    omega
  cases repetition with
  | dynamic => cases recursive <;> simp [ofList, goes, goesOn, hasProgress]
  | fixed count =>
    cases recursive <;> cases count <;> simp [ofList, goes, goesOn, hasProgress, hne]

theorem next_ofList (recursive : Bool) (start : Nat) (repetition : Repetition) :
    (ofList recursive start repetition).next = ofList recursive start (leftOver repetition) := by
  cases repetition <;> cases recursive <;> rfl

theorem endsIdle_ofList {recursive : Bool} {repetition : Repetition} :
    (ofList recursive start repetition).endsIdle = true ↔ repetition = .dynamic := by
  cases repetition <;> cases recursive <;> simp [ofList, endsIdle]

end RecordLoop

/-- **The effect of a statement does what the action of a step does**, and leaves a struct that is
in progress. -/
inductive Follows (program : Program) (table : TypeTable) (index start : Nat) (type : RecordType)
    (rest : List Step) (record : Record) : Action → Effect → Prop
  | put {value : Option (String × Value)} {next : Cursor} {locals : Locals}
      (progress : InProgress program table index start type rest (putValue record value) locals) :
    Follows program table index start type rest record (.put value next) (.put locals next)
  | nested {name : String} {target : Nat} {store : Datum → Locals}
      (progress : ∀ inner fields,
        HasShape program (.record (identifierOf table target)) inner →
        inner.value? program = some (.record fields) →
        InProgress program table index start type rest (record.insert name (.record fields))
          (store inner)) :
    Follows program table index start type rest record (.nested name target)
      (.run (.struct (identifierOf table target)) store)
  | texts {name : String} {layout : Layout} {store : Datum → Locals}
      (progress : ∀ items : List String, InProgress program table index start type rest
        (record.insert name (.list (items.map .text))) (store (.texts items))) :
    Follows program table index start type rest record (.items name (.texts layout))
      (.run (.texts layout []) store)
  | records {name : String} {target : Nat} {recursive : Bool} {repetition : Repetition}
      {store : Datum → Locals}
      (progress : ∀ items : List Datum,
        (∀ item ∈ items, HasShape program (.record (identifierOf table target)) item) →
        InProgress program table index start type rest
          (record.insert name (.list (items.map fun item => .record (item.recordOf program))))
          (store (.records items))) :
    Follows program table index start type rest record
      (.items name (.records target recursive start repetition))
      (.run (.records (identifierOf table target) (.ofList recursive start repetition) []) store)

/-- **Texts are pushed** as they are taken. -/
theorem exists_pushTexts (layout : Layout) (count : Nat) (cursor : Cursor) :
    ∃ texts : List String, (takeExactly layout count cursor).1 = texts.map .text ∧
      ∀ items, pushTexts layout count items cursor =
        (items ++ texts, (takeExactly layout count cursor).2) := by
  induction count generalizing cursor with
  | zero => exact ⟨[], rfl, fun items => by simp [pushTexts, takeExactly]⟩
  | succ count ih =>
    obtain ⟨texts, htexts, hpush⟩ := ih (cursor.takeValue layout).2
    refine ⟨String.ofList ((cursor.takeValue layout).1.getD []) :: texts, ?_, fun items => ?_⟩
    · simp [takeExactly, htexts]
    · rw [pushTexts, takeExactly]
      simp only [hpush, List.append_assoc, List.singleton_append]
      cases (cursor.takeValue layout).1 <;> rfl

/-- The step has a statement, whose effect does what the step does. -/
def HasEffect (program : Program) (table : TypeTable) (index start : Nat) (type : RecordType)
    (rest : List Step) (record : Record) (locals : Locals) (cursor : Cursor) (step : Step) : Prop :=
  ∃ statement effect, DecodeStatement.ofStep? (identifierOf table) type
      (fieldIdentifiers (type.properties.map (·.name))) step = some statement ∧
    (∀ initial, statement.effect? initial locals cursor = some effect) ∧
    Follows program table index start type rest record (stepAction type start cursor step) effect

/-- The statement of a text reads its field. -/
theorem hasEffect_field (h : Emittable table rank) (found : table.types[index]? = some type)
    {i : Nat} {layout : Layout}
    (hi : InProgress program table index start type (.field i layout :: rest) record locals)
    (cursor : Cursor) :
    HasEffect program table index start type rest record locals cursor (.field i layout) := by
  have hm := h.wellMade type (List.mem_of_getElem? found)
  obtain ⟨property, hp, huse⟩ := hm.exists_property (hi.subset List.mem_cons_self) rfl
  have hk := PropertyKind.eq_of_field_mem_stepsAt huse
  obtain ⟨name, current, hname, hget, -, hset, -⟩ := hi.exists_field h found rfl hp
  refine ⟨.takeField name layout, _, by rw [DecodeStatement.ofStep?, hname, Option.getD_some],
    fun initial => by simp only [DecodeStatement.effect?, hget, Option.map_some]; rfl, ?_⟩
  have hprogress := hset (.text ((cursor.takeValue layout).1.map String.ofList))
    (by rw [FieldShape.ofProperty, hk]; exact .text)
  rw [Datum.value?, Option.map_map, Option.map_map] at hprogress
  rw [stepAction, hp]
  exact .put hprogress

/-- The statement of a nested record reads its struct, in a box if the property is recursive. -/
theorem hasEffect_nested (h : Emittable table rank) (found : table.types[index]? = some type)
    {i : Nat} (hi : InProgress program table index start type (.nested i :: rest) record locals)
    (cursor : Cursor) :
    HasEffect program table index start type rest record locals cursor (.nested i) := by
  have hm := h.wellMade type (List.mem_of_getElem? found)
  obtain ⟨property, hp, huse⟩ := hm.exists_property (hi.subset List.mem_cons_self) rfl
  obtain ⟨target, hk⟩ := PropertyKind.eq_of_nested_mem_stepsAt huse
  obtain ⟨name, current, hname, hget, hdefault, hset, hsame⟩ := hi.exists_field h found rfl hp
  have hstatement := DecodeStatement.ofStep?_nested (identifierOf table)
    (fieldIdentifiers (type.properties.map (·.name))) hp hk
  rw [hname, Option.getD_some] at hstatement
  have haction : stepAction type start cursor (.nested i) =
      if !property.recursive || (hasProgress start cursor && !cursor.isAtEnd) then
        .nested property.name target
      else .put none cursor := by
    rw [stepAction, hp]
    simp only [Codec.nestedAction, hk]
  simp only [FieldShape.ofProperty, hk] at hdefault hset
  cases hrec : property.recursive with
  | false =>
    simp only [hrec, Bool.false_eq_true, if_false] at hstatement hset
    refine ⟨_, _, hstatement, fun initial => by simp only [DecodeStatement.effect?, hget]; rfl, ?_⟩
    rw [haction, hrec, Bool.not_false, Bool.true_or, if_pos rfl]
    refine .nested fun inner fields hinner hvalue => ?_
    have hprogress := hset inner hinner
    rwa [hvalue] at hprogress
  | true =>
    simp only [hrec, if_true] at hstatement hset hdefault
    have hstart := hi.start_eq property (List.mem_of_getElem? hp) hrec
    refine ⟨_, _, hstatement,
      fun initial => by simp only [DecodeStatement.effect?, hstart, hget]; rfl, ?_⟩
    rw [haction, hrec, Bool.not_true, Bool.false_or, hasProgress]
    split
    · refine .nested fun inner fields hinner hvalue => ?_
      have hprogress := hset (.boxed inner) (.boxed hinner)
      rwa [Datum.value?, hvalue] at hprogress
    · have hprogress := hset current hdefault.hasShape
      rw [hsame] at hprogress
      cases hdefault
      exact .put hprogress

/-- The statement of a list of structs runs a loop. -/
theorem effect?_ofList_record (identify : Nat → String) {field : String} {items : List Datum}
    (hget : locals.get? field = some (.records items))
    (hstart : property.recursive = true → locals.start = some start) (target : Nat)
    (repetition : Repetition) (initial : Datum) (cursor : Cursor) :
    (DecodeStatement.ofList identify field property (.record target) repetition).effect? initial
        locals cursor =
      some (.run (.records (identify target) (.ofList property.recursive start repetition) items)
        (locals.set field)) := by
  cases hrec : property.recursive with
  | true =>
    cases repetition <;>
      simp only [DecodeStatement.ofList, hrec, if_true, DecodeStatement.effect?, hstart hrec,
        Option.bind_some, DecodeStatement.effect?.loop, hget, RecordLoop.ofList]
  | false =>
    cases repetition <;>
      simp only [DecodeStatement.ofList, hrec, if_false, Bool.false_eq_true,
        DecodeStatement.effect?, DecodeStatement.effect?.loop, hget, RecordLoop.ofList]

/-- The statement of a list reads its items. -/
theorem hasEffect_list (h : Emittable table rank) (found : table.types[index]? = some type)
    {i : Nat} (hi : InProgress program table index start type (.list i :: rest) record locals)
    (cursor : Cursor) :
    HasEffect program table index start type rest record locals cursor (.list i) := by
  have hm := h.wellMade type (List.mem_of_getElem? found)
  obtain ⟨property, hp, huse⟩ := hm.exists_property (hi.subset List.mem_cons_self) rfl
  obtain ⟨item, repetition, hk⟩ := PropertyKind.eq_of_list_mem_stepsAt huse
  obtain ⟨name, current, hname, hget, hdefault, hset, hsame⟩ := hi.exists_field h found rfl hp
  rw [HasEffect, DecodeStatement.ofStep?_list _ _ hp hk, hname, Option.getD_some]
  simp only [Option.some.injEq, exists_and_left, exists_eq_left', stepAction, hp,
    Codec.listAction, hk]
  simp only [FieldShape.ofProperty, hk] at hdefault hset
  cases item with
  | record target =>
    cases hdefault
    have hstart := hi.start_eq property (List.mem_of_getElem? hp)
    refine ⟨_, fun initial => effect?_ofList_record _ hget hstart target repetition initial cursor,
      .records fun items hitems => ?_⟩
    have hprogress := hset (.records items) (.records hitems)
    rwa [Datum.value?, itemValues_of_forall hitems] at hprogress
  | text layout =>
    cases hdefault
    have htexts : ∀ items : List String, InProgress program table index start type rest
        (record.insert property.name (.list (items.map .text))) (locals.set name (.texts items)) :=
      fun items => hset (.texts items) .texts
    rcases layout with _ | layout <;> rcases repetition with _ | count
    · have hprogress := htexts []
      rw [hsame] at hprogress
      exact ⟨_, fun _ => rfl, .put hprogress⟩
    · have hprogress := htexts (List.replicate count "")
      rw [List.map_replicate] at hprogress
      exact ⟨_, fun initial => by
        simp only [DecodeStatement.ofList, DecodeStatement.effect?, hget]; rfl, .put hprogress⟩
    · exact ⟨_, fun initial => by simp only [DecodeStatement.ofList, DecodeStatement.effect?, hget],
        .texts htexts⟩
    · obtain ⟨texts, htaken, hpush⟩ := exists_pushTexts layout count cursor
      have hprogress := htexts texts
      rw [← htaken] at hprogress
      exact ⟨_, fun initial => by simp only [DecodeStatement.ofList, DecodeStatement.effect?, hget,
        hpush, List.nil_append], .put hprogress⟩

/-- **Each step has a statement, whose effect does what the step does.** -/
theorem hasEffect (h : Emittable table rank) (found : table.types[index]? = some type)
    (hi : InProgress program table index start type (step :: rest) record locals)
    (cursor : Cursor) :
    HasEffect program table index start type rest record locals cursor step := by
  cases step with
  | field i layout => exact hasEffect_field h found hi cursor
  | nested i => exact hasEffect_nested h found hi cursor
  | list i => exact hasEffect_list h found hi cursor
  | constant | padding | unresolved | cycle => exact ⟨_, _, rfl, fun _ => rfl, .put (hi.pass rfl)⟩

/-! ## Runs and readings -/

/-- The first statements of a routine bind its variables. -/
theorem Runs.bindings {statements : List DecodeStatement} {initial : Datum} {result : DecodeResult}
    (h : Runs program (.body initial
      ⟨if type.properties.any (·.recursive) then some cursor.position else none, some initial⟩
      statements result) cursor datum last) :
    Runs program (.body initial ⟨none, none⟩ (DecodeStatement.bindings type ++ statements) result)
      cursor datum last := by
  rw [DecodeStatement.bindings]
  split at h
  · rw [if_pos ‹_›]
    exact .put rfl (.put rfl h)
  · rw [if_neg ‹_›]
    exact .put rfl h

/-- The statements of the steps that remain finish a struct with this value. -/
def Finishes (options : Options) (table : TypeTable) (index : Nat) (type : RecordType)
    (rest : List Step) (locals : Locals) (cursor : Cursor) (result : Value) (last : Cursor) :
    Prop :=
  ∃ final, HasShape (.ofTable options table) (.record (identifierOf table index)) final ∧
    final.value? (.ofTable options table) = some result ∧
    ∀ initial, Runs (.ofTable options table) (.body initial locals (rest.filterMap
      (DecodeStatement.ofStep? (identifierOf table) type
        (fieldIdentifiers (type.properties.map (·.name))))) .value) cursor final last

section Finishes

variable {statement : DecodeStatement} {next : Cursor} {result : Value}

theorem Finishes.put {locals' : Locals}
    (hstatement : DecodeStatement.ofStep? (identifierOf table) type
      (fieldIdentifiers (type.properties.map (·.name))) step = some statement)
    (heffect : ∀ initial, statement.effect? initial locals cursor = some (.put locals' next))
    (h : Finishes options table index type rest locals' next result last) :
    Finishes options table index type (step :: rest) locals cursor result last := by
  obtain ⟨final, hshape, hvalue, hrun⟩ := h
  refine ⟨final, hshape, hvalue, fun initial => ?_⟩
  rw [List.filterMap_cons_some hstatement]
  exact .put (heffect initial) (hrun initial)

theorem Finishes.run {job : DecodeJob} {store : Datum → Locals} {inner : Datum}
    (hstatement : DecodeStatement.ofStep? (identifierOf table) type
      (fieldIdentifiers (type.properties.map (·.name))) step = some statement)
    (heffect : ∀ initial, statement.effect? initial locals cursor = some (.run job store))
    (hdone : Runs (.ofTable options table) job cursor inner next)
    (h : Finishes options table index type rest (store inner) next result last) :
    Finishes options table index type (step :: rest) locals cursor result last := by
  obtain ⟨final, hshape, hvalue, hrun⟩ := h
  refine ⟨final, hshape, hvalue, fun initial => ?_⟩
  rw [List.filterMap_cons_some hstatement]
  exact .run (heffect initial) hdone (hrun initial)

end Finishes

/-- **What a task of the codec reads is read by jobs of the emitted source**: the steps of a record
by the statements that remain, and the items of a list by a loop. -/
def Emits (options : Options) (table : TypeTable) : Task → Cursor → Value → Cursor → Prop
  | .steps type start record rest, cursor, result, last => ∀ index locals,
    table.types[index]? = some type → start ≤ cursor.position →
      InProgress (.ofTable options table) table index start type rest record locals →
      Finishes options table index type rest locals cursor result last
  | .texts layout, cursor, result, last => ∃ items : List String,
    result = .list (items.map .text) ∧ ∀ pushed,
      Runs (.ofTable options table) (.texts layout pushed) cursor (.texts (pushed ++ items)) last
  | .records target recursive start repetition, cursor, result, last => start ≤ cursor.position →
    ∃ items : List Datum,
      (∀ item ∈ items, HasShape (.ofTable options table)
        (.record (identifierOf table target)) item) ∧
      result = .list (items.map fun item => .record (item.recordOf (.ofTable options table))) ∧
      ∀ pushed, Runs (.ofTable options table) (.records (identifierOf table target)
        (.ofList recursive start repetition) pushed) cursor (.records (pushed ++ items)) last

/-- The routine of a struct reads what the steps of its type read. -/
theorem Emits.exists_struct (h : Emittable table rank) (options : Options)
    (found : table.types[index]? = some type) {fields : Record}
    (hsteps : Emits options table (.steps type cursor.position [] type.steps) cursor
      (.record fields) last) :
    ∃ datum, HasShape (.ofTable options table) (.record (identifierOf table index)) datum ∧
      datum.value? (.ofTable options table) = some (.record fields) ∧
      Runs (.ofTable options table) (.struct (identifierOf table index)) cursor datum last := by
  obtain ⟨hlt, -⟩ := List.getElem?_eq_some_iff.1 found
  have hmem := List.mem_of_getElem? found
  have hm := h.wellMade type hmem
  obtain ⟨default, hdefault⟩ := exists_isDefault h options hlt
  have hstart : ∀ property ∈ type.properties, property.recursive = true →
      (if type.properties.any (·.recursive) then some cursor.position else none) =
        some cursor.position := fun property hp hrec =>
    if_pos (List.any_eq_true.2 ⟨property, hp, hrec⟩)
  obtain ⟨datum, hshape, hvalue, hrun⟩ :=
    hsteps index _ found le_rfl (.begin h found hdefault hstart)
  refine ⟨datum, hshape, hvalue, .struct (find?_ofTable h found)
    (EmittedType.decodeRoutine?_ofType hm) ?_
    (DecodeRoutine.closed_ofType hm (h.recursive_fits type hmem) _ _) hdefault ?_⟩
  · exact (DecodeRoutine.type_ofType ..).trans (identifierOf_eq options found).symm
  · simp only [EmittedType.ofType, Artifact.ofType, DecodeRoutine.ofType]
    split
    · rename_i hempty
      rw [List.isEmpty_iff.1 hempty] at hrun
      cases hrun default with
      | done answer =>
        cases answer
        exact .done rfl
    · exact .bindings (hrun default)

section Rules

variable {next : Cursor} {result : Value} {target : Nat} {inner : RecordType} {fields : Record}

theorem Emits.put {value : Option (String × Value)} (h : Emittable table rank)
    (action : stepAction type start cursor step = .put value next)
    (htail : Emits options table (.steps type start (putValue record value) rest) next result
      last) :
    Emits options table (.steps type start record (step :: rest)) cursor result last := by
  intro index locals found hstart hi
  obtain ⟨statement, effect, hstatement, heffect, hfollows⟩ := hasEffect h found hi cursor
  rw [action] at hfollows
  cases hfollows with
  | put progress =>
    have hnext := hstart.trans (Codec.ahead_of_stepAction action).position_le
    exact .put hstatement heffect (htail index _ found hnext progress)

/-- The struct inside is read by its own routine. -/
theorem Emits.nested {name : String} (h : Emittable table rank)
    (action : stepAction type start cursor step = .nested name target)
    (found : table.types[target]? = some inner) (hahead : cursor.Ahead next)
    (hread : Emits options table (.steps inner cursor.position [] inner.steps) cursor
      (.record fields) next)
    (htail : Emits options table (.steps type start (record.insert name (.record fields)) rest)
      next result last) :
    Emits options table (.steps type start record (step :: rest)) cursor result last := by
  intro index locals hindex hstart hi
  obtain ⟨statement, effect, hstatement, heffect, hfollows⟩ := hasEffect h hindex hi cursor
  rw [action] at hfollows
  cases hfollows with
  | nested progress =>
    obtain ⟨struct, hshape, hvalue, hrun⟩ := hread.exists_struct h options found
    exact .run hstatement heffect hrun (htail index _ hindex (hstart.trans hahead.position_le)
      (progress struct fields hshape hvalue))

/-- The items of a list are read by a loop that begins with none. -/
theorem Emits.items {name : String} {task : Task} {value : Value} (h : Emittable table rank)
    (action : stepAction type start cursor step = .items name task) (hahead : cursor.Ahead next)
    (hread : Emits options table task cursor value next)
    (htail : Emits options table (.steps type start (record.insert name value) rest) next result
      last) :
    Emits options table (.steps type start record (step :: rest)) cursor result last := by
  intro index locals hindex hstart hi
  obtain ⟨statement, effect, hstatement, heffect, hfollows⟩ := hasEffect h hindex hi cursor
  have hnext := hstart.trans hahead.position_le
  rw [action] at hfollows
  cases hfollows with
  | texts progress =>
    obtain ⟨texts, rfl, hrun⟩ := hread
    exact .run hstatement heffect (hrun []) (htail index _ hindex hnext (progress texts))
  | records progress =>
    obtain ⟨structs, hstructs, rfl, hrun⟩ := hread hstart
    exact .run hstatement heffect (hrun [])
      (htail index _ hindex hnext (progress structs hstructs))

/-- A loop pushes one text and goes on. -/
theorem Emits.text {layout : Layout} {content : List Char} {items : List Value}
    (taken : cursor.takeValue layout = (some content, next))
    (htail : Emits options table (.texts layout) next (.list items) last) :
    Emits options table (.texts layout) cursor (.list (.text (String.ofList content) :: items))
      last := by
  obtain ⟨texts, hitems, hrun⟩ := htail
  cases hitems
  refine ⟨String.ofList content :: texts, rfl, fun pushed => .text taken ?_⟩
  have hrun := hrun (pushed ++ [String.ofList content])
  rwa [List.append_assoc, List.singleton_append] at hrun

/-- A loop ends at a struct that reads nothing, as the list does. -/
theorem Emits.idle {recursive : Bool} (h : Emittable table rank)
    (goes : goesOn recursive start cursor .dynamic = true)
    (found : table.types[target]? = some inner)
    (hread : Emits options table (.steps inner cursor.position [] inner.steps) cursor
      (.record fields) next) (still : next.position = cursor.position) :
    Emits options table (.records target recursive start .dynamic) cursor (.list []) next := by
  intro hstart
  obtain ⟨item, -, -, hrun⟩ := hread.exists_struct h options found
  refine ⟨[], nofun, rfl, fun pushed => ?_⟩
  rw [List.append_nil]
  exact .idle (by rw [RecordLoop.goes_ofList _ _ hstart, goes]) (RecordLoop.endsIdle_ofList.2 rfl)
    hrun still

/-- A loop pushes one struct and goes on. -/
theorem Emits.item {recursive : Bool} {repetition : Repetition} {items : List Value}
    (h : Emittable table rank) (goes : goesOn recursive start cursor repetition = true)
    (found : table.types[target]? = some inner) (hahead : cursor.Ahead next)
    (hread : Emits options table (.steps inner cursor.position [] inner.steps) cursor
      (.record fields) next)
    (moved : repetition = .dynamic → next.position ≠ cursor.position)
    (htail : Emits options table (.records target recursive start (leftOver repetition)) next
      (.list items) last) :
    Emits options table (.records target recursive start repetition) cursor
      (.list (.record fields :: items)) last := by
  intro hstart
  obtain ⟨item, hshape, hvalue, hrun⟩ := hread.exists_struct h options found
  obtain ⟨structs, hstructs, hitems, hloop⟩ := htail (hstart.trans hahead.position_le)
  cases hitems
  rw [hshape.value?_eq] at hvalue
  cases hvalue
  refine ⟨item :: structs, List.forall_mem_cons.2 ⟨hshape, hstructs⟩, rfl, fun pushed => ?_⟩
  have hloop := hloop (pushed ++ [item])
  rw [List.append_assoc, List.singleton_append, ← RecordLoop.next_ofList] at hloop
  exact .record (by rw [RecordLoop.goes_ofList _ _ hstart, goes]) hrun
    (fun hidle => moved (RecordLoop.endsIdle_ofList.1 hidle)) hloop

end Rules

/-- **Whatever the codec reads, the emitted source reads.** The induction is on the reading, and the
struct in progress stands for the record at each step. -/
theorem emits_of_reads (h : Emittable table rank) (options : Options) {task : Task} {value : Value}
    (hread : Reads table task cursor value last) : Emits options table task cursor value last := by
  induction hread with
  | done =>
    intro index locals found _ hi
    obtain ⟨datum, hlocals, hshape, hvalue⟩ := hi.finish h found
    exact ⟨datum, hshape, hvalue, fun _ => .done hlocals⟩
  | put action _ ih => exact .put h action ih
  | nested action found read _ ihRead ih => exact .nested h action found read.ahead ihRead ih
  | items action read _ ihRead ih => exact .items h action read.ahead ihRead ih
  | textsEnd ended =>
    refine ⟨[], rfl, fun pushed => ?_⟩
    rw [List.append_nil]
    exact .textsEnd (Cursor.takeValue_eq_of_none ended)
  | text taken _ ih => exact .text taken ih
  | recordsEnd ended =>
    intro hstart
    refine ⟨[], nofun, rfl, fun pushed => ?_⟩
    rw [List.append_nil]
    exact .recordsEnd (by rw [RecordLoop.goes_ofList _ _ hstart, ended])
  | idle goes found _ still ihRead => exact .idle h goes found ihRead still
  | record goes found read moved _ ihRead ih =>
    exact .item h goes found read.ahead ihRead moved ih

/-- **The routine of a struct reads what the codec reads from the same text**, and nothing else:
the struct that stands for the record. -/
theorem runs_iff (h : Emittable table rank) (options : Options)
    (found : table.types[index]? = some type) (text : List Char) :
    (∃ datum last, Runs (.ofTable options table) (.struct (identifierOf table index))
        (.ofText text) datum last) ∧
    ∀ datum, (∃ last, Runs (.ofTable options table) (.struct (identifierOf table index))
        (.ofText text) datum last) ↔
      HasShape (.ofTable options table) (.record (identifierOf table index)) datum ∧
        datum.recordOf (.ofTable options table) = Codec.decode table index text := by
  obtain ⟨type', last, found', hread⟩ := Codec.decodes_decode h.ranked h.wellMade
    (List.getElem?_eq_some_iff.1 found).1 text
  cases found.symm.trans found'
  have hsteps : Emits options table (.steps type (Cursor.ofText text).position [] type.steps)
      (.ofText text) (.record (Codec.decode table index text)) last :=
    emits_of_reads h options hread
  obtain ⟨datum, hshape, hvalue, hrun⟩ := hsteps.exists_struct h options found
  refine ⟨⟨datum, last, hrun⟩, fun datum' => ⟨?_, ?_⟩⟩
  · rintro ⟨last', hrun'⟩
    obtain ⟨rfl, -⟩ := hrun.unique hrun'
    exact ⟨hshape, by rw [Datum.recordOf, hvalue]; rfl⟩
  · rintro ⟨hshape', hrecord⟩
    have heq : datum = datum' := hshape.value?_inj h hshape' <| by
      rw [hvalue, hshape'.value?_eq, hrecord]
    exact ⟨last, heq ▸ hrun⟩

end FixedWidth.Emit
