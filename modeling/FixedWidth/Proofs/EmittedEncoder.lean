import FixedWidth.Proofs.EmittedLines
import FixedWidth.Proofs.StructValues
import FixedWidth.Wire.Buffer

/-!
# Proofs/EmittedEncoder — what emitted routines write

    struct ──statements──▸ calls ──▸ buffer
      │ stands for                    ‖
    record ─────pieces──────────▸ wire text

A routine is run as its lines say. It binds what it uses (`EncodeRoutine.closed_ofType`), as the
steps tell whether a statement uses the buffer (`EncodeStatement.buffer_mem_uses_iff`). Each
statement makes calls: some write a field, and others run the routine of another struct. `Executes`
carries them out one after the other. Call by call they bring to the buffer what the pieces of the
record bring to the wire (`executes_of_writes`). A default struct is written like a record without
properties, which is what an empty place of a list asks for.
-/

namespace FixedWidth.Wire.Buffer

/-- The buffer with a text behind. -/
def append (buffer : Buffer) (out : List Char) : Buffer :=
  ⟨buffer.text ++ out, buffer.width + out.length⟩

@[simp]
theorem append_nil (buffer : Buffer) : buffer.append [] = buffer := by simp [append]

theorem append_append (buffer : Buffer) (first second : List Char) :
    (buffer.append first).append second = buffer.append (first ++ second) := by
  simp [append, Nat.add_assoc]

theorem putField_eq (buffer : Buffer) (layout : Layout) (value : List Char) :
    buffer.putField layout value = buffer.append (layout.encode value) := by
  rw [putField, append, layout.length_encode]

theorem putPadding_eq (buffer : Buffer) (width : Nat) :
    buffer.putPadding width = buffer.append (List.replicate width ' ') := by
  rw [putPadding, append, List.length_replicate]

end FixedWidth.Wire.Buffer

namespace FixedWidth.Emit

open Codec (Encoded Piece Writes pieces stepPieces slots)
open Table (ItemType Property RecordType Repetition Step TypeTable WellMade)
open Wire (Buffer)

/-! ## Variables -/

namespace EncodeStatement

/-- The variables that a statement uses. -/
def uses : EncodeStatement → List String
  | comment _ => []
  | putConstant .. | putPadding _ => ["buffer"]
  | _ => ["self", "buffer"]

theorem uses_subset (statement : EncodeStatement) : statement.uses ⊆ ["self", "buffer"] := by
  cases statement <;> simp [uses]

/-- **A statement uses the buffer if its step touches the wire**, and only then. -/
theorem buffer_mem_uses_iff {identify : Nat → String} {type : RecordType} {names : List String}
    {step : Step} {statement : EncodeStatement}
    (h : ofStep? identify type names step = some statement) :
    "buffer" ∈ statement.uses ↔ touchesWire type step = true := by
  cases step with
  | field | constant | padding | unresolved | cycle =>
    cases h
    simp [uses, touchesWire]
  | nested i =>
    obtain ⟨property, -, rfl⟩ := exists_of_ofStep?_nested h
    split <;> simp [uses, touchesWire]
  | list i =>
    obtain ⟨property, item, repetition, hp, hk, rfl⟩ := exists_of_ofStep?_list h
    rw [touchesWire_list_iff hp hk]
    rcases item with target | _ | layout <;> cases repetition <;> simp only [ofList]
    case record.fixed => split <;> simp [uses]
    all_goals simp [uses]

end EncodeStatement

namespace EncodeRoutine

/-- The variables that the routine uses. -/
def uses (routine : EncodeRoutine) : List String :=
  routine.statements.flatMap (·.uses)

/-- The variables that are bound in the routine. -/
def bound (routine : EncodeRoutine) : List String := ["self", routine.parameter]

/-- **Every variable that the routine uses is bound in it.** -/
def Closed (routine : EncodeRoutine) : Prop := routine.uses ⊆ routine.bound

section OfType

variable (identify : Nat → String) (identifier : String) (type : RecordType)

theorem parameter_eq_iff :
    (ofType identify identifier type).parameter = "buffer" ↔
      type.steps.any (touchesWire type) = true := by
  simp only [ofType]
  split <;> simp [*]

/-- **A buffer that is used goes by its plain name.** -/
theorem closed_ofType : (ofType identify identifier type).Closed := by
  intro name hname
  rw [uses, statements_ofType] at hname
  obtain ⟨statement, hmem, hname⟩ := List.mem_flatMap.1 hname
  obtain ⟨step, hstep, hstatement⟩ := List.mem_filterMap.1 hmem
  obtain rfl | rfl : name = "self" ∨ name = "buffer" := by
    simpa using statement.uses_subset hname
  · exact List.mem_cons_self
  · have htouches := (EncodeStatement.buffer_mem_uses_iff hstatement).1 hname
    rw [bound, (parameter_eq_iff ..).2 (List.any_eq_true.2 ⟨step, hstep, htouches⟩)]
    exact List.mem_cons_of_mem _ List.mem_cons_self

variable {type}

/-- **A buffer that goes by its plain name is used.** -/
theorem parameter_eq_iff_mem_uses (hm : WellMade type.properties type.steps) :
    (ofType identify identifier type).parameter = "buffer" ↔
      "buffer" ∈ (ofType identify identifier type).uses := by
  rw [parameter_eq_iff, uses, statements_ofType, List.any_eq_true, List.mem_flatMap]
  constructor
  · rintro ⟨step, hstep, htouches⟩
    obtain ⟨statement, hstatement⟩ := EncodeStatement.exists_ofStep? hm hstep identify
      (fieldIdentifiers (type.properties.map (·.name)))
    exact ⟨statement, List.mem_filterMap.2 ⟨step, hstep, hstatement⟩,
      (EncodeStatement.buffer_mem_uses_iff hstatement).2 htouches⟩
  · rintro ⟨statement, hmem, huses⟩
    obtain ⟨step, hstep, hstatement⟩ := List.mem_filterMap.1 hmem
    exact ⟨step, hstep, (EncodeStatement.buffer_mem_uses_iff hstatement).1 huses⟩

end OfType

end EncodeRoutine

/-! ## Calls -/

/-- What a statement calls. -/
inductive EncodeCall where
  /-- Writes a value framed by a layout. -/
  | field (layout : Layout) (value : String)
  /-- Writes a literal. -/
  | constant (text : List Char) (width : Nat)
  /-- Writes spaces. -/
  | padding (width : Nat)
  /-- Runs the routine of a struct. -/
  | encode (datum : Datum)
  /-- Runs the routine of a default struct. -/
  | encodeDefault (type : String)

/-- The calls of a statement on a struct, in their order, if the struct has such a field. -/
def EncodeStatement.calls? (self : Datum) : EncodeStatement → Option (List EncodeCall)
  | putField field layout =>
    match self.get? field with
    | some (.text content) => some [.field layout (content.getD "")]
    | _ => none
  | putConstant value width => some [.constant value.toList width]
  | putPadding width => some [.padding width]
  | nested field =>
    match self.get? field with
    | some (.record type fields) => some [.encode (.record type fields)]
    | _ => none
  | boxed field =>
    match self.get? field with
    | some .absent => some []
    | some (.boxed inner) => some [.encode inner]
    | _ => none
  | allRecords field =>
    match self.get? field with
    | some (.records items) => some (items.map .encode)
    | _ => none
  | firstRecords field count =>
    match self.get? field with
    | some (.records items) => some ((items.take count).map .encode)
    | _ => none
  | countedRecords field count itemType =>
    match self.get? field with
    | some (.records items) => some <| (List.range count).map fun index =>
        match items[index]? with
        | some item => .encode item
        | none => .encodeDefault itemType
    | _ => none
  | allTexts field layout =>
    match self.get? field with
    | some (.texts items) => some (items.map (.field layout))
    | _ => none
  | countedTexts field layout count =>
    match self.get? field with
    | some (.texts items) => some <| (List.range count).map fun index =>
        .field layout (items[index]?.getD "")
    | _ => none
  | comment _ => some []

/-- The calls of statements one after the other. -/
def callsOf? (self : Datum) : List EncodeStatement → Option (List EncodeCall)
  | [] => some []
  | statement :: rest => do
    let calls ← statement.calls? self
    return calls ++ (← callsOf? self rest)

/-- **Calls are carried out** one after the other, from one buffer to another. A struct is written
by the routine that the lines of its artifact say. -/
inductive Executes (program : Program) : List EncodeCall → Buffer → Buffer → Prop
  | done {buffer : Buffer} : Executes program [] buffer buffer
  | field {layout : Layout} {value : String} {rest : List EncodeCall} {buffer last : Buffer}
      (tail : Executes program rest (buffer.putField layout value.toList) last) :
    Executes program (.field layout value :: rest) buffer last
  | constant {text : List Char} {width : Nat} {rest : List EncodeCall} {buffer last : Buffer}
      (tail : Executes program rest (buffer.putConstant text width) last) :
    Executes program (.constant text width :: rest) buffer last
  | padding {width : Nat} {rest : List EncodeCall} {buffer last : Buffer}
      (tail : Executes program rest (buffer.putPadding width) last) :
    Executes program (.padding width :: rest) buffer last
  | encode {type : String} {fields : List (String × Datum)} {emitted : EmittedType}
      {routine : EncodeRoutine} {calls rest : List EncodeCall} {buffer next last : Buffer}
      (found : program.find? type = some emitted) (read : emitted.encodeRoutine? = some routine)
      (owner : routine.type = type) (closed : routine.Closed)
      (body : callsOf? (.record type fields) routine.statements = some calls)
      (inner : Executes program calls buffer next) (tail : Executes program rest next last) :
    Executes program (.encode (.record type fields) :: rest) buffer last
  | encodeDefault {type : String} {datum : Datum} {rest : List EncodeCall} {buffer last : Buffer}
      (default : IsDefault program (.record type) datum)
      (tail : Executes program (.encode datum :: rest) buffer last) :
    Executes program (.encodeDefault type :: rest) buffer last

variable {program : Program} {calls : List EncodeCall} {buffer last last' : Buffer}

/-- **Calls are carried out in one way.** -/
theorem Executes.unique (h : Executes program calls buffer last)
    (h' : Executes program calls buffer last') : last = last' := by
  induction h generalizing last' with
  | done => cases h'; rfl
  | field _ ih =>
    cases h' with
    | field tail => exact ih tail
  | constant _ ih =>
    cases h' with
    | constant tail => exact ih tail
  | padding _ ih =>
    cases h' with
    | padding tail => exact ih tail
  | encode found read _ _ body _ _ ihInner ih =>
    cases h' with
    | encode found' read' _ _ body' inner tail =>
      cases found.symm.trans found'
      cases read.symm.trans read'
      cases body.symm.trans body'
      cases ihInner inner
      exact ih tail
  | encodeDefault default _ ih =>
    cases h' with
    | encodeDefault default' tail =>
      cases default.unique default'
      exact ih tail

/-! ## Calls and pieces -/

/-- **The datum is written as this value**: it stands for the value, or it is a default and there is
no value. -/
def WrittenAs (program : Program) (shape : FieldShape) (value : Option Value) (datum : Datum) :
    Prop :=
  HasShape program shape datum ∧
    (datum.value? program = value ∨ IsDefault program shape datum ∧ value = none)

/-- **The struct is written as this record**: it stands for the record, or it is a default and the
record has no properties. -/
def StandsFor (program : Program) (identifier : String) (record : Record) (datum : Datum) : Prop :=
  HasShape program (.record identifier) datum ∧
    (datum.recordOf program = record ∨ IsDefault program (.record identifier) datum ∧ record = [])

/-- The call brings to the buffer what the piece brings to the wire. -/
inductive Matches (program : Program) (table : TypeTable) : Piece → EncodeCall → Prop
  | field {layout : Layout} {value : String} :
    Matches program table (.text (.ok (layout.encode value.toList))) (.field layout value)
  | constant {text : List Char} {width : Nat} :
    Matches program table (.text (.ok ((Layout.text width).encode text))) (.constant text width)
  | padding {width : Nat} :
    Matches program table (.text (.ok (List.replicate width ' '))) (.padding width)
  | encode {target : Nat} {record : Record} {datum : Datum}
      (stands : StandsFor program (identifierOf table target) record datum) :
    Matches program table (.record target record) (.encode datum)
  | encodeDefault {target : Nat} :
    Matches program table (.record target []) (.encodeDefault (identifierOf table target))

variable {options : Options} {table : TypeTable} {rank : Nat → Nat} {index target : Nat}
  {type : RecordType} {record : Record} {property : Property} {fields : List (String × Datum)}
  {self datum : Datum} {field : String} {step : Step}

theorem forall₂_map {α β γ : Type} {R : β → γ → Prop} {f : α → β} {g : α → γ} {list : List α}
    (h : ∀ a ∈ list, R (f a) (g a)) : List.Forall₂ R (list.map f) (list.map g) := by
  rw [List.forall₂_map_left_iff, List.forall₂_map_right_iff, List.forall₂_same]
  exact h

/-- A text is written as it is. -/
theorem WrittenAs.of_text {layout : Option Layout} (hk : property.kind = .text layout)
    (h : WrittenAs program (.ofProperty (identifierOf table) property)
      (record.get? property.name) datum) :
    ∃ content, datum = .text content ∧ record.text property.name = .ok content := by
  obtain ⟨hs, hvalue⟩ := h
  rw [FieldShape.ofProperty, hk] at hs hvalue
  cases hs with
  | @text content =>
    refine ⟨content, rfl, ?_⟩
    rw [Record.text]
    obtain hvalue | ⟨hdefault, hvalue⟩ := hvalue
    · rw [← hvalue, Datum.value?]
      cases content <;> rfl
    · cases hdefault
      rw [hvalue]

/-- A struct that is held directly is written as the record that is there, or as an empty one. -/
theorem WrittenAs.of_nested (hk : property.kind = .nested target)
    (hrec : property.recursive = false)
    (h : WrittenAs program (.ofProperty (identifierOf table) property)
      (record.get? property.name) datum) :
    ∃ inner, Codec.nestedPieces property record = [.record target inner] ∧
      StandsFor program (identifierOf table target) inner datum := by
  obtain ⟨hs, hvalue⟩ := h
  simp only [FieldShape.ofProperty, hk, hrec] at hs hvalue
  obtain hvalue | ⟨hdefault, hvalue⟩ := hvalue
  · refine ⟨datum.recordOf program, ?_, hs, Or.inl rfl⟩
    rw [hs.value?_eq] at hvalue
    simp only [Codec.nestedPieces, hk, Record.record, ← hvalue]
  · refine ⟨[], ?_, hs, Or.inr ⟨hdefault, rfl⟩⟩
    simp [Codec.nestedPieces, hk, Record.record, hvalue, hrec]

/-- A struct in a box is written as the record that is there, and not at all if there is none. -/
theorem WrittenAs.of_boxed (hk : property.kind = .nested target) (hrec : property.recursive = true)
    (h : WrittenAs program (.ofProperty (identifierOf table) property)
      (record.get? property.name) datum) :
    datum = .absent ∧ Codec.nestedPieces property record = [] ∨
      ∃ inner, datum = .boxed inner ∧
        Codec.nestedPieces property record = [.record target (inner.recordOf program)] ∧
        StandsFor program (identifierOf table target) (inner.recordOf program) inner := by
  obtain ⟨hs, hvalue⟩ := h
  simp only [FieldShape.ofProperty, hk, hrec, if_true] at hs hvalue
  cases hs with
  | absent =>
    have hnone : record.get? property.name = none := by
      obtain hvalue | ⟨-, hvalue⟩ := hvalue
      · rw [← hvalue, Datum.value?]
      · exact hvalue
    exact Or.inl ⟨rfl, by simp [Codec.nestedPieces, hk, Record.record, hnone, hrec]⟩
  | @boxed _ inner hs =>
    obtain hvalue | ⟨hdefault, -⟩ := hvalue
    · rw [Datum.value?, hs.value?_eq] at hvalue
      refine Or.inr ⟨inner, rfl, ?_, hs, Or.inl rfl⟩
      simp only [Codec.nestedPieces, hk, Record.record, ← hvalue]
    · cases hdefault

/-- A list of texts is written with all its items. -/
theorem WrittenAs.of_texts {layout : Option Layout} {repetition : Repetition}
    (hk : property.kind = .list (.text layout) repetition)
    (h : WrittenAs program (.ofProperty (identifierOf table) property)
      (record.get? property.name) datum) :
    ∃ items, datum = .texts items ∧ Codec.listPieces property record =
      Codec.itemPieces property (.text layout) repetition (items.map .text) := by
  obtain ⟨hs, hvalue⟩ := h
  simp only [FieldShape.ofProperty, hk] at hs hvalue
  cases hs with
  | @texts items =>
    refine ⟨items, rfl, ?_⟩
    obtain hvalue | ⟨hdefault, hvalue⟩ := hvalue
    · rw [Datum.value?] at hvalue
      simp only [Codec.listPieces, hk, Record.list, ← hvalue, Option.getD_some]
    · cases hdefault
      simp [Codec.listPieces, hk, Record.list, hvalue]

/-- A list of structs is written with all its items. -/
theorem WrittenAs.of_records {repetition : Repetition}
    (hk : property.kind = .list (.record target) repetition)
    (h : WrittenAs program (.ofProperty (identifierOf table) property)
      (record.get? property.name) datum) :
    ∃ items, datum = .records items ∧
      (∀ item ∈ items, HasShape program (.record (identifierOf table target)) item) ∧
      Codec.listPieces property record = Codec.itemPieces property (.record target) repetition
        (items.map fun item => .record (item.recordOf program)) := by
  obtain ⟨hs, hvalue⟩ := h
  simp only [FieldShape.ofProperty, hk] at hs hvalue
  cases hs with
  | @records _ items shapes =>
    refine ⟨items, rfl, shapes, ?_⟩
    obtain hvalue | ⟨hdefault, hvalue⟩ := hvalue
    · rw [Datum.value?, itemValues_of_forall shapes] at hvalue
      simp only [Codec.listPieces, hk, Record.list, ← hvalue, Option.getD_some]
    · cases hdefault
      simp [Codec.listPieces, hk, Record.list, hvalue]

/-- **The statement of a list of structs calls for its items**, and for default structs in the
places behind the last one. -/
theorem matches_records {repetition : Repetition}
    (hk : property.kind = .list (.record target) repetition)
    (h : WrittenAs program (.ofProperty (identifierOf table) property)
      (record.get? property.name) datum)
    (hself : self.get? field = some datum) :
    ∃ calls, (EncodeStatement.ofList (identifierOf table) field property (.record target)
        repetition).calls? self = some calls ∧
      List.Forall₂ (Matches program table) (Codec.listPieces property record) calls := by
  obtain ⟨items, rfl, shapes, hpieces⟩ := h.of_records hk
  have hitem : ∀ item ∈ items, Matches program table (.record target (item.recordOf program))
      (.encode item) := fun item hitem => .encode ⟨shapes item hitem, Or.inl rfl⟩
  rw [hpieces, Codec.itemPieces]
  cases repetition with
  | dynamic =>
    refine ⟨items.map .encode, by simp only [EncodeStatement.ofList, EncodeStatement.calls?,
      hself], ?_⟩
    rw [Codec.placeCount, Codec.slots_of_le le_rfl, List.take_length, List.map_map, List.map_map]
    exact forall₂_map hitem
  | fixed count =>
    cases hrec : property.recursive with
    | true =>
      refine ⟨(items.take count).map .encode, by simp only [EncodeStatement.ofList, hrec, if_true,
        EncodeStatement.calls?, hself], ?_⟩
      rw [Codec.placeCount, if_pos rfl, Codec.slots_of_le (Nat.min_le_right _ _),
        ← List.take_eq_take_min, ← List.map_take, List.map_map, List.map_map]
      exact forall₂_map fun item hmem => hitem item (List.mem_of_mem_take hmem)
    | false =>
      refine ⟨_, by simp only [EncodeStatement.ofList, hrec, Bool.false_eq_true, if_false,
        EncodeStatement.calls?, hself]; rfl, ?_⟩
      rw [Codec.placeCount, if_neg Bool.false_ne_true, Codec.slots_eq_map_range, List.map_map]
      refine forall₂_map fun i _ => ?_
      simp only [Function.comp_apply, List.getElem?_map]
      cases hi : items[i]? with
      | none => exact .encodeDefault
      | some item => exact hitem item (List.mem_of_getElem? hi)

/-- **The statement of a list of texts calls for its items**, and for empty texts in the places
behind the last one. -/
theorem matches_texts {layout : Option Layout} {repetition : Repetition}
    (hk : property.kind = .list (.text layout) repetition)
    (h : WrittenAs program (.ofProperty (identifierOf table) property)
      (record.get? property.name) datum)
    (hself : self.get? field = some datum) :
    ∃ calls, (EncodeStatement.ofList (identifierOf table) field property (.text layout)
        repetition).calls? self = some calls ∧
      List.Forall₂ (Matches program table) (Codec.listPieces property record) calls := by
  obtain ⟨items, rfl, hpieces⟩ := h.of_texts hk
  rw [hpieces]
  cases layout with
  | none => exact ⟨[], rfl, .nil⟩
  | some layout =>
    rw [Codec.itemPieces]
    cases repetition with
    | dynamic =>
      refine ⟨items.map (.field layout), by simp only [EncodeStatement.ofList,
        EncodeStatement.calls?, hself], ?_⟩
      rw [Codec.placeCount, Codec.slots_of_le le_rfl, List.take_length, List.map_map, List.map_map]
      exact forall₂_map fun item _ => .field
    | fixed count =>
      refine ⟨_, by simp only [EncodeStatement.ofList, EncodeStatement.calls?, hself]; rfl, ?_⟩
      rw [Codec.placeCount, if_neg Bool.false_ne_true, Codec.slots_eq_map_range, List.map_map]
      refine forall₂_map fun i _ => ?_
      simp only [Function.comp_apply, List.getElem?_map]
      cases items[i]? with
      | none => exact @Matches.field program table layout ""
      | some item => exact .field

/-- The statement of a list calls for the pieces of its items. -/
theorem matches_list {item : ItemType} {repetition : Repetition}
    (hk : property.kind = .list item repetition)
    (h : WrittenAs program (.ofProperty (identifierOf table) property)
      (record.get? property.name) datum)
    (hself : self.get? field = some datum) :
    ∃ calls, (EncodeStatement.ofList (identifierOf table) field property item repetition).calls?
        self = some calls ∧
      List.Forall₂ (Matches program table) (Codec.listPieces property record) calls := by
  cases item with
  | record target => exact matches_records hk h hself
  | text layout => exact matches_texts hk h hself

/-! ## Routines and records -/

/-- The data of the fields of a struct are written as the properties of a record. -/
abbrev WrittenFields (program : Program) (table : TypeTable) (record : Record) :
    RecordType → List (String × Datum) → Prop :=
  StructOf fun property => WrittenAs program (.ofProperty (identifierOf table) property)
    (record.get? property.name)

/-- The fields of a struct are written as the properties of its record. -/
theorem StandsFor.exists_fields (h : Emittable table rank) (options : Options)
    (found : table.types[index]? = some type)
    (hs : StandsFor (.ofTable options table) (identifierOf table index) record datum) :
    ∃ fields, datum = .record (identifierOf table index) fields ∧
      WrittenFields (.ofTable options table) table record type fields := by
  obtain ⟨hshape, hrecord⟩ := hs
  obtain ⟨fields, rfl, hfields⟩ := (hasShape_record_iff h found).1 hshape
  refine ⟨fields, rfl, hfields.names, fun i property name datum hp hfield =>
    ⟨hfields.data i property name datum hp hfield, ?_⟩⟩
  obtain rfl | ⟨hdefault, rfl⟩ := hrecord
  · exact Or.inl (get?_recordOf h options found hfields hp hfield).symm
  · obtain ⟨fields', heq, hfields'⟩ := (isDefault_record_iff h found).1 hdefault
    cases heq
    exact Or.inr ⟨hfields'.data i property name datum hp hfield, rfl⟩

/-- The statement of a nested property calls for its pieces. -/
theorem matches_nested {i : Nat} {name : String} (hp : type.properties[i]? = some property)
    (hk : property.kind = .nested target)
    (hname : (fieldIdentifiers (type.properties.map (·.name)))[i]? = some name)
    (hwritten : WrittenAs program (.ofProperty (identifierOf table) property)
      (record.get? property.name) datum)
    (hself : self.get? name = some datum) :
    ∃ statement calls, EncodeStatement.ofStep? (identifierOf table) type
        (fieldIdentifiers (type.properties.map (·.name))) (.nested i) = some statement ∧
      statement.calls? self = some calls ∧
      List.Forall₂ (Matches program table) (Codec.nestedPieces property record) calls := by
  have hstatement : EncodeStatement.ofStep? (identifierOf table) type
      (fieldIdentifiers (type.properties.map (·.name))) (.nested i) =
        some (if property.recursive then .boxed name else .nested name) := by
    simp [EncodeStatement.ofStep?, hp, hname]
  cases hrec : property.recursive with
  | false =>
    rw [hrec] at hstatement
    obtain ⟨inner, hpieces, hstands⟩ := hwritten.of_nested hk hrec
    refine ⟨_, [.encode datum], hstatement, ?_, ?_⟩
    · cases hstands.1
      simp [EncodeStatement.calls?, hself]
    · rw [hpieces]
      exact .cons (.encode hstands) .nil
  | true =>
    rw [hrec] at hstatement
    obtain ⟨rfl, hpieces⟩ | ⟨inner, rfl, hpieces, hstands⟩ := hwritten.of_boxed hk hrec
    · refine ⟨_, [], hstatement, by simp [EncodeStatement.calls?, hself], ?_⟩
      rw [hpieces]
      exact .nil
    · refine ⟨_, [.encode inner], hstatement, by simp [EncodeStatement.calls?, hself], ?_⟩
      rw [hpieces]
      exact .cons (.encode hstands) .nil

/-- **Each step has a statement, which calls for the pieces of the step.** -/
theorem matches_step (hm : WellMade type.properties type.steps) (hstep : step ∈ type.steps)
    (hs : WrittenFields program table record type fields) (identifier : String) :
    ∃ statement calls, EncodeStatement.ofStep? (identifierOf table) type
        (fieldIdentifiers (type.properties.map (·.name))) step = some statement ∧
      statement.calls? (.record identifier fields) = some calls ∧
      List.Forall₂ (Matches program table) (stepPieces type record step) calls := by
  cases step with
  | field i layout =>
    obtain ⟨property, hp, huse⟩ := hm.exists_property hstep rfl
    obtain ⟨name, datum, hname, -, hfield, hwritten⟩ := hs.exists_datum hp
    obtain ⟨content, rfl, htext⟩ :=
      hwritten.of_text (Table.PropertyKind.eq_of_field_mem_stepsAt huse)
    refine ⟨.putField name layout, [.field layout (content.getD "")], ?_, ?_, ?_⟩
    · rw [EncodeStatement.ofStep?, hname, Option.getD_some]
    · simp only [EncodeStatement.calls?, Datum.get?, hfield]
    · simp only [stepPieces, hp, Codec.fieldText, htext]
      exact .cons .field .nil
  | nested i =>
    obtain ⟨property, hp, huse⟩ := hm.exists_property hstep rfl
    obtain ⟨target, hk⟩ := Table.PropertyKind.eq_of_nested_mem_stepsAt huse
    obtain ⟨name, datum, hname, -, hfield, hwritten⟩ := hs.exists_datum hp
    rw [stepPieces, hp]
    exact matches_nested hp hk hname hwritten hfield
  | list i =>
    obtain ⟨property, hp, huse⟩ := hm.exists_property hstep rfl
    obtain ⟨item, repetition, hk⟩ := Table.PropertyKind.eq_of_list_mem_stepsAt huse
    obtain ⟨name, datum, hname, -, hfield, hwritten⟩ := hs.exists_datum hp
    have hself : (Datum.record identifier fields).get? name = some datum := hfield
    have hstatement : EncodeStatement.ofStep? (identifierOf table) type
        (fieldIdentifiers (type.properties.map (·.name))) (.list i) =
          some (.ofList (identifierOf table) name property item repetition) := by
      simp [EncodeStatement.ofStep?, hp, hk, hname]
    obtain ⟨calls, hcalls, hmatches⟩ := matches_list hk hwritten hself
    exact ⟨_, calls, hstatement, hcalls, by rwa [stepPieces, hp]⟩
  | constant value width =>
    exact ⟨.putConstant value width, [.constant value.toList width], rfl, rfl,
      .cons .constant .nil⟩
  | padding width => exact ⟨.putPadding width, [.padding width], rfl, rfl, .cons .padding .nil⟩
  | unresolved | cycle => exact ⟨_, [], rfl, rfl, .nil⟩

/-- **The statements of a routine call for the pieces of the record**, step by step. -/
theorem matches_steps (hm : WellMade type.properties type.steps)
    (hs : WrittenFields program table record type fields) (identifier : String)
    (steps : List Step) (hsteps : steps ⊆ type.steps) :
    ∃ calls, callsOf? (.record identifier fields) (steps.filterMap
        (EncodeStatement.ofStep? (identifierOf table) type
          (fieldIdentifiers (type.properties.map (·.name))))) = some calls ∧
      List.Forall₂ (Matches program table) (steps.flatMap (stepPieces type record)) calls := by
  induction steps with
  | nil => exact ⟨[], rfl, .nil⟩
  | cons step rest ih =>
    rw [List.cons_subset] at hsteps
    obtain ⟨calls, hcalls, hmatches⟩ := ih hsteps.2
    obtain ⟨statement, first, hstatement, hfirst, hmatch⟩ := matches_step hm hsteps.1 hs identifier
    refine ⟨first ++ calls, ?_, List.rel_append hmatch hmatches⟩
    rw [List.filterMap_cons_some hstatement, callsOf?, hfirst, hcalls]
    rfl

/-- The routine of a struct calls for the pieces of its record. -/
theorem StandsFor.exists_calls (h : Emittable table rank) (options : Options)
    (found : table.types[index]? = some type)
    (hs : StandsFor (.ofTable options table) (identifierOf table index) record datum) :
    ∃ fields calls, datum = .record (identifierOf table index) fields ∧
      callsOf? datum (EmittedType.ofType options table type).artifact.encode.statements =
        some calls ∧
      List.Forall₂ (Matches (.ofTable options table) table) (pieces type record) calls := by
  obtain ⟨fields, rfl, hfields⟩ := hs.exists_fields h options found
  obtain ⟨calls, hcalls, hmatches⟩ := matches_steps
    (h.wellMade type (List.mem_of_getElem? found)) hfields (identifierOf table index) type.steps
    (List.Subset.refl _)
  exact ⟨fields, calls, rfl, EncodeRoutine.statements_ofType .. ▸ hcalls, hmatches⟩

/-- **A struct is written by its routine**, which says what its lines say. -/
theorem executes_encode (h : Emittable table rank) (found : table.types[index]? = some type)
    {inner rest : List EncodeCall} {next : Buffer}
    (body : callsOf? (.record (identifierOf table index) fields)
      (EmittedType.ofType options table type).artifact.encode.statements = some inner)
    (hinner : Executes (.ofTable options table) inner buffer next)
    (htail : Executes (.ofTable options table) rest next last) :
    Executes (.ofTable options table)
      (.encode (.record (identifierOf table index) fields) :: rest) buffer last :=
  .encode (find?_ofTable h found)
    (EmittedType.encodeRoutine?_ofType (h.wellMade type (List.mem_of_getElem? found)))
    (identifierOf_eq options found).symm (EncodeRoutine.closed_ofType ..) body hinner htail

/-- A call brings the text of its piece to the buffer. -/
theorem Matches.executes {first : List Char} {call : EncodeCall}
    (hmatch : Matches program table (.text (.ok first)) call)
    (htail : Executes program calls (buffer.append first) last) :
    Executes program (call :: calls) buffer last := by
  cases hmatch with
  | field => exact .field (by rwa [Buffer.putField_eq])
  | constant => exact .constant (by rwa [Buffer.putConstant, Buffer.putField_eq])
  | padding => exact .padding (by rwa [Buffer.putPadding_eq])

/-- **A call for a record runs the routine of a struct**, which calls for the pieces of the
record. -/
theorem Matches.exists_calls (h : Emittable table rank) (options : Options) {call : EncodeCall}
    (hmatch : Matches (.ofTable options table) table (.record target record) call)
    (found : table.types[target]? = some type) :
    ∃ inner, List.Forall₂ (Matches (.ofTable options table) table) (pieces type record) inner ∧
      ∀ rest buffer next last, Executes (.ofTable options table) inner buffer next →
        Executes (.ofTable options table) rest next last →
        Executes (.ofTable options table) (call :: rest) buffer last := by
  have hlt := (List.getElem?_eq_some_iff.1 found).1
  have hstruct : ∃ datum,
      StandsFor (.ofTable options table) (identifierOf table target) record datum ∧
      ∀ rest buffer last, Executes (.ofTable options table) (.encode datum :: rest) buffer last →
        Executes (.ofTable options table) (call :: rest) buffer last := by
    cases hmatch with
    | encode stands => exact ⟨_, stands, fun _ _ _ hrun => hrun⟩
    | encodeDefault =>
      obtain ⟨datum, hdefault⟩ := exists_isDefault h options hlt
      exact ⟨datum, ⟨hdefault.hasShape, Or.inr ⟨hdefault, rfl⟩⟩,
        fun _ _ _ => .encodeDefault hdefault⟩
  obtain ⟨datum, hstands, hcall⟩ := hstruct
  obtain ⟨fields, inner, rfl, hbody, hinner⟩ := hstands.exists_calls h options found
  exact ⟨inner, hinner, fun rest buffer next last hrun htail => hcall rest buffer last
    (executes_encode h found hbody hrun htail)⟩

/-- **Calls bring to the buffer what the pieces bring to the wire**, and every piece has a text. The
induction is on the writing of the pieces. -/
theorem executes_of_writes (h : Emittable table rank) (options : Options) {pieces : List Piece}
    {out : Encoded} (hw : Writes table pieces out)
    (hmatches : List.Forall₂ (Matches (.ofTable options table) table) pieces calls)
    (buffer : Buffer) :
    ∃ text, out = .ok text ∧
      Executes (.ofTable options table) calls buffer (buffer.append text) := by
  induction hw generalizing calls buffer with
  | nil =>
    cases hmatches
    exact ⟨[], rfl, buffer.append_nil.symm ▸ .done⟩
  | @text first rest out _ ih =>
    cases hmatches with
    | cons hmatch htail =>
      obtain ⟨text, rfl, hrun⟩ := ih htail (buffer.append first)
      rw [Buffer.append_append] at hrun
      exact ⟨first ++ text, rfl, hmatch.executes hrun⟩
  | mismatch =>
    cases hmatches with
    | cons hmatch => cases hmatch
  | @record target type record first rest out found _ _ ihInner ih =>
    cases hmatches with
    | cons hmatch htail =>
      obtain ⟨inner, hinner, hcall⟩ := hmatch.exists_calls h options found
      obtain ⟨_, heq, hrun⟩ := ihInner hinner buffer
      cases heq
      obtain ⟨text, rfl, htail⟩ := ih htail (buffer.append first)
      rw [Buffer.append_append] at htail
      exact ⟨first ++ text, rfl, hcall _ _ _ _ hrun htail⟩
  | stopped found _ ihInner =>
    cases hmatches with
    | cons hmatch htail =>
      obtain ⟨inner, hinner, -⟩ := hmatch.exists_calls h options found
      obtain ⟨text, heq, -⟩ := ihInner hinner buffer
      cases heq

/-- **The routine of a struct writes what the codec writes for its record**, and nothing else. -/
theorem executes_iff (h : Emittable table rank) (options : Options)
    (found : table.types[index]? = some type)
    (hs : HasShape (.ofTable options table) (.record (identifierOf table index)) datum) :
    ∃ out, Codec.encode table index (datum.recordOf (.ofTable options table)) = .ok out ∧
      ∀ buffer last, Executes (.ofTable options table) [.encode datum] buffer last ↔
        last = buffer.append out := by
  obtain ⟨type', found', hwrites⟩ := Codec.encodes_encode h.ranked h.wellMade
    (List.getElem?_eq_some_iff.1 found).1 (datum.recordOf (.ofTable options table))
  cases found.symm.trans found'
  have hstands : StandsFor (.ofTable options table) (identifierOf table index)
      (datum.recordOf (.ofTable options table)) datum := ⟨hs, Or.inl rfl⟩
  obtain ⟨fields, calls, rfl, hbody, hmatches⟩ := hstands.exists_calls h options found
  obtain ⟨out, hout, -⟩ := executes_of_writes h options hwrites hmatches .empty
  have hrun : ∀ buffer, Executes (.ofTable options table)
      [.encode (.record (identifierOf table index) fields)] buffer (buffer.append out) := by
    intro buffer
    obtain ⟨_, heq, hrun⟩ := executes_of_writes h options hwrites hmatches buffer
    cases hout.symm.trans heq
    exact executes_encode h found hbody hrun .done
  refine ⟨out, hout, fun buffer last => ⟨fun hlast => hlast.unique (hrun buffer), ?_⟩⟩
  rintro rfl
  exact hrun buffer

end FixedWidth.Emit
