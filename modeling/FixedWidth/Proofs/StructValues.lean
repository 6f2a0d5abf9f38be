import FixedWidth.Proofs.EmittedTypes
import FixedWidth.Proofs.Maps
import FixedWidth.Proofs.NormalForm

/-!
# Proofs/StructValues — values of emitted structs

A `Datum` is a value of the field types of emitted source, and `HasShape` says that it is one of a
field type. Each struct stands for a record (`Datum.recordOf`): a text or boxed struct that is not
set stands for a property that is absent, and a list is always there. The default struct of a type
exists because the structs that hold others directly form no cycle (`exists_isDefault`).
-/

namespace FixedWidth.Emit

open Codec (putValue)
open Table (ItemType Property RecordType TypeTable WellMade)

/-! ## Values -/

/-- A value of a field. -/
inductive Datum where
  /-- A text that may be unset. -/
  | text (content : Option String)
  /-- A struct with its fields. -/
  | record (type : String) (fields : List (String × Datum))
  /-- No struct in a box. -/
  | absent
  /-- A struct in a box. -/
  | boxed (inner : Datum)
  /-- Texts in order. -/
  | texts (items : List String)
  /-- Structs in order. -/
  | records (items : List Datum)
  deriving Repr

/-- Sets properties that have a value. -/
def assign (properties : List (String × Option Value)) : Record :=
  properties.foldl (fun record entry => putValue record (entry.2.map (entry.1, ·))) []

namespace Datum

/-- **The value of the property that a field stands for**, if the property is there. -/
def value? (program : Program) : Datum → Option Value
  | text content => content.map .text
  | record type fields =>
    some (.record (assign ((program.properties type).zip (fieldValues fields))))
  | absent => none
  | boxed inner => inner.value? program
  | texts items => some (.list (items.map .text))
  | records items => some (.list (itemValues items))
where
  fieldValues : List (String × Datum) → List (Option Value)
    | [] => []
    | (_, datum) :: rest => datum.value? program :: fieldValues rest
  itemValues : List Datum → List Value
    | [] => []
    | datum :: rest => (datum.value? program).toList ++ itemValues rest

/-- **The record that a struct stands for.** -/
def recordOf (program : Program) (datum : Datum) : Record := Codec.recordOf (datum.value? program)

/-- The field of a struct. -/
def get? : Datum → String → Option Datum
  | record _ fields, field => fields.lookup field
  | _, _ => none

/-- The struct with another value in a field. -/
def set : Datum → String → Datum → Datum
  | record type fields, field, value =>
    record type (fields.map fun entry => if entry.1 = field then (field, value) else entry)
  | datum, _, _ => datum

theorem fieldValues_eq (program : Program) (fields : List (String × Datum)) :
    value?.fieldValues program fields = fields.map fun entry => entry.2.value? program := by
  induction fields with
  | nil => rfl
  | cons entry rest ih => rw [value?.fieldValues, ih, List.map_cons]

theorem itemValues_eq (program : Program) (items : List Datum) :
    value?.itemValues program items = items.filterMap (·.value? program) := by
  induction items with
  | nil => rfl
  | cons datum rest ih =>
    rw [value?.itemValues, ih, List.filterMap_cons]
    cases datum.value? program <;> rfl

end Datum

/-- **The value is one of the field type.** A struct has the fields that were declared. -/
inductive HasShape (program : Program) : FieldShape → Datum → Prop
  | text {content : Option String} : HasShape program .text (.text content)
  | record {type : String} {emitted : EmittedType} {fields : List (String × Datum)}
      (found : program.find? type = some emitted)
      (names : fields.map Prod.fst = emitted.fields.map Prod.fst)
      (values : ∀ (i : Nat) (name : String) (shape : FieldShape) (datum : Datum),
        emitted.fields[i]? = some (name, shape) → fields[i]? = some (name, datum) →
          HasShape program shape datum) :
    HasShape program (.record type) (.record type fields)
  | absent {type : String} : HasShape program (.boxed type) .absent
  | boxed {type : String} {inner : Datum} (shape : HasShape program (.record type) inner) :
    HasShape program (.boxed type) (.boxed inner)
  | texts {items : List String} : HasShape program .texts (.texts items)
  | records {type : String} {items : List Datum}
      (shapes : ∀ item ∈ items, HasShape program (.record type) item) :
    HasShape program (.records type) (.records items)

/-- **The value is the default of the field type.** -/
inductive IsDefault (program : Program) : FieldShape → Datum → Prop
  | text : IsDefault program .text (.text none)
  | record {type : String} {emitted : EmittedType} {fields : List (String × Datum)}
      (found : program.find? type = some emitted)
      (names : fields.map Prod.fst = emitted.fields.map Prod.fst)
      (values : ∀ (i : Nat) (name : String) (shape : FieldShape) (datum : Datum),
        emitted.fields[i]? = some (name, shape) → fields[i]? = some (name, datum) →
          IsDefault program shape datum) :
    IsDefault program (.record type) (.record type fields)
  | absent {type : String} : IsDefault program (.boxed type) .absent
  | texts : IsDefault program .texts (.texts [])
  | records {type : String} : IsDefault program (.records type) (.records [])

variable {program : Program} {shape : FieldShape} {datum datum' : Datum}

theorem IsDefault.hasShape (h : IsDefault program shape datum) : HasShape program shape datum := by
  induction h with
  | text => exact .text
  | record found names _ ih => exact .record found names ih
  | absent => exact .absent
  | texts => exact .texts
  | records => exact .records nofun

/-- Two lists of fields with the same names and data are the same. -/
theorem fields_ext {fields fields' : List (String × Datum)}
    (hnames : fields.map Prod.fst = fields'.map Prod.fst)
    (hdata : ∀ (i : Nat) (name : String) (datum datum' : Datum), fields[i]? = some (name, datum) →
      fields'[i]? = some (name, datum') → datum = datum') : fields = fields' := by
  have hlen : fields.length = fields'.length := by simpa using congrArg List.length hnames
  refine List.ext_getElem hlen fun i h h' => ?_
  have hname : fields[i].1 = fields'[i].1 := by
    have := congrArg (·[i]?) hnames
    simpa [h, h'] using this
  refine Prod.ext hname (hdata i fields[i].1 _ _ (List.getElem?_eq_getElem h) ?_)
  rw [hname, List.getElem?_eq_getElem h']

/-- The field at an index has the name that is declared there. -/
theorem exists_declared {fields : List (String × Datum)} {declared : List (String × FieldShape)}
    (hnames : fields.map Prod.fst = declared.map Prod.fst) {i : Nat} {name : String}
    (hfield : fields[i]? = some (name, datum)) : ∃ shape, declared[i]? = some (name, shape) := by
  have := congrArg (·[i]?) hnames
  simp only [List.getElem?_map, hfield, Option.map_some] at this
  obtain ⟨⟨name', shape⟩, hdeclared, rfl⟩ := Option.map_eq_some_iff.1 this.symm
  exact ⟨shape, hdeclared⟩

/-- **A field type has one default.** -/
theorem IsDefault.unique (h : IsDefault program shape datum)
    (h' : IsDefault program shape datum') : datum = datum' := by
  induction h generalizing datum' with
  | text | absent | texts | records =>
    cases h'
    rfl
  | record found names values ih =>
    cases h' with
    | record found' names' values' =>
      cases found.symm.trans found'
      refine congrArg _ (fields_ext (names.trans names'.symm) ?_)
      intro i name datum datum' hfield hfield'
      obtain ⟨shape, hdeclared⟩ := exists_declared names hfield
      exact ih i name shape datum hdeclared hfield
        (values' i name shape datum' hdeclared hfield')

/-! ## Structs of a table -/

variable {options : Options} {table : TypeTable} {rank : Nat → Nat} {index : Nat}
  {type : RecordType} {fields : List (String × Datum)} {P : Property → Datum → Prop}

/-- **The fields of a struct of a type**, each with a datum that fits its property. -/
structure StructOf (P : Property → Datum → Prop) (type : RecordType)
    (fields : List (String × Datum)) : Prop where
  names : fields.map Prod.fst = fieldIdentifiers (type.properties.map (·.name))
  data : ∀ (i : Nat) (property : Property) (name : String) (datum : Datum),
    type.properties[i]? = some property → fields[i]? = some (name, datum) → P property datum

theorem StructOf.nodup_names (h : StructOf P type fields) : (fields.map Prod.fst).Nodup :=
  h.names ▸ nodup_fieldIdentifiers _

theorem StructOf.length_eq (h : StructOf P type fields) :
    fields.length = type.properties.length := by
  simpa [length_fieldIdentifiers] using congrArg List.length h.names

/-- Each property has a field with a datum. -/
theorem StructOf.exists_datum (h : StructOf P type fields) {i : Nat} {property : Property}
    (hp : type.properties[i]? = some property) : ∃ name datum,
      (fieldIdentifiers (type.properties.map (·.name)))[i]? = some name ∧
        fields[i]? = some (name, datum) ∧ fields.lookup name = some datum ∧ P property datum := by
  have hlt : i < fields.length := h.length_eq ▸ (List.getElem?_eq_some_iff.1 hp).1
  have hfield := List.getElem?_eq_getElem hlt
  refine ⟨fields[i].1, fields[i].2, ?_, hfield, lookup_of_getElem? h.nodup_names hfield,
    h.data i property _ _ hp hfield⟩
  rw [← h.names, List.getElem?_map, hfield, Option.map_some]

/-- Where the names differ, only one field is set. -/
theorem Datum.set_record (identifier : String) (h : (fields.map Prod.fst).Nodup) {i : Nat}
    {name : String} {old : Datum} (hfield : fields[i]? = some (name, old)) (new : Datum) :
    (Datum.record identifier fields).set name new =
      .record identifier (fields.set i (name, new)) := by
  obtain ⟨hlt, hentry⟩ := List.getElem?_eq_some_iff.1 hfield
  have heq : fields.map (fun entry => if entry.1 = name then (name, new) else entry) =
      fields.set i (name, new) := by
    refine List.ext_getElem (by simp) fun j hj _ => ?_
    have hj : j < fields.length := by simpa using hj
    have hsame : fields[j].1 = name ↔ i = j := by
      constructor
      · intro hname
        exact Table.index_eq_of_nodup h hfield (List.getElem?_eq_getElem hj) hname.symm
      · rintro rfl
        rw [hentry]
    rw [List.getElem_map, List.getElem_set]
    simp only [hsame]
  rw [Datum.set, heq]

/-- A struct with another datum for a property. -/
theorem StructOf.set {Q : Property → Datum → Prop} {property : Property}
    (hs : StructOf P type fields)
    (hnodup : (type.properties.map (·.name)).Nodup) {i : Nat}
    (hp : type.properties[i]? = some property) {name : String} {old new : Datum}
    (hfield : fields[i]? = some (name, old)) (hnew : Q property new)
    (hother : ∀ other datum, other.name ≠ property.name → P other datum → Q other datum) :
    StructOf Q type (fields.set i (name, new)) := by
  refine ⟨?_, fun j other name' datum hj hfield' => ?_⟩
  · have hname : (fields.map Prod.fst)[i]? = some name := by simp [hfield]
    obtain ⟨hlt, heq⟩ := List.getElem?_eq_some_iff.1 hname
    rw [← hs.names, List.map_set, ← heq, List.set_getElem_self]
  · rw [List.getElem?_set] at hfield'
    split at hfield'
    · rename_i hij
      cases hij
      cases hp.symm.trans hj
      split at hfield'
      · cases hfield'
        exact hnew
      · cases hfield'
    · rename_i hij
      refine hother other datum (fun hname => hij ?_) (hs.data j other name' datum hj hfield')
      exact Table.index_eq_of_nodup hnodup hp hj hname.symm

/-- Fields that fit their declarations are the fields of a struct of the type. -/
theorem structOf_iff {Q : FieldShape → Datum → Prop} :
    StructOf (fun property => Q (.ofProperty (identifierOf table) property)) type fields ↔
      fields.map Prod.fst = (EmittedType.ofType options table type).fields.map Prod.fst ∧
        ∀ (i : Nat) (name : String) (shape : FieldShape) (datum : Datum),
          (EmittedType.ofType options table type).fields[i]? = some (name, shape) →
            fields[i]? = some (name, datum) → Q shape datum := by
  constructor
  · intro hs
    refine ⟨hs.names.trans map_fst_fields.symm, fun i name shape datum hdeclared hfield => ?_⟩
    have hlt : i < type.properties.length :=
      hs.length_eq ▸ (List.getElem?_eq_some_iff.1 hfield).1
    have hp := List.getElem?_eq_getElem hlt
    obtain ⟨-, rfl⟩ := (getElem?_fields hp).1 hdeclared
    exact hs.data i _ name datum hp hfield
  · rintro ⟨names, values⟩
    refine ⟨names.trans map_fst_fields, fun i property name datum hp hfield => ?_⟩
    obtain ⟨shape, hdeclared⟩ := exists_declared names hfield
    obtain ⟨-, rfl⟩ := (getElem?_fields hp).1 hdeclared
    exact values i name _ datum hdeclared hfield

/-- **A struct of a type of the table has a field for each property.** -/
theorem hasShape_record_iff (h : Emittable table rank)
    (found : table.types[index]? = some type) {datum : Datum} :
    HasShape (Program.ofTable options table) (.record (identifierOf table index)) datum ↔
      ∃ fields, datum = .record (identifierOf table index) fields ∧
        StructOf (fun property => HasShape (Program.ofTable options table)
          (.ofProperty (identifierOf table) property)) type fields := by
  constructor
  · intro hs
    cases hs with
    | record found' names values =>
      cases (find?_ofTable h found).symm.trans found'
      exact ⟨_, rfl, structOf_iff.2 ⟨names, values⟩⟩
  · rintro ⟨fields, rfl, hs⟩
    obtain ⟨names, values⟩ := structOf_iff.1 hs
    exact .record (find?_ofTable h found) names values

/-- The default struct has the default in each field. -/
theorem isDefault_record_iff (h : Emittable table rank)
    (found : table.types[index]? = some type) {datum : Datum} :
    IsDefault (Program.ofTable options table) (.record (identifierOf table index)) datum ↔
      ∃ fields, datum = .record (identifierOf table index) fields ∧
        StructOf (fun property => IsDefault (Program.ofTable options table)
          (.ofProperty (identifierOf table) property)) type fields := by
  constructor
  · intro hs
    cases hs with
    | record found' names values =>
      cases (find?_ofTable h found).symm.trans found'
      exact ⟨_, rfl, structOf_iff.2 ⟨names, values⟩⟩
  · rintro ⟨fields, rfl, hs⟩
    obtain ⟨names, values⟩ := structOf_iff.1 hs
    exact .record (find?_ofTable h found) names values

/-- Where each property has a datum that fits, the type has a struct. -/
theorem exists_structOf
    (h : ∀ property ∈ type.properties, ∃ datum, P property datum) :
    ∃ fields, StructOf P type fields := by
  have hproperty : ∀ property, ∃ datum, property ∈ type.properties → P property datum := by
    intro property
    by_cases hp : property ∈ type.properties
    · obtain ⟨datum, hdatum⟩ := h property hp
      exact ⟨datum, fun _ => hdatum⟩
    · exact ⟨.absent, fun hp' => absurd hp' hp⟩
  choose datumOf hdatumOf using hproperty
  refine ⟨(fieldIdentifiers (type.properties.map (·.name))).zip (type.properties.map datumOf),
    ?_, fun i property name datum hp hfield => ?_⟩
  · rw [List.map_fst_zip]
    simp [length_fieldIdentifiers]
  · obtain ⟨-, hdatum⟩ := List.getElem?_zip_eq_some.1 hfield
    simp only [List.getElem?_map, hp, Option.map_some, Option.some.injEq] at hdatum
    exact hdatum ▸ hdatumOf property (List.mem_of_getElem? hp)

/-- A property has a default if the struct that it holds directly has one. -/
theorem exists_isDefault_ofProperty {identify : Nat → String} {property : Property}
    (h : ∀ target, property.kind = .nested target → property.recursive = false →
      ∃ datum, IsDefault program (.record (identify target)) datum) :
    ∃ datum, IsDefault program (.ofProperty identify property) datum := by
  rcases hk : property.kind with layout | target | ⟨target | layout, repetition⟩
  · exact ⟨.text none, by rw [FieldShape.ofProperty, hk]; exact .text⟩
  · cases hrec : property.recursive with
    | true => exact ⟨.absent, by simp only [FieldShape.ofProperty, hk, hrec]; exact .absent⟩
    | false =>
      simp only [FieldShape.ofProperty, hk, hrec]
      exact h target hk hrec
  · exact ⟨.records [], by rw [FieldShape.ofProperty, hk]; exact .records⟩
  · exact ⟨.texts [], by rw [FieldShape.ofProperty, hk]; exact .texts⟩

/-- **Each type has a default struct.** The induction is on the rank, which falls along the
properties that hold a struct directly. -/
theorem exists_isDefault (h : Emittable table rank) (options : Options)
    (hindex : index < table.types.length) : ∃ datum,
      IsDefault (Program.ofTable options table) (.record (identifierOf table index)) datum := by
  induction hn : rank index using Nat.strongRecOn generalizing index with
  | ind n ih =>
    have found := List.getElem?_eq_getElem hindex
    have hdefault : ∀ property ∈ table.types[index].properties, ∃ datum,
        IsDefault (Program.ofTable options table) (.ofProperty (identifierOf table) property)
          datum := by
      refine fun property hp => exists_isDefault_ofProperty fun target hk hrec => ?_
      have htarget : property.kind.target? = some target := by rw [hk]; rfl
      have hrank := h.ranked.rank_lt index target ⟨_, property, found, hp, hrec, htarget⟩
      have hlt := h.ranked.target_lt index target ⟨_, property, found, hp, htarget⟩
      exact ih (rank target) (hn ▸ hrank) hlt rfl
    obtain ⟨fields, hfields⟩ := exists_structOf hdefault
    exact ⟨_, (isDefault_record_iff h found).2 ⟨fields, rfl, hfields⟩⟩

/-! ## Records of structs -/

/-- A map has what was assigned to a name. -/
theorem get?_assign {names : List String} {values : List (Option Value)} (h : names.Nodup)
    (hlen : names.length ≤ values.length) {i : Nat} {name : String} {value : Option Value}
    (hname : names[i]? = some name) (hvalue : values[i]? = some value) :
    (assign (names.zip values)).get? name = value := by
  have hnodup : ((names.zip values).map Prod.fst).Nodup := by rwa [List.map_fst_zip hlen]
  have hmem : (name, value) ∈ names.zip values :=
    List.mem_of_getElem? (List.getElem?_zip_eq_some.2 ⟨hname, hvalue⟩)
  have hget := Codec.get?_foldl_putValue Prod.fst Prod.snd name (names.zip values) hnodup []
  have hfind := Table.find?_eq_of_nodup hnodup hmem
  rw [assign, hget, hfind]
  exact Option.or_none

/-- A map has nothing under a name to which nothing was assigned. -/
theorem get?_assign_eq_none {names : List String} {values : List (Option Value)} (h : names.Nodup)
    (hlen : names.length ≤ values.length) {name : String} (hname : name ∉ names) :
    (assign (names.zip values)).get? name = none := by
  have hnodup : ((names.zip values).map Prod.fst).Nodup := by rwa [List.map_fst_zip hlen]
  have hget := Codec.get?_foldl_putValue Prod.fst Prod.snd name (names.zip values) hnodup []
  have hfind : (names.zip values).find? (Prod.fst · == name) = none := by
    refine List.find?_eq_none.2 fun pair hmem heq => hname ?_
    have : pair.1 = name := by simpa using heq
    exact this ▸ (List.of_mem_zip hmem).1
  rw [assign, hget, hfind]
  rfl

theorem ordered_assign (pairs : List (String × Option Value)) : NameMap.Ordered (assign pairs) := by
  rw [assign]
  exact List.foldlRecOn _ _ List.Pairwise.nil fun _ hrecord _ _ =>
    Codec.ordered_putValue hrecord _

theorem recordOf_record (program : Program) (identifier : String)
    (fields : List (String × Datum)) : (Datum.record identifier fields).recordOf program =
      assign ((program.properties identifier).zip (fields.map (·.2.value? program))) := by
  rw [Datum.recordOf, Datum.value?, Datum.fieldValues_eq]
  rfl

/-- A struct is a record that is there. -/
theorem HasShape.value?_eq {identifier : String} (h : HasShape program (.record identifier) datum) :
    datum.value? program = some (.record (datum.recordOf program)) := by
  cases h
  rfl

/-- The items of a list of structs are records. -/
theorem itemValues_of_forall {identifier : String} {items : List Datum}
    (h : ∀ item ∈ items, HasShape program (.record identifier) item) :
    Datum.value?.itemValues program items =
      items.map fun item => .record (item.recordOf program) := by
  rw [Datum.itemValues_eq, ← List.filterMap_eq_map]
  exact List.filterMap_congr fun item hitem => (h item hitem).value?_eq

/-- **The record of a struct has under the name of a property what the field stands for.** -/
theorem get?_recordOf (h : Emittable table rank) (options : Options)
    (found : table.types[index]? = some type) (hs : StructOf P type fields) {i : Nat}
    {property : Property} {name : String} {datum : Datum}
    (hp : type.properties[i]? = some property) (hfield : fields[i]? = some (name, datum)) :
    ((Datum.record (identifierOf table index) fields).recordOf (.ofTable options table)).get?
      property.name = datum.value? (.ofTable options table) := by
  rw [recordOf_record, properties_ofTable h found]
  exact get?_assign (h.wellMade type (List.mem_of_getElem? found)).nodup_names
    (by simp [hs.length_eq]) (i := i) (by simp [hp]) (by simp [hfield])

/-- The record of a struct has no other properties than the type. -/
theorem get?_recordOf_eq_none (h : Emittable table rank) (options : Options)
    (found : table.types[index]? = some type) (hs : StructOf P type fields) {name : String}
    (hname : name ∉ type.properties.map (·.name)) :
    ((Datum.record (identifierOf table index) fields).recordOf (.ofTable options table)).get?
      name = none := by
  rw [recordOf_record, properties_ofTable h found]
  exact get?_assign_eq_none (h.wellMade type (List.mem_of_getElem? found)).nodup_names
    (by simp [hs.length_eq]) hname

theorem ordered_recordOf (program : Program) (identifier : String)
    (fields : List (String × Datum)) :
    NameMap.Ordered ((Datum.record identifier fields).recordOf program) := by
  rw [recordOf_record]
  exact ordered_assign _

/-- Structs with the same record have the same fields, if data with the same values are the same. -/
theorem StructOf.ext (h : Emittable table rank) (options : Options)
    (found : table.types[index]? = some type) (hs : StructOf P type fields)
    {fields' : List (String × Datum)} (hs' : StructOf P type fields')
    (hinj : ∀ (i : Nat) (name : String) (datum datum' : Datum), fields[i]? = some (name, datum) →
      fields'[i]? = some (name, datum') →
      datum.value? (.ofTable options table) = datum'.value? (.ofTable options table) →
      datum = datum')
    (hrecord : (Datum.record (identifierOf table index) fields).recordOf (.ofTable options table) =
      (Datum.record (identifierOf table index) fields').recordOf (.ofTable options table)) :
    fields = fields' := by
  refine fields_ext (hs.names.trans hs'.names.symm) fun i name datum datum' hfield hfield' => ?_
  have hlt : i < type.properties.length := hs.length_eq ▸ (List.getElem?_eq_some_iff.1 hfield).1
  have hp := List.getElem?_eq_getElem hlt
  refine hinj i name datum datum' hfield hfield' ?_
  rw [← get?_recordOf h options found hs hp hfield, hrecord,
    get?_recordOf h options found hs' hp hfield']

/-- **Structs that stand for the same record are the same.** -/
theorem HasShape.value?_inj (h : Emittable table rank)
    (hs : HasShape (.ofTable options table) shape datum)
    (hs' : HasShape (.ofTable options table) shape datum')
    (heq : datum.value? (.ofTable options table) = datum'.value? (.ofTable options table)) :
    datum = datum' := by
  induction hs generalizing datum' with
  | @text content =>
    cases hs' with
    | @text content' =>
      have : content = content' := Option.map_injective (fun _ _ => Value.text.inj) heq
      rw [this]
  | @record identifier emitted fields found names values ih =>
    cases hs' with
    | @record _ emitted' fields' found' names' values' =>
      cases found.symm.trans found'
      obtain ⟨index, type, htype, rfl, rfl⟩ := exists_of_find? found
      refine congrArg _ ((structOf_iff.2 ⟨names, values⟩).ext h options htype
        (structOf_iff.2 ⟨names', values'⟩) ?_ (congrArg Codec.recordOf heq))
      intro i name datum datum' hfield hfield' hvalue
      obtain ⟨shape, hdeclared⟩ := exists_declared names hfield
      exact ih i name shape datum hdeclared hfield
        (values' i name shape datum' hdeclared hfield') hvalue
  | absent =>
    cases hs' with
    | absent => rfl
    | boxed shape => simp [Datum.value?, shape.value?_eq] at heq
  | boxed shape ih =>
    cases hs' with
    | absent => simp [Datum.value?, shape.value?_eq] at heq
    | boxed shape' => rw [ih shape' heq]
  | texts =>
    cases hs' with
    | texts =>
      simp only [Datum.value?, Option.some.injEq, Value.list.injEq] at heq
      rw [List.map_injective_iff.2 (fun _ _ => Value.text.inj) heq]
  | records shapes ih =>
    cases hs' with
    | records shapes' =>
      simp only [Datum.value?, Option.some.injEq, Value.list.injEq, itemValues_of_forall shapes,
        itemValues_of_forall shapes'] at heq
      have hlen := congrArg List.length heq
      rw [List.length_map, List.length_map] at hlen
      rw [List.ext_getElem hlen fun i hi hi' => ?_]
      refine ih _ (List.getElem_mem hi) (shapes' _ (List.getElem_mem hi')) ?_
      rw [(shapes _ (List.getElem_mem hi)).value?_eq, (shapes' _ (List.getElem_mem hi')).value?_eq]
      simpa [hi, hi'] using congrArg (·[i]?) heq

end FixedWidth.Emit
