import FixedWidth.Emit.Source
import FixedWidth.Proofs.EmittedNames
import FixedWidth.Proofs.WellFormed

/-!
# Proofs/EmittedTypes — what is emitted for a table

An `EmittedType` is the artifact of a type together with the fields that its struct declares, and a
`Program` has one for each type of a table. Types are found by their identifiers (`find?_ofTable`),
as routines find each other.
-/

namespace FixedWidth.Emit

open Table (ItemType Property RecordType TypeTable WellMade)

/-! ## Declarations -/

/-- The type of a field of an emitted struct. -/
inductive FieldShape where
  /-- An optional text. -/
  | text
  /-- A struct. -/
  | record (type : String)
  /-- An optional struct in a box. -/
  | boxed (type : String)
  /-- Texts. -/
  | texts
  /-- Structs. -/
  | records (type : String)
  deriving DecidableEq, Repr

namespace FieldShape

/-- The type of the field of a property, where `identify` gives the identifiers of types. -/
def ofProperty (identify : Nat → String) (property : Property) : FieldShape :=
  match property.kind with
  | .text _ => text
  | .nested target =>
    if property.recursive then boxed (identify target) else record (identify target)
  | .list (.record target) _ => records (identify target)
  | .list (.text _) _ => texts

/-- The type in source. -/
def render : FieldShape → String
  | text => "Option<String>"
  | record type => type
  | boxed type => s!"Option<Box<{type}>>"
  | texts => "Vec<String>"
  | records type => s!"Vec<{type}>"

theorem render_ofProperty (identify : Nat → String) (property : Property) :
    (ofProperty identify property).render = fieldType identify property := by
  rw [ofProperty, fieldType]
  rcases property.kind with _ | _ | ⟨_ | _, _⟩
  · rfl
  · simp only
    split <;> rfl
  · rfl
  · rfl

end FieldShape

/-- What is emitted for one type, with the fields that its struct declares. -/
structure EmittedType where
  /-- The struct and the routines. -/
  artifact : Artifact
  /-- The fields of the struct with their types. -/
  fields : List (String × FieldShape)
  deriving DecidableEq, Repr

/-- The identifier of the type at an index. -/
def identifierOf (table : TypeTable) (index : Nat) : String :=
  (TypeIdentifiers.ofNames table.names).get (table.typeName index)

namespace EmittedType

/-- What is emitted for a type of a table. -/
def ofType (options : Options) (table : TypeTable) (type : RecordType) : EmittedType where
  artifact := .ofType options table (.ofNames table.names) type
  fields := (fieldIdentifiers (type.properties.map (·.name))).zip
    (type.properties.map (FieldShape.ofProperty (identifierOf table)))

/-- The identifier of the struct. -/
def identifier (emitted : EmittedType) : String := emitted.artifact.encode.type

/-- The struct declares its fields with their types. -/
theorem mem_definition {options : Options} {table : TypeTable} {type : RecordType} {field : String}
    {shape : FieldShape} (h : (field, shape) ∈ (ofType options table type).fields) :
    ⟨1, s!"pub {field}: {shape.render},"⟩ ∈ (ofType options table type).artifact.definition := by
  obtain ⟨property, hmem, hshape⟩ : ∃ property, (field, property) ∈
      (fieldIdentifiers (type.properties.map (·.name))).zip type.properties ∧
        FieldShape.ofProperty (identifierOf table) property = shape := by
    rw [ofType, List.zip_map_right, List.mem_map] at h
    obtain ⟨⟨field', property⟩, hmem, heq⟩ := h
    cases heq
    exact ⟨property, hmem, rfl⟩
  have hne : type.properties.isEmpty = false := by
    rw [List.isEmpty_eq_false_iff]
    exact List.ne_nil_of_mem (List.of_mem_zip hmem).2
  have hline : (⟨1, s!"pub {field}: {shape.render},"⟩ : Line) ∈
      fieldLines options (identifierOf table) field property := by
    rw [← hshape, FieldShape.render_ofProperty, fieldLines]
    exact List.mem_append_right _ (List.mem_singleton_self _)
  simp only [ofType, Artifact.ofType, structLines, hne, Bool.false_eq_true, if_false,
    List.mem_append]
  exact Or.inl (Or.inr (Or.inl (Or.inr (List.mem_flatMap.2 ⟨(field, property), hmem, hline⟩))))

end EmittedType

/-- What is emitted for the types of a table, in their order. -/
abbrev Program := List EmittedType

namespace Program

/-- What is emitted for a table. -/
def ofTable (options : Options) (table : TypeTable) : Program :=
  table.types.map (EmittedType.ofType options table)

/-- What is emitted under an identifier. -/
def find? (program : Program) (identifier : String) : Option EmittedType :=
  List.find? (·.identifier == identifier) program

/-- The properties of the type with an identifier. -/
def properties (program : Program) (identifier : String) : List String :=
  ((program.find? identifier).map (·.artifact.properties)).getD []

theorem map_artifact_ofTable (options : Options) (table : TypeTable) :
    (ofTable options table).map (·.artifact) = artifactList options table := by
  rw [ofTable, artifactList, List.map_map]
  rfl

end Program

/-! ## Types of a table -/

/-- **What emitted source relies on in a table.** -/
structure Emittable (table : TypeTable) (rank : Nat → Nat) : Prop where
  names_nodup : table.names.Nodup
  ranked : Table.Ranked table.types rank
  wellMade : ∀ type ∈ table.types, WellMade type.properties type.steps
  recursive_fits : ∀ type ∈ table.types, ∀ property ∈ type.properties,
    property.recursive = true → ∃ target, property.kind.target? = some target

theorem exists_emittable (registry : Schema.Registry) (id : String) :
    ∃ rank, Emittable (Table.compile registry id) rank := by
  have hrun := Table.compiles_compile registry id
  obtain ⟨rank, hr⟩ := hrun.exists_ranked
  exact ⟨rank, hrun.nodup_names, hr, hrun.wellMade, fun type hmem =>
    (hrun.wellFormed_of_mem hmem).recursive_fits⟩

variable {options : Options} {table : TypeTable} {rank : Nat → Nat} {index : Nat}
  {type : RecordType}

theorem identifierOf_eq (options : Options) (found : table.types[index]? = some type) :
    identifierOf table index = (EmittedType.ofType options table type).identifier := by
  rw [identifierOf, TypeTable.typeName, found]
  rfl

/-- The identifiers of a table differ. -/
theorem nodup_identifiers (h : Emittable table rank) (options : Options) :
    ((Program.ofTable options table).map (·.identifier)).Nodup := by
  have heq : (Program.ofTable options table).map (·.identifier) =
      Naming.distinct (table.names.map typeIdentifier) := by
    refine List.ext_getElem? fun i => ?_
    cases found : table.types[i]? with
    | none =>
      have hlen : table.names.length ≤ i := by
        simpa [TypeTable.names] using List.getElem?_eq_none_iff.1 found
      rw [List.getElem?_eq_none (by simpa [Program.ofTable, TypeTable.names] using hlen),
        List.getElem?_eq_none (by rwa [Naming.length_distinct, List.length_map])]
    | some type =>
      have hname : table.names[i]? = some type.name := by simp [TypeTable.names, found]
      rw [TypeIdentifiers.get_ofNames h.names_nodup hname]
      simp [Program.ofTable, found]
      rfl
  rw [heq]
  exact Naming.nodup_distinct _

/-- **A type of the table is found by its identifier.** -/
theorem find?_ofTable (h : Emittable table rank) (found : table.types[index]? = some type) :
    (Program.ofTable options table).find? (identifierOf table index) =
      some (.ofType options table type) := by
  rw [identifierOf_eq options found]
  exact Table.find?_eq_of_nodup (nodup_identifiers h options)
    (List.mem_map_of_mem (List.mem_of_getElem? found))

theorem properties_ofTable (h : Emittable table rank) (found : table.types[index]? = some type) :
    (Program.ofTable options table).properties (identifierOf table index) =
      type.properties.map (·.name) := by
  rw [Program.properties, find?_ofTable h found]
  rfl

theorem map_fst_fields :
    (EmittedType.ofType options table type).fields.map Prod.fst =
      fieldIdentifiers (type.properties.map (·.name)) := by
  rw [EmittedType.ofType, List.map_fst_zip]
  simp [length_fieldIdentifiers]

theorem getElem?_fields {i : Nat} {property : Property} (hp : type.properties[i]? = some property)
    {name : String} {shape : FieldShape} :
    (EmittedType.ofType options table type).fields[i]? = some (name, shape) ↔
      (fieldIdentifiers (type.properties.map (·.name)))[i]? = some name ∧
        FieldShape.ofProperty (identifierOf table) property = shape := by
  rw [EmittedType.ofType, List.getElem?_zip_eq_some]
  simp [hp]

/-- What was emitted belongs to a type of the table. -/
theorem exists_of_find? {identifier : String} {emitted : EmittedType}
    (found : (Program.ofTable options table).find? identifier = some emitted) :
    ∃ index type, table.types[index]? = some type ∧ identifier = identifierOf table index ∧
      emitted = .ofType options table type := by
  obtain ⟨type, hmem, rfl⟩ := List.mem_map.1 (List.mem_of_find?_eq_some found)
  obtain ⟨index, htype⟩ := List.mem_iff_getElem?.1 hmem
  have hidentifier : (EmittedType.ofType options table type).identifier = identifier := by
    simpa using List.find?_some found
  exact ⟨index, type, htype, hidentifier ▸ (identifierOf_eq options htype).symm, rfl⟩

end FixedWidth.Emit
