import FixedWidth.Proofs.EmittedEncoder
import FixedWidth.Proofs.EmittedReading

/-!
# Proofs/Emitted — emitted source and the codec

What is emitted for a type says the same as the type itself. Its struct has a field for each
property, and its routines, read from their lines, use no variable that they do not bind before.
They write and read what the codec writes and reads for the records that structs stand for
(`emitted_followsCodec`).
-/

namespace FixedWidth.Emit

open Table (RecordType TypeTable compile)
open Wire (Buffer)

/-- **What is emitted for the type at an index follows the codec.** -/
structure FollowsCodec (options : Options) (table : TypeTable) (index : Nat)
    (emitted : EmittedType) : Prop where
  /-- The artifact is the one in the emitted source. -/
  artifact_eq : (artifactList options table)[index]? = some emitted.artifact
  /-- Structs find each other by their identifiers. -/
  find?_eq : (Program.ofTable options table).find? (identifierOf table index) = some emitted
  /-- The struct has one field for each property. -/
  fields_eq : emitted.fields.map Prod.fst = fieldIdentifiers emitted.artifact.properties
  /-- The struct declares its fields. -/
  declares : ∀ field shape, (field, shape) ∈ emitted.fields →
    ⟨1, s!"pub {field}: {shape.render},"⟩ ∈ emitted.artifact.definition
  /-- The lines of the routine that writes say what it is. -/
  encode_read : emitted.encodeRoutine? = some emitted.artifact.encode
  /-- The lines of the routine that reads say what it is. -/
  decode_read : emitted.decodeRoutine? = some emitted.artifact.decode
  /-- The routine that writes uses what it binds. -/
  encode_closed : emitted.artifact.encode.Closed
  /-- The routine that reads uses and changes what it has bound before. -/
  decode_closed : emitted.artifact.decode.Closed
  /-- The buffer goes by its plain name where it is used, and only there. -/
  buffer_iff : emitted.artifact.encode.parameter = "buffer" ↔
    "buffer" ∈ emitted.artifact.encode.uses
  /-- The cursor goes by its plain name where it is used, and only there. -/
  cursor_iff : emitted.artifact.decode.parameter = "cursor" ↔
    ∃ statement ∈ emitted.artifact.decode.statements, "cursor" ∈ statement.uses
  /-- The start is bound where it is used, and only there. -/
  start_iff : .bindStart ∈ emitted.artifact.decode.statements ↔
    ∃ statement ∈ emitted.artifact.decode.statements, "start" ∈ statement.uses
  /-- The struct is bound as mutable where a statement changes it, and only there. -/
  mutable_iff : .bindValue true ∈ emitted.artifact.decode.statements ↔
    ∃ statement ∈ emitted.artifact.decode.statements, "value" ∈ statement.changes
  /-- Each struct is written like its record, and only so. -/
  encodes : ∀ struct,
    HasShape (.ofTable options table) (.record (identifierOf table index)) struct →
    ∃ out, Codec.encode table index (struct.recordOf (.ofTable options table)) = .ok out ∧
      ∀ buffer last, Executes (.ofTable options table) [.encode struct] buffer last ↔
        last = buffer.append out
  /-- Each text is read. -/
  reads : ∀ text, ∃ struct last, Runs (.ofTable options table)
    (.struct (identifierOf table index)) (.ofText text) struct last
  /-- The struct that is read is the one that stands for the record. -/
  decodes : ∀ text struct,
    (∃ last, Runs (.ofTable options table) (.struct (identifierOf table index)) (.ofText text)
      struct last) ↔
    HasShape (.ofTable options table) (.record (identifierOf table index)) struct ∧
      struct.recordOf (.ofTable options table) = Codec.decode table index text

/-- **Emitted source follows the codec**: what is emitted for any type of a compiled table does. -/
theorem emitted_followsCodec (options : Options) (registry : Schema.Registry) (id : String)
    (index : Nat) (type : RecordType) (found : (compile registry id).types[index]? = some type) :
    ∃ emitted, FollowsCodec options (compile registry id) index emitted := by
  obtain ⟨rank, h⟩ := exists_emittable registry id
  have hmem := List.mem_of_getElem? found
  have hm := h.wellMade type hmem
  have hfits := h.recursive_fits type hmem
  refine ⟨.ofType options (compile registry id) type, ?_, find?_ofTable h found, map_fst_fields,
    fun _ _ => EmittedType.mem_definition, EmittedType.encodeRoutine?_ofType hm,
    EmittedType.decodeRoutine?_ofType hm, EncodeRoutine.closed_ofType ..,
    DecodeRoutine.closed_ofType hm hfits _ _, EncodeRoutine.parameter_eq_iff_mem_uses _ _ hm,
    DecodeRoutine.parameter_eq_iff_exists_uses hm hfits _ _,
    DecodeRoutine.bindStart_mem_iff_exists_uses hm hfits _ _,
    DecodeRoutine.bindValue_mem_iff_exists_changes hm _ _,
    fun struct => executes_iff h options found, fun text => (runs_iff h options found text).1,
    fun text => (runs_iff h options found text).2⟩
  rw [← Program.map_artifact_ofTable, List.getElem?_map, Program.ofTable, List.getElem?_map, found]
  rfl

/-- The parcel has a boxed parcel inside, a struct in a field of its own, and a list of structs. -/
theorem parcel_followsCodec : ∃ type, (compile Table.parcels "Parcel").types[0]? = some type ∧
    ∃ emitted, FollowsCodec .standard (compile Table.parcels "Parcel") 0 emitted := by
  have found : (compile Table.parcels "Parcel").types[0]? = some _ :=
    List.getElem?_eq_getElem (by decide +kernel)
  exact ⟨_, found, emitted_followsCodec .standard Table.parcels "Parcel" 0 _ found⟩

end FixedWidth.Emit
