import FixedWidth.Record
import FixedWidth.Table.Basic

/-!
# Codec/Encode — records to wire texts

`encode table index record` writes a record as an instance of a type, step by step. Unset texts are
written as empty fields and unset records as records without properties, except that a recursive
property is left out when it is unset. A value of the wrong kind is a `ValueMismatch`.
-/

namespace FixedWidth.Codec

open Table (ItemType Property PropertyKind RecordType Repetition Step TypeTable)

/-- The text on the wire, or the value that has none. -/
abbrev Encoded := Except ValueMismatch (List Char)

/-- Writes a record as an instance of the type at an index. -/
abbrev RecordEncoder := (index : Nat) → Record → Encoded

/-- The first `count` places of a list; those behind its last item are empty. -/
def slots (count : Nat) (items : List Value) : List (Option Value) :=
  (items.take count).map some ++ List.replicate (count - items.length) none

/-- A text item of the list `name`; an empty place is an empty text. -/
def encodeTextItem (name : String) (layout : Layout) : Option Value → Encoded
  | none => .ok (layout.encode [])
  | some (.text content) => .ok (layout.encode content.toList)
  | some other => .error ⟨name, .text, other.kind⟩

/-- A record item of the list `name`; an empty place is a record without properties. -/
def encodeRecordItem (encodeRecord : RecordEncoder) (name : String) (target : Nat) :
    Option Value → Encoded
  | none => encodeRecord target []
  | some (.record fields) => encodeRecord target fields
  | some other => .error ⟨name, .record, other.kind⟩

/-- Writes texts one after the other. -/
def concatM {α : Type} (write : α → Encoded) : List α → Encoded
  | [] => .ok []
  | item :: rest => do
    let first ← write item
    return first ++ (← concatM write rest)

/-- The number of places of a list on the wire. A recursive list has no empty places. -/
def placeCount (repetition : Repetition) (recursive : Bool) (length : Nat) : Nat :=
  match repetition with
  | .dynamic => length
  | .fixed count => if recursive then min count length else count

/-- The items of a list. -/
def encodeItems (encodeRecord : RecordEncoder) (property : Property) (item : ItemType)
    (repetition : Repetition) (items : List Value) : Encoded :=
  match item with
  | .text none => .ok []
  | .text (some layout) =>
    concatM (encodeTextItem property.name layout)
      (slots (placeCount repetition false items.length) items)
  | .record target =>
    concatM (encodeRecordItem encodeRecord property.name target)
      (slots (placeCount repetition property.recursive items.length) items)

/-- What a nested property writes. -/
def encodeNested (encodeRecord : RecordEncoder) (property : Property) (record : Record) :
    Encoded :=
  match property.kind with
  | .nested target => do
    match ← record.record property.name with
    | some nested => encodeRecord target nested
    | none => if property.recursive then return [] else encodeRecord target []
  | _ => .ok []

/-- What a list property writes. -/
def encodeList (encodeRecord : RecordEncoder) (property : Property) (record : Record) :
    Encoded :=
  match property.kind with
  | .list item repetition => do
    let items ← record.list property.name
    encodeItems encodeRecord property item repetition (items.getD [])
  | _ => .ok []

/-- What one step of a type writes. -/
def encodeStep (encodeRecord : RecordEncoder) (type : RecordType) (record : Record) :
    Step → Encoded
  | .field index layout =>
    match type.properties[index]? with
    | some property => do
      let value ← record.text property.name
      return layout.encode (value.getD "").toList
    | none => .ok []
  | .nested index =>
    match type.properties[index]? with
    | some property => encodeNested encodeRecord property record
    | none => .ok []
  | .list index =>
    match type.properties[index]? with
    | some property => encodeList encodeRecord property record
    | none => .ok []
  | .constant value width => .ok ((Layout.text width).encode value.toList)
  | .padding width => .ok (List.replicate width ' ')
  | .unresolved _ | .cycle _ => .ok []

/-- Writes a record as an instance of the type at an index. A record inside another is less deep,
and records that are not set are entered through properties without a cycle, so the depth and the
number of types are enough `fuel`. -/
def encodeWith (table : TypeTable) : (fuel : Nat) → RecordEncoder
  | 0, _, _ => .ok []
  | fuel + 1, index, record =>
    match table.types[index]? with
    | some type => concatM (encodeStep (encodeWith table fuel) type record) type.steps
    | none => .ok []

/-- The wire text of a record of the type at an index. -/
def encode (table : TypeTable) (index : Nat) (record : Record) : Encoded :=
  encodeWith table (record.depth + table.types.length + 1) index record

end FixedWidth.Codec
