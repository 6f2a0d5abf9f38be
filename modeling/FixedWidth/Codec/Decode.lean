import FixedWidth.Record
import FixedWidth.Table.Basic
import FixedWidth.Wire.Cursor

/-!
# Codec/Decode — wire texts to records

`decode table index text` reads a record of a type, step by step. A field behind the end of the
text stays unset. The number of items of a dynamic list and the depth of recursive records are not
on the wire: both end with the text, or where a record reads nothing.
-/

namespace FixedWidth.Codec

open Table (ItemType Property PropertyKind RecordType Repetition Step TypeTable)
open Wire (Cursor)

/-- Reads a record of the type at an index. -/
abbrev RecordDecoder := (index : Nat) → Cursor → Record × Cursor

/-! ## Items -/

/-- Reads texts to the end. Texts of positive width are at most as many as the characters that
remain. -/
def takeAll (layout : Layout) : (fuel : Nat) → Cursor → List Value × Cursor
  | 0, cursor => ([], cursor)
  | fuel + 1, cursor =>
    match cursor.takeValue layout with
    | (some text, next) =>
      let (rest, last) := takeAll layout fuel next
      (.text (String.ofList text) :: rest, last)
    | (none, _) => ([], cursor)

/-- Reads a number of texts; those behind the end are empty. -/
def takeExactly (layout : Layout) : (count : Nat) → Cursor → List Value × Cursor
  | 0, cursor => ([], cursor)
  | count + 1, cursor =>
    let (text, next) := cursor.takeValue layout
    let (rest, last) := takeExactly layout count next
    (.text (String.ofList (text.getD [])) :: rest, last)

/-- Reads records to the end, or to one that reads nothing, while `continues` holds. Each of them
reads at least one of the characters that remain. -/
def decodeAll (decodeItem : Cursor → Record × Cursor) (continues : Cursor → Bool) :
    (fuel : Nat) → Cursor → List Value × Cursor
  | 0, cursor => ([], cursor)
  | fuel + 1, cursor =>
    if continues cursor && !cursor.isAtEnd then
      let (item, next) := decodeItem cursor
      if next.position = cursor.position then ([], next)
      else
        let (rest, last) := decodeAll decodeItem continues fuel next
        (.record item :: rest, last)
    else ([], cursor)

/-- Reads at most a number of records, while `continues` holds and text remains. -/
def decodeUpTo (decodeItem : Cursor → Record × Cursor) (continues : Cursor → Bool) :
    (count : Nat) → Cursor → List Value × Cursor
  | 0, cursor => ([], cursor)
  | count + 1, cursor =>
    if continues cursor && !cursor.isAtEnd then
      let (item, next) := decodeItem cursor
      let (rest, last) := decodeUpTo decodeItem continues count next
      (.record item :: rest, last)
    else ([], cursor)

/-- Reads a number of records. -/
def decodeExactly (decodeItem : Cursor → Record × Cursor) :
    (count : Nat) → Cursor → List Value × Cursor
  | 0, cursor => ([], cursor)
  | count + 1, cursor =>
    let (item, next) := decodeItem cursor
    let (rest, last) := decodeExactly decodeItem count next
    (.record item :: rest, last)

/-- Whether something was read since a record began at position `start`. -/
def hasProgress (start : Nat) (cursor : Cursor) : Bool := start < cursor.position

/-- Reads the items of a list in a record that begins at position `start`. -/
def decodeItems (decodeRecord : RecordDecoder) (recursive : Bool) (start : Nat)
    (item : ItemType) (repetition : Repetition) (cursor : Cursor) : List Value × Cursor :=
  match item, repetition with
  | .text none, .dynamic => ([], cursor)
  | .text none, .fixed count => (List.replicate count (.text ""), cursor)
  | .text (some layout), .dynamic => takeAll layout cursor.remaining cursor
  | .text (some layout), .fixed count => takeExactly layout count cursor
  | .record target, .dynamic =>
    decodeAll (decodeRecord target) (fun c => !recursive || hasProgress start c)
      cursor.remaining cursor
  | .record target, .fixed count =>
    if recursive then decodeUpTo (decodeRecord target) (hasProgress start) count cursor
    else decodeExactly (decodeRecord target) count cursor

/-! ## Steps -/

/-- Reads a nested property into a record that begins at position `start`. A recursive one is read
only if the record has progress and text remains. -/
def decodeNested (decodeRecord : RecordDecoder) (property : Property) (start : Nat)
    (record : Record) (cursor : Cursor) : Record × Cursor :=
  match property.kind with
  | .nested target =>
    if !property.recursive || (hasProgress start cursor && !cursor.isAtEnd) then
      let (nested, next) := decodeRecord target cursor
      (record.insert property.name (.record nested), next)
    else (record, cursor)
  | _ => (record, cursor)

/-- Reads a list property into a record that begins at position `start`. -/
def decodeList (decodeRecord : RecordDecoder) (property : Property) (start : Nat)
    (record : Record) (cursor : Cursor) : Record × Cursor :=
  match property.kind with
  | .list item repetition =>
    let (items, next) := decodeItems decodeRecord property.recursive start item repetition cursor
    (record.insert property.name (.list items), next)
  | _ => (record.insert property.name (.list []), cursor)

/-- Reads one step into a record that begins at position `start`. -/
def decodeStep (decodeRecord : RecordDecoder) (type : RecordType) (start : Nat) :
    Record × Cursor → Step → Record × Cursor
  | (record, cursor), .field index layout =>
    match cursor.takeValue layout with
    | (some text, next) =>
      match type.properties[index]? with
      | some property => (record.insert property.name (.text (String.ofList text)), next)
      | none => (record, next)
    | (none, next) => (record, next)
  | (record, cursor), .nested index =>
    match type.properties[index]? with
    | some property => decodeNested decodeRecord property start record cursor
    | none => (record, cursor)
  | (record, cursor), .list index =>
    match type.properties[index]? with
    | some property => decodeList decodeRecord property start record cursor
    | none => (record, cursor)
  | (record, cursor), .constant _ width => (record, (cursor.skip width).2)
  | (record, cursor), .padding width => (record, (cursor.skip width).2)
  | (record, cursor), .unresolved _ => (record, cursor)
  | (record, cursor), .cycle _ => (record, cursor)

/-- Reads a record of the type at an index. Records that are entered through properties without a
cycle are at most as many as the types, and a recursive one begins at a later character, so the
product of both numbers is enough `fuel`. -/
def decodeWith (table : TypeTable) : (fuel : Nat) → RecordDecoder
  | 0, _, cursor => ([], cursor)
  | fuel + 1, index, cursor =>
    match table.types[index]? with
    | some type =>
      type.steps.foldl (decodeStep (decodeWith table fuel) type cursor.position) ([], cursor)
    | none => ([], cursor)

/-- The record of the type at an index that a wire text holds. -/
def decode (table : TypeTable) (index : Nat) (text : List Char) : Record :=
  (decodeWith table (table.types.length * (text.length + 1) + 1) index (.ofText text)).1

end FixedWidth.Codec
