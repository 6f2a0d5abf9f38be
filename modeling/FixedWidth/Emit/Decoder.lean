import FixedWidth.Emit.Identifier
import FixedWidth.Emit.LayoutExpression
import FixedWidth.Emit.Line
import FixedWidth.Emit.StepUse

/-!
# Emit/Decoder — the routine that reads a type

A `DecodeStatement` is one statement of an emitted routine that reads a struct; `DecodeRoutine` is
the whole routine. It first binds its variables (`DecodeStatement.bindings`): the struct, which
begins as a default, and the place where it starts if some property is recursive.
`DecodeStatement.ofStep?` chooses the statement of a step, and `DecodeRoutine.lines` renders the
routine.
-/

namespace FixedWidth.Emit

open Table (ItemType Property RecordType Repetition Step)

/-- A statement of a routine that reads. Fields and types go by their identifiers. -/
inductive DecodeStatement where
  /-- Remembers where the struct starts. -/
  | bindStart
  /-- Begins with a default struct; only a mutable one may change. -/
  | bindValue (mutable : Bool)
  /-- Reads a field. -/
  | takeField (field : String) (layout : Layout)
  /-- Passes over a literal or spaces. -/
  | skip (width : Nat)
  /-- Reads a nested struct. -/
  | nested (field type : String)
  /-- Reads a boxed struct, if the struct has progress and text remains. -/
  | boxed (field type : String)
  /-- Fills a list with empty texts. -/
  | emptyTexts (field : String) (count : Nat)
  /-- Reads texts to the end. -/
  | allTexts (field : String) (layout : Layout)
  /-- Reads a number of texts. -/
  | countedTexts (field : String) (layout : Layout) (count : Nat)
  /-- Reads structs to the end; a guarded list only if the struct has progress. -/
  | allRecords (field type : String) (guarded : Bool)
  /-- Reads at most a number of structs, if the struct has progress and text remains. -/
  | firstRecords (field type : String) (count : Nat)
  /-- Reads a number of structs. -/
  | countedRecords (field type : String) (count : Nat)
  /-- Reads nothing. -/
  | comment (text : String)
  deriving DecidableEq, Repr

namespace DecodeStatement

/-- The statements that bind the variables of the routine of a type. -/
def bindings (type : RecordType) : List DecodeStatement :=
  (if type.properties.any (·.recursive) then [bindStart] else [])
    ++ [bindValue (type.steps.any (assignsValue type))]

/-- The statement of a list property. -/
def ofList (identify : Nat → String) (field : String) (property : Property) :
    ItemType → Repetition → DecodeStatement
  | .text none, .dynamic => comment s!"{property.name}: items without declared width"
  | .text none, .fixed count => emptyTexts field count
  | .text (some layout), .dynamic => allTexts field layout
  | .text (some layout), .fixed count => countedTexts field layout count
  | .record target, .dynamic => allRecords field (identify target) property.recursive
  | .record target, .fixed count =>
    if property.recursive then firstRecords field (identify target) count
    else countedRecords field (identify target) count

/-- The statement of a step, where `fields` are the field identifiers of the type and `identify`
gives the identifiers of types. A step that fits its property always has one. -/
def ofStep? (identify : Nat → String) (type : RecordType) (fields : List String) :
    Step → Option DecodeStatement
  | .field index layout => some (takeField (fields[index]?.getD "") layout)
  | .nested index => do
    let property ← type.properties[index]?
    let field := fields[index]?.getD ""
    match property.kind with
    | .nested target =>
      return if property.recursive then boxed field (identify target)
        else nested field (identify target)
    | _ => failure
  | .list index => do
    let property ← type.properties[index]?
    match property.kind with
    | .list item repetition =>
      return ofList identify (fields[index]?.getD "") property item repetition
    | _ => failure
  | .constant _ width | .padding width => some (skip width)
  | .unresolved reference => some (comment s!"unresolved reference '{reference}'")
  | .cycle reference => some (comment s!"reference cycle through '{reference}'")

/-- The condition under which a recursive property is read. -/
def progressCondition : String := "cursor.position() > start && !cursor.is_at_end()"

/-- The lines of a statement. -/
def lines : DecodeStatement → List Line
  | bindStart => [⟨2, "let start = cursor.position();"⟩]
  | bindValue mutable =>
    let keyword := if mutable then "let mut" else "let"
    [⟨2, s!"{keyword} value = Self::default();"⟩]
  | takeField field layout =>
    [⟨2, s!"value.{field} = cursor.take_value({layout.expression}).map(str::to_string);"⟩]
  | skip width => [⟨2, s!"cursor.skip({width});"⟩]
  | nested field type => [⟨2, s!"value.{field} = {type}::decode_from(cursor);"⟩]
  | boxed field type =>
    [⟨2, s!"if {progressCondition} \x7b"⟩,
      ⟨3, s!"value.{field} = Some(Box::new({type}::decode_from(cursor)));"⟩,
      ⟨2, "\x7d"⟩]
  | emptyTexts field count => [⟨2, s!"value.{field} = vec![String::new(); {count}];"⟩]
  | allTexts field layout =>
    [⟨2, s!"while let Some(item) = cursor.take_value({layout.expression}) \x7b"⟩,
      ⟨3, s!"value.{field}.push(item.to_string());"⟩,
      ⟨2, "\x7d"⟩]
  | countedTexts field layout count =>
    let item := s!"cursor.take_value({layout.expression}).unwrap_or_default().to_string()"
    [⟨2, s!"for _ in 0..{count} \x7b"⟩,
      ⟨3, s!"value.{field}.push({item});"⟩,
      ⟨2, "\x7d"⟩]
  | allRecords field type guarded =>
    let condition := if guarded then progressCondition else "!cursor.is_at_end()"
    [⟨2, s!"while {condition} \x7b"⟩,
      ⟨3, "let before = cursor.position();"⟩,
      ⟨3, s!"let item = {type}::decode_from(cursor);"⟩,
      ⟨3, "if cursor.position() == before \x7b"⟩,
      ⟨4, "break;"⟩,
      ⟨3, "\x7d"⟩,
      ⟨3, s!"value.{field}.push(item);"⟩,
      ⟨2, "\x7d"⟩]
  | firstRecords field type count =>
    [⟨2, s!"for _ in 0..{count} \x7b"⟩,
      ⟨3, "if cursor.position() == start || cursor.is_at_end() \x7b"⟩,
      ⟨4, "break;"⟩,
      ⟨3, "\x7d"⟩,
      ⟨3, s!"value.{field}.push({type}::decode_from(cursor));"⟩,
      ⟨2, "\x7d"⟩]
  | countedRecords field type count =>
    [⟨2, s!"for _ in 0..{count} \x7b"⟩,
      ⟨3, s!"value.{field}.push({type}::decode_from(cursor));"⟩,
      ⟨2, "\x7d"⟩]
  | comment text => [.comment 2 text]

end DecodeStatement

/-- The struct that a routine answers with. -/
inductive DecodeResult where
  /-- The one that was bound. -/
  | value
  /-- A default one. -/
  | default
  deriving DecidableEq, Repr

/-- The line of a result. -/
def DecodeResult.line : DecodeResult → Line
  | value => ⟨2, "value"⟩
  | default => ⟨2, "Self::default()"⟩

/-- A routine that reads a struct. -/
structure DecodeRoutine where
  /-- The identifier of the struct. -/
  type : String
  /-- The name of the cursor. -/
  parameter : String
  /-- The statements in order. -/
  statements : List DecodeStatement
  /-- The struct at the end. -/
  result : DecodeResult
  deriving DecidableEq, Repr

namespace DecodeRoutine

/-- The routine of a type. -/
def ofType (identify : Nat → String) (identifier : String) (type : RecordType) : DecodeRoutine :=
  let fields := fieldIdentifiers (type.properties.map (·.name))
  let parameter := if type.steps.any (touchesWire type) then "cursor" else "_cursor"
  if type.steps.isEmpty then ⟨identifier, parameter, [], .default⟩
  else
    ⟨identifier, parameter, DecodeStatement.bindings type
      ++ type.steps.filterMap (DecodeStatement.ofStep? identify type fields), .value⟩

/-- The lines of the routine, with a blank one at the end. -/
def lines (routine : DecodeRoutine) : List Line :=
  [⟨0, s!"impl HostDecode for {routine.type} \x7b"⟩,
      ⟨1, s!"fn decode_from({routine.parameter}: &mut DecodeCursor<'_>) -> Self \x7b"⟩]
    ++ routine.statements.flatMap (·.lines)
    ++ [routine.result.line, ⟨1, "\x7d"⟩, ⟨0, "\x7d"⟩, .blank]

end DecodeRoutine

end FixedWidth.Emit
