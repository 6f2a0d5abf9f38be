import FixedWidth.Emit.Identifier
import FixedWidth.Emit.LayoutExpression
import FixedWidth.Emit.Line
import FixedWidth.Emit.StepUse

/-!
# Emit/Encoder — the routine that writes a type

An `EncodeStatement` is one statement of an emitted routine that writes a struct; `EncodeRoutine`
is the whole routine. `EncodeStatement.ofStep?` chooses the statement of a step, and
`EncodeRoutine.lines` renders the routine. The buffer is named with an underscore when no step
touches the wire.
-/

namespace FixedWidth.Emit

open Table (ItemType Property RecordType Repetition Step)

/-- A statement of a routine that writes. Fields and types go by their identifiers. -/
inductive EncodeStatement where
  /-- Writes a field; an unset one as the empty text. -/
  | putField (field : String) (layout : Layout)
  /-- Writes a literal. -/
  | putConstant (value : String) (width : Nat)
  /-- Writes spaces. -/
  | putPadding (width : Nat)
  /-- Writes a nested struct. -/
  | nested (field : String)
  /-- Writes a boxed struct if it is set. -/
  | boxed (field : String)
  /-- Writes every struct of a list. -/
  | allRecords (field : String)
  /-- Writes the first structs of a list. -/
  | firstRecords (field : String) (count : Nat)
  /-- Writes a number of structs, those that the list lacks as defaults. -/
  | countedRecords (field : String) (count : Nat) (itemType : String)
  /-- Writes every text of a list. -/
  | allTexts (field : String) (layout : Layout)
  /-- Writes a number of texts, those that the list lacks as empty texts. -/
  | countedTexts (field : String) (layout : Layout) (count : Nat)
  /-- Writes nothing. -/
  | comment (text : String)
  deriving DecidableEq, Repr

namespace EncodeStatement

/-- The statement of a list property. -/
def ofList (identify : Nat → String) (field : String) (property : Property) :
    ItemType → Repetition → EncodeStatement
  | .text none, _ => comment s!"{property.name}: items without declared width"
  | .text (some layout), .dynamic => allTexts field layout
  | .text (some layout), .fixed count => countedTexts field layout count
  | .record _, .dynamic => allRecords field
  | .record target, .fixed count =>
    if property.recursive then firstRecords field count
    else countedRecords field count (identify target)

/-- The statement of a step, where `fields` are the field identifiers of the type and `identify`
gives the identifiers of types. A step that fits its property always has one. -/
def ofStep? (identify : Nat → String) (type : RecordType) (fields : List String) :
    Step → Option EncodeStatement
  | .field index layout => some (putField (fields[index]?.getD "") layout)
  | .nested index => do
    let property ← type.properties[index]?
    let field := fields[index]?.getD ""
    return if property.recursive then boxed field else nested field
  | .list index => do
    let property ← type.properties[index]?
    match property.kind with
    | .list item repetition =>
      return ofList identify (fields[index]?.getD "") property item repetition
    | _ => failure
  | .constant value width => some (putConstant value width)
  | .padding width => some (putPadding width)
  | .unresolved reference => some (comment s!"unresolved reference '{reference}'")
  | .cycle reference => some (comment s!"reference cycle through '{reference}'")

/-- The lines of a statement. -/
def lines : EncodeStatement → List Line
  | putField field layout =>
    [⟨2, s!"buffer.put_field({layout.expression}, self.{field}.as_deref().unwrap_or(\"\"));"⟩]
  | putConstant value width =>
    [⟨2, s!"buffer.put_constant({Text.Quoted.string value}, {width});"⟩]
  | putPadding width => [⟨2, s!"buffer.put_padding({width});"⟩]
  | nested field => [⟨2, s!"self.{field}.encode_into(buffer);"⟩]
  | boxed field =>
    [⟨2, s!"if let Some(nested) = &self.{field} \x7b"⟩,
      ⟨3, "nested.encode_into(buffer);"⟩,
      ⟨2, "\x7d"⟩]
  | allRecords field =>
    [⟨2, s!"for item in &self.{field} \x7b"⟩,
      ⟨3, "item.encode_into(buffer);"⟩,
      ⟨2, "\x7d"⟩]
  | firstRecords field count =>
    [⟨2, s!"for item in self.{field}.iter().take({count}) \x7b"⟩,
      ⟨3, "item.encode_into(buffer);"⟩,
      ⟨2, "\x7d"⟩]
  | countedRecords field count itemType =>
    [⟨2, s!"for index in 0..{count} \x7b"⟩,
      ⟨3, s!"match self.{field}.get(index) \x7b"⟩,
      ⟨4, "Some(item) => item.encode_into(buffer),"⟩,
      ⟨4, s!"None => {itemType}::default().encode_into(buffer),"⟩,
      ⟨3, "\x7d"⟩,
      ⟨2, "\x7d"⟩]
  | allTexts field layout =>
    [⟨2, s!"for item in &self.{field} \x7b"⟩,
      ⟨3, s!"buffer.put_field({layout.expression}, item);"⟩,
      ⟨2, "\x7d"⟩]
  | countedTexts field layout count =>
    let item := s!"self.{field}.get(index).map_or(\"\", String::as_str)"
    [⟨2, s!"for index in 0..{count} \x7b"⟩,
      ⟨3, s!"buffer.put_field({layout.expression}, {item});"⟩,
      ⟨2, "\x7d"⟩]
  | comment text => [.comment 2 text]

end EncodeStatement

/-- A routine that writes a struct. -/
structure EncodeRoutine where
  /-- The identifier of the struct. -/
  type : String
  /-- The name of the buffer. -/
  parameter : String
  /-- The statements in order, if the type has steps. -/
  body : Option (List EncodeStatement)
  deriving DecidableEq, Repr

namespace EncodeRoutine

/-- The routine of a type. -/
def ofType (identify : Nat → String) (identifier : String) (type : RecordType) : EncodeRoutine :=
  let fields := fieldIdentifiers (type.properties.map (·.name))
  { type := identifier
    parameter := if type.steps.any (touchesWire type) then "buffer" else "_buffer"
    body :=
      if type.steps.isEmpty then none
      else some (type.steps.filterMap (EncodeStatement.ofStep? identify type fields)) }

/-- The statements of the routine. -/
def statements (routine : EncodeRoutine) : List EncodeStatement := routine.body.getD []

/-- The lines of the routine, with a blank one at the end. -/
def lines (routine : EncodeRoutine) : List Line :=
  let opening := s!"fn encode_into(&self, {routine.parameter}: &mut EncodeBuffer) \x7b"
  [⟨0, s!"impl HostEncode for {routine.type} \x7b"⟩]
    ++ (match routine.body with
      | none => [⟨1, opening ++ "\x7d"⟩]
      | some statements => [⟨1, opening⟩] ++ statements.flatMap (·.lines) ++ [⟨1, "\x7d"⟩])
    ++ [⟨0, "\x7d"⟩, .blank]

end EncodeRoutine

end FixedWidth.Emit
