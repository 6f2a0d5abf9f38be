import FixedWidth.Emit.Identifier
import FixedWidth.Emit.Line
import FixedWidth.Table.Basic

/-!
# Emit/Struct — the struct of a type

A type becomes a struct with one field a property. `fieldType` gives the type of a field: texts and
recursive records may be unset, lists may be empty.
-/

namespace FixedWidth.Emit

open Table (ItemType Property RecordType)

/-- What emitted source looks like. -/
structure Options where
  /-- Whether comments say where types and properties were declared. -/
  sourceComments : Bool
  /-- The traits that structs derive; a default is always among them. -/
  derives : List String
  deriving DecidableEq, Repr

namespace Options

/-- Comments, and the usual traits. -/
def standard : Options := ⟨true, ["Debug", "Clone", "Default", "PartialEq", "Eq"]⟩

/-- The list of derived traits. -/
def deriveList (options : Options) : String :=
  ", ".intercalate
    (if options.derives.contains "Default" then options.derives
      else options.derives ++ ["Default"])

end Options

/-- The type of the field of a property, where `identify` gives the identifiers of types. -/
def fieldType (identify : Nat → String) (property : Property) : String :=
  match property.kind with
  | .text _ => "Option<String>"
  | .nested target =>
    if property.recursive then s!"Option<Box<{identify target}>>" else identify target
  | .list (.record target) _ => s!"Vec<{identify target}>"
  | .list (.text _) _ => "Vec<String>"

/-- The comment that says where something was declared, if there is to be one. -/
def sourceComment (options : Options) (depth : Nat) (place : Schema.Provenance) : List Line :=
  if options.sourceComments then [.comment depth s!"Source: {place.render}"] else []

/-- The lines of a field. -/
def fieldLines (options : Options) (identify : Nat → String) (field : String)
    (property : Property) : List Line :=
  sourceComment options 1 property.place
    ++ [⟨1, s!"pub {field}: {fieldType identify property},"⟩]

/-- The lines of a struct, with a blank one at the end. -/
def structLines (options : Options) (identify : Nat → String) (identifier : String)
    (type : RecordType) : List Line :=
  let fields := fieldIdentifiers (type.properties.map (·.name))
  sourceComment options 0 type.place
    ++ [⟨0, s!"/// {type.name} record."⟩, ⟨0, s!"#[derive({options.deriveList})]"⟩,
      ⟨0, "#[allow(non_snake_case)]"⟩]
    ++ (if type.properties.isEmpty then [⟨0, s!"pub struct {identifier} \x7b\x7d"⟩]
      else
        [⟨0, s!"pub struct {identifier} \x7b"⟩]
          ++ ((fields.zip type.properties).flatMap fun (field, property) =>
            fieldLines options identify field property)
          ++ [⟨0, "\x7d"⟩])
    ++ [.blank]

end FixedWidth.Emit
