import FixedWidth.Layout
import FixedWidth.Schema.Node
import FixedWidth.Table.Repetition

/-!
# Table/Basic — compiled record types

A `TypeTable` holds the record types of one root in the order they were found. A `RecordType` has
named properties and the steps that bring them to the wire; `RecordType.flatWidth?` adds up the
widths of a type without nested records and lists. Types refer to each other, and steps to
properties, by index.
-/

namespace FixedWidth.Table

open Schema (Provenance)

/-- What the items of a list are. -/
inductive ItemType where
  /-- Records of a type. -/
  | record (target : Nat)
  /-- Texts; without a layout they have no place on the wire. -/
  | text (layout : Option Layout)
  deriving DecidableEq, Repr

/-- What a property holds. -/
inductive PropertyKind where
  /-- A text; without a layout it has no place on the wire. -/
  | text (layout : Option Layout)
  /-- A record of a type. -/
  | nested (target : Nat)
  /-- Items. -/
  | list (item : ItemType) (repetition : Repetition)
  deriving DecidableEq, Repr

/-- A member of a record type. -/
structure Property where
  /-- A name that no other property of the type has. -/
  name : String
  /-- What the property holds. -/
  kind : PropertyKind
  /-- Whether its type was still being compiled when the property was added. -/
  recursive : Bool
  /-- Where the property was declared. -/
  place : Provenance
  deriving DecidableEq, Repr

/-- A step from a record to the wire, or back. -/
inductive Step where
  /-- A text in a field. -/
  | field (property : Nat) (layout : Layout)
  /-- A nested record. -/
  | nested (property : Nat)
  /-- The items of a list. -/
  | list (property : Nat)
  /-- A literal in a text field. -/
  | constant (value : String) (width : Nat)
  /-- Spaces. -/
  | padding (width : Nat)
  /-- A reference that leads nowhere. -/
  | unresolved (reference : String)
  /-- A reference into itself. -/
  | cycle (reference : String)
  deriving DecidableEq, Repr

/-- The property that a step reads or writes. -/
def Step.property? : Step → Option Nat
  | field property _ | nested property | list property => some property
  | _ => none

/-- A compiled record type. -/
structure RecordType where
  /-- The name, which no other type of the table has. -/
  name : String
  /-- Members in the order they were found. -/
  properties : List Property
  /-- Steps in the order of the wire. -/
  steps : List Step
  /-- Where the type was declared. -/
  place : Provenance
  deriving DecidableEq, Repr

namespace RecordType

/-- The property with a name. -/
def property? (type : RecordType) (name : String) : Option Property :=
  type.properties.find? (·.name == name)

/-- The width of a step, if the step alone decides it. -/
def stepWidth? : Step → Option Nat
  | .field _ layout => some layout.width
  | .constant _ width | .padding width => some width
  | .unresolved _ | .cycle _ => some 0
  | .nested _ | .list _ => none

/-- The width of the type, if it has neither nested records nor lists. -/
def flatWidth? (type : RecordType) : Option Nat :=
  type.steps.foldlM (fun total step => (stepWidth? step).map (total + ·)) 0

end RecordType

/-- A problem found while compiling. -/
inductive Diagnostic where
  /-- The root is not registered. -/
  | rootNotFound (id : String)
  /-- A reference leads nowhere. -/
  | unresolvedReference (reference inType : String) (place : Provenance)
  /-- A reference leads into what includes it. -/
  | referenceCycle (reference inType : String) (place : Provenance)
  /-- The length of a padding is no numeral. -/
  | invalidPadding (value inType : String) (place : Provenance)
  deriving DecidableEq, Repr

/-- The wording of a problem. -/
def Diagnostic.message : Diagnostic → String
  | rootNotFound id => s!"root '{id}' not found"
  | unresolvedReference reference inType place =>
    s!"{place.render}: unresolved reference '{reference}' in type '{inType}'"
  | referenceCycle reference inType place =>
    s!"{place.render}: reference cycle through '{reference}' in type '{inType}'"
  | invalidPadding value inType place =>
    s!"{place.render}: invalid padding length '{value}' in type '{inType}'"

/-- The record types of one root. -/
structure TypeTable where
  /-- Types in the order they were found. -/
  types : List RecordType
  /-- Index of the root type. -/
  root : Option Nat
  /-- Problems in the order they were found. -/
  diagnostics : List Diagnostic
  deriving DecidableEq, Repr

namespace TypeTable

/-- No types. -/
def empty : TypeTable := ⟨[], none, []⟩

/-- The index of the type with a name. -/
def find? (table : TypeTable) (name : String) : Option Nat :=
  table.types.findIdx? (·.name == name)

/-- The name of the type at an index. -/
def typeName (table : TypeTable) (index : Nat) : String :=
  ((table.types[index]?).map (·.name)).getD ""

/-- The type of the root. -/
def rootType? (table : TypeTable) : Option RecordType := table.root.bind (table.types[·]?)

/-- The names of the types in order. -/
def names (table : TypeTable) : List String := table.types.map (·.name)

end TypeTable

end FixedWidth.Table
