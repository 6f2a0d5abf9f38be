import FixedWidth.Naming.Sanitized
import FixedWidth.Naming.Scope
import FixedWidth.Table.Basic
import FixedWidth.Table.Expansion

/-!
# Table/Compile — from a registered node to a table of types

`compile registry id` makes a type of the node registered as `id`, and one of each group and item
node found on the way, depth first. A type belongs to its name: a second node of the same name
refers to the type of the first. A property is recursive when its type is still unfinished at that
moment. Every problem becomes a `Diagnostic`; compiling never fails.
-/

namespace FixedWidth.Table

open Naming (Scope sanitize)
open Schema (Node Provenance Registry)

/-! ## The table so far -/

/-- A table that still grows. Types are entered with their name when they are begun, and get their
members when they are finished. -/
structure Draft where
  /-- Types in the order they were begun. -/
  types : List RecordType
  /-- Problems in the order they were found. -/
  diagnostics : List Diagnostic
  deriving DecidableEq, Repr

namespace Draft

/-- Nothing found yet. -/
def empty : Draft := ⟨[], []⟩

/-- The index of the type with a name. -/
def find? (draft : Draft) (name : String) : Option Nat :=
  draft.types.findIdx? (·.name == name)

/-- Begins a type. -/
def reserve (draft : Draft) (name : String) (place : Provenance) : Draft :=
  { draft with types := draft.types ++ [⟨name, [], [], place⟩] }

/-- Finishes the type at an index. -/
def define (draft : Draft) (index : Nat) (properties : List Property) (steps : List Step) :
    Draft :=
  { draft with
    types := draft.types.modify index fun type =>
      { type with properties := properties, steps := steps } }

/-- Adds a problem. -/
def report (draft : Draft) (problem : Diagnostic) : Draft :=
  { draft with diagnostics := draft.diagnostics ++ [problem] }

end Draft

/-- A type, and whether it is still unfinished. -/
structure TypeRef where
  /-- The index of the type. -/
  index : Nat
  /-- Whether the type was being compiled when it was referred to. -/
  recursive : Bool
  deriving DecidableEq, Repr

/-! ## The type being filled -/

/-- The members of a type so far, together with the table so far. -/
structure Body where
  /-- Names given to properties. -/
  scope : Scope
  /-- Properties so far. -/
  properties : List Property
  /-- Steps so far. -/
  steps : List Step
  /-- The table so far. -/
  draft : Draft
  deriving DecidableEq, Repr

namespace Body

/-- No members yet. -/
def begin (draft : Draft) : Body := ⟨.empty, [], [], draft⟩

/-- Adds a step. -/
def addStep (body : Body) (step : Step) : Body := { body with steps := body.steps ++ [step] }

/-- Adds a property under a free name, and the steps that use it. -/
def addProperty (body : Body) (base : String) (kind : PropertyKind) (recursive : Bool)
    (place : Provenance) (steps : (property : Nat) → List Step) : Body :=
  let (name, scope) := body.scope.unique base
  { body with
    scope := scope
    properties := body.properties ++ [⟨name, kind, recursive, place⟩]
    steps := body.steps ++ steps body.properties.length }

/-- Adds a problem. -/
def report (body : Body) (problem : Diagnostic) : Body :=
  { body with draft := body.draft.report problem }

/-- Adds the step and the problem of a reference that leads nowhere. -/
def addUnresolved (body : Body) (inType reference : String) (place : Provenance) : Body :=
  (body.addStep (.unresolved reference)).report (.unresolvedReference reference inType place)

/-- Adds a named group, whose records are of a type. -/
def addGroup (body : Body) (name : String) (repetition : Option Repetition) (type : TypeRef)
    (place : Provenance) : Body :=
  match repetition with
  | some repetition =>
    body.addProperty (sanitize name) (.list (.record type.index) repetition) type.recursive place
      fun property => [.list property]
  | none =>
    body.addProperty (sanitize name) (.nested type.index) type.recursive place
      fun property => [.nested property]

/-- Adds a named list. -/
def addList (body : Body) (name : String) (item : ItemType) (recursive : Bool)
    (repetition : Repetition) (place : Provenance) : Body :=
  body.addProperty (sanitize name) (.list item repetition) recursive place
    fun property => [.list property]

end Body

/-- Gives the type of a name and a node, compiling it if the table does not have it. -/
abbrev TypeSource := (name : String) → Node → Draft → TypeRef × Draft

/-- Adds one entry to the type named `inType`. -/
def Body.addEntry (typeOf : TypeSource) (inType : String) (body : Body) : Entry → Body
  | .field name layout place =>
    body.addProperty (sanitize name) (.text layout) false place fun property =>
      layout.toList.map (.field property ·)
  | .constant value width => body.addStep (.constant value width)
  | .padding width => body.addStep (.padding width)
  | .badPadding value place => body.report (.invalidPadding value inType place)
  | .group name node repetition =>
    let (type, draft) := typeOf (sanitize name) node body.draft
    { body with draft := draft }.addGroup name repetition type node.place
  | .list name items repetition place =>
    match items with
    | .records typeName node =>
      let (type, draft) := typeOf typeName node body.draft
      { body with draft := draft }.addList name (.record type.index) type.recursive repetition
        place
    | .texts layout => body.addList name (.text layout) false repetition place
    | .missing reference referencePlace =>
      (body.addUnresolved inType reference referencePlace).addList name (.text none) false
        repetition place
  | .unresolved reference place => body.addUnresolved inType reference place
  | .cycle reference place =>
    (body.addStep (.cycle reference)).report (.referenceCycle reference inType place)

/-! ## Types -/

/-- The type of a name, compiled from a node unless the table has it; `unfinished` holds the types
that are being compiled. Each unfinished type has another name made from the forest, so the number
of those names is enough `fuel`. -/
def compileType (registry : Registry) :
    (fuel : Nat) → (unfinished : List Nat) → TypeSource
  | 0, _, _, _, draft => (⟨0, false⟩, draft)
  | fuel + 1, unfinished, name, node, draft =>
    match draft.find? name with
    | some index => (⟨index, unfinished.contains index⟩, draft)
    | none =>
      let index := draft.types.length
      let typeOf := compileType registry fuel (index :: unfinished)
      let body := (expand registry node).foldl (Body.addEntry typeOf name)
        (Body.begin (draft.reserve name node.place))
      (⟨index, false⟩, body.draft.define index body.properties body.steps)

/-- A bound on the number of type names: one for the root, and for each node its own name and the
name of its items. -/
def typeNameBound (registry : Registry) : Nat :=
  2 * (Schema.occurrences registry.roots).length + 2

/-- The table of the node registered under an identifier. -/
def compile (registry : Registry) (id : String) : TypeTable :=
  match registry.lookup? id with
  | some node =>
    let (type, draft) :=
      compileType registry (typeNameBound registry) [] (sanitize id) node .empty
    ⟨draft.types, some type.index, draft.diagnostics⟩
  | none => ⟨[], none, [.rootNotFound id]⟩

end FixedWidth.Table
