import FixedWidth.Schema.Document

/-!
# Schema/Registry — all documents under one index

A `Registry` joins the forests of many documents. Paths of a document are shifted by the number of
roots that were there before it, so that a path once given always leads to the same node. An
identifier names the node that got it last.
-/

namespace FixedWidth.Schema

/-- A forest with an index of identifiers. -/
structure Registry where
  /-- The outermost elements of all documents. -/
  roots : List Node
  /-- Their identifiers and replacements. -/
  index : IdIndex
  deriving Repr

namespace Registry

/-- No documents. -/
def empty : Registry := ⟨[], .empty⟩

/-- Adds a forest with identifiers, whose paths are relative to it. The identifiers are taken in
their order. -/
def register (registry : Registry) (roots : List Node) (ids : NameMap Path) : Registry where
  roots := registry.roots ++ roots
  index := registry.index.addAll (ids.map fun (id, path) => (id, path.offset registry.roots.length))

/-- Adds a document. The replacements inside it come before those of earlier documents. -/
def registerDocument (registry : Registry) (document : Document) : Registry :=
  let inside := document.index.overrides.map (·.offset registry.roots.length)
  register
    { registry with
      index := { registry.index with overrides := registry.index.overrides ++ inside } }
    document.roots document.index.ids

/-- The registry of documents in order. -/
def ofDocuments (documents : List Document) : Registry := documents.foldl registerDocument empty

/-- The node at a path. -/
def resolve? (registry : Registry) (path : Path) : Option Node := path.resolve? registry.roots

/-- The node with an identifier. -/
def lookup? (registry : Registry) (id : String) : Option Node :=
  (NameMap.get? registry.index.ids id).bind registry.resolve?

/-- Whether an identifier is registered. -/
def contains (registry : Registry) (id : String) : Bool := NameMap.contains registry.index.ids id

/-- The registered identifiers in order. -/
def identifiers (registry : Registry) : List String := NameMap.names registry.index.ids

/-- The replacements in the order they happened. -/
def overrides (registry : Registry) : List Override := registry.index.overrides

end Registry

end FixedWidth.Schema
