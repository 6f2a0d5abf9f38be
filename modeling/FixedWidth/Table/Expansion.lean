import FixedWidth.Naming.Sanitized
import FixedWidth.Schema.Registry
import FixedWidth.Schema.Width
import FixedWidth.Table.Repetition

/-!
# Table/Expansion — the body of a type as a flat list

The body of a type is a tree in which groups without a name are transparent and references stand
for the children of other nodes. `expand` writes it as a list of `Entry`s: what remains when
transparent groups are opened and references replaced. A reference that is already being replaced
becomes a cycle entry, so that a body never includes itself. A transparent node with a repetition
makes lists of the groups inside it; the innermost such node decides.
-/

namespace FixedWidth.Table

open Schema (Kind Node Provenance Registry)

/-- What the items of a declared list are. -/
inductive Items where
  /-- Records with the children of a node, under the name of their type. -/
  | records (typeName : String) (body : Node)
  /-- Texts. -/
  | texts (layout : Option Layout)
  /-- Records of a reference that leads nowhere. -/
  | missing (reference : String) (place : Provenance)
  deriving Repr

/-- One part of the body of a type. -/
inductive Entry where
  /-- A named text field. -/
  | field (name : String) (layout : Option Layout) (place : Provenance)
  /-- A literal that has a width. -/
  | constant (value : String) (width : Nat)
  /-- Filler of a positive width. -/
  | padding (width : Nat)
  /-- Filler whose length is no numeral. -/
  | badPadding (value : String) (place : Provenance)
  /-- A named group: a list under a repetition, and a nested record otherwise. -/
  | group (name : String) (body : Node) (repetition : Option Repetition)
  /-- A named list. -/
  | list (name : String) (items : Items) (repetition : Repetition) (place : Provenance)
  /-- A reference that leads nowhere. -/
  | unresolved (reference : String) (place : Provenance)
  /-- A reference that is already being replaced. -/
  | cycle (reference : String) (place : Provenance)
  deriving Repr

/-! ## Single nodes -/

/-- The repetition inside a transparent node, where `outer` is the one around it. -/
def transparentRepetition (node : Node) (outer : Option Repetition) : Option Repetition :=
  if node.times?.isSome then some (.parse node.times?) else outer

/-- The filler that a padding node declares, if its length is not missing or zero. -/
def paddingEntries (node : Node) : List Entry :=
  match node.length? with
  | none => []
  | some raw =>
    match Layout.parseWidth raw with
    | .ok 0 => []
    | .ok width => [.padding width]
    | .error _ => [.badPadding raw node.place]

/-- The node that the items of a list are made from: the first group among the children of the
list, or the target of a reference that comes before it. -/
def itemNode (registry : Registry) : List Node → Except (String × Provenance) (Option Node)
  | [] => .ok none
  | child :: rest =>
    if child.kind = .recordGroup then .ok (some child)
    else if child.kind = .reference then
      match child.refId with
      | none => itemNode registry rest
      | some reference =>
        match registry.lookup? reference with
        | some target => .ok (some target)
        | none => .error (reference, child.place)
    else itemNode registry rest

/-- The items of a list with this name. -/
def itemsOf (registry : Registry) (name : String) (node : Node) : Items :=
  match itemNode registry node.children with
  | .ok (some item) =>
    match item.dataName? with
    | some itemName => .records (Naming.sanitize itemName) item
    | none => .records (Naming.sanitize name ++ "Item") item
  | .ok none => .texts (Schema.itemLayout? node.children)
  | .error (reference, place) => .missing reference place

/-! ## Bodies -/

/-- The entries of references, given the repetition around them. -/
abbrev Splice := Option Repetition → (reference : String) → Provenance → List Entry

/-- The entries of one node, where `following` are the siblings behind it. -/
def nodeEntries (registry : Registry) (splice : Splice) (repetition : Option Repetition)
    (following : List Node) : Node → List Entry
  | ⟨tag, id, refId, attributes, text, children, place⟩ =>
    let node : Node := ⟨tag, id, refId, attributes, text, children, place⟩
    match node.kind with
    | .recordGroup =>
      match node.dataName? with
      | some name => [.group name node repetition]
      | none => siblingEntries registry splice (transparentRepetition node repetition) children
    | .repeatedGroup =>
      match node.dataName? with
      | some name => [.list name (itemsOf registry name node) (.parse node.times?) place]
      | none => siblingEntries registry splice (some (.parse node.times?)) children
    | .scalarField _ =>
      match node.dataName? with
      | some name => [.field name (Schema.fieldLayout? following) place]
      | none => []
    | .reference =>
      match refId with
      | some reference => splice repetition reference place
      | none => []
    | .constant =>
      match Schema.constantWidth? following with
      | some width => [.constant node.constantValue width]
      | none => []
    | .padding => paddingEntries node
    | .decorator => []
    | .formatDef | .generic =>
      siblingEntries registry splice (transparentRepetition node repetition) children
where
  siblingEntries (registry : Registry) (splice : Splice) (repetition : Option Repetition) :
      List Node → List Entry
    | [] => []
    | node :: rest =>
      nodeEntries registry splice repetition rest node
        ++ siblingEntries registry splice repetition rest

/-- The entries of siblings inside a repetition. -/
abbrev siblingEntries := nodeEntries.siblingEntries

/-- The entries of siblings, where `splicing` holds the references that are being replaced. Each
replacement adds an identifier of the registry to them, so their number is enough `fuel`. -/
def expandFrom (registry : Registry) :
    (fuel : Nat) → (splicing : List String) → Option Repetition → List Node → List Entry
  | 0, _, _, _ => []
  | fuel + 1, splicing, repetition, nodes =>
    siblingEntries registry
      (fun repetition reference place =>
        if splicing.contains reference then [.cycle reference place]
        else
          match registry.lookup? reference with
          | some target =>
            expandFrom registry fuel (reference :: splicing)
              (transparentRepetition target repetition) target.children
          | none => [.unresolved reference place])
      repetition nodes

/-- The body of the type made from a node. References to the node itself are cycles. -/
def expand (registry : Registry) (body : Node) : List Entry :=
  expandFrom registry (registry.identifiers.length + 1) body.id.toList none body.children

end FixedWidth.Table
