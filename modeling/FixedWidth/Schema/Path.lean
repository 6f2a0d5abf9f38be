import FixedWidth.Schema.Node

/-!
# Schema/Path — addresses of nodes in a forest

A `Path` names a node by the index of its root and the indices of the children that lead to it.
`occurrences` lists the nodes of a forest with their paths, each node before its children; those
are exactly the nodes that paths lead to.
-/

namespace FixedWidth.Schema

/-- The address of a node. -/
structure Path where
  /-- Index of the root. -/
  root : Nat
  /-- Index of a child on each level below the root. -/
  children : List Nat
  deriving DecidableEq, Repr, Inhabited

namespace Node

/-- The node that child indices lead to. -/
def descend? : Node → List Nat → Option Node
  | node, [] => some node
  | node, index :: rest => (node.children[index]?).bind (·.descend? rest)

/-- The node and those below it with the child indices that lead to them. -/
def descendants : Node → List (List Nat × Node)
  | ⟨tag, id, refId, attributes, text, children, place⟩ =>
    ([], ⟨tag, id, refId, attributes, text, children, place⟩) :: descendantsFrom 0 children
where
  descendantsFrom : (index : Nat) → List Node → List (List Nat × Node)
    | _, [] => []
    | index, child :: rest =>
      (child.descendants.map fun (path, node) => (index :: path, node))
        ++ descendantsFrom (index + 1) rest

end Node

namespace Path

/-- The same path in a forest where the roots begin `offset` places later. -/
def offset (path : Path) (offset : Nat) : Path := { path with root := path.root + offset }

/-- The node a path leads to. -/
def resolve? (path : Path) (roots : List Node) : Option Node :=
  (roots[path.root]?).bind (·.descend? path.children)

end Path

/-- The nodes of a forest whose roots begin at index `root`, with their paths. -/
def occurrencesFrom : (root : Nat) → List Node → List (Path × Node)
  | _, [] => []
  | root, node :: rest =>
    (node.descendants.map fun (children, node) => (⟨root, children⟩, node))
      ++ occurrencesFrom (root + 1) rest

/-- The nodes of a forest with their paths, each node before its children. -/
def occurrences (roots : List Node) : List (Path × Node) := occurrencesFrom 0 roots

end FixedWidth.Schema
