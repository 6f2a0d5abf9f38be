import FixedWidth.Layout
import FixedWidth.Schema.Node
import FixedWidth.Text.Split

/-!
# Schema/Width — the width that a decorator gives to a field before it

A field does not declare its own width. The first decorator with a length among the siblings behind
it does, unless a field or group stands in between (`widthDecorator?`). The decorator's tag also
decides between text and numeric layout. A length that is no positive numeral gives no width.
-/

namespace FixedWidth.Schema

/-- Whether a decorator makes its field numeric. -/
def isNumericDecorator (tag : String) : Bool :=
  "num".toList.isPrefixOf tag.toList || Text.hasPart "decimal".toList tag.toList

namespace Node

/-- Whether a node is a decorator that declares a length. -/
def declaresWidth (node : Node) : Bool := node.kind = .decorator && node.length?.isSome

/-- The width that a decorator declares. -/
def declaredWidth? (decorator : Node) : Option Nat := do
  let raw ← decorator.length?
  let width ← (Layout.parseWidth raw).toOption
  if width = 0 then none else some width

/-- The layout that a decorator declares. -/
def declaredLayout? (decorator : Node) : Option Layout :=
  decorator.declaredWidth?.map fun width =>
    if isNumericDecorator decorator.tag then .numeric width else .text width

end Node

/-- The decorator that gives a width to a node, where `following` are the siblings behind the
node. -/
def widthDecorator? : (following : List Node) → Option Node
  | [] => none
  | node :: rest =>
    if node.declaresWidth then some node
    else if node.kind.isStructural then none
    else widthDecorator? rest

/-- The layout of a field with these siblings behind it. -/
def fieldLayout? (following : List Node) : Option Layout :=
  (widthDecorator? following).bind (·.declaredLayout?)

/-- The width of a constant with these siblings behind it. -/
def constantWidth? (following : List Node) : Option Nat :=
  (widthDecorator? following).bind (·.declaredWidth?)

/-- The layout of the items of a list with these children. -/
def itemLayout? (children : List Node) : Option Layout :=
  (children.find? (·.declaresWidth)).bind (·.declaredLayout?)

end FixedWidth.Schema
