import FixedWidth.Schema.Node
import FixedWidth.Text.Json

/-!
# Schema/Dump — nodes as JSON text

A node is written as an object that leaves out what is absent or empty, so that the text shows
everything but kinds, which follow from tags, and places.
-/

namespace FixedWidth.Schema.Node

open Text

/-- A member that is left out when it is absent. -/
def optionalMember (name : String) (value : Option String) : List (String × Json) :=
  value.toList.map fun content => (name, .string content)

/-- A node with its children as data. -/
def toJson : Node → Json
  | ⟨tag, id, refId, attributes, text, children, _⟩ =>
    .object <|
      [("tagName", .string tag)]
      ++ optionalMember "id" id
      ++ optionalMember "refId" refId
      ++ (if attributes.isEmpty then []
        else [("attributes", .object (attributes.map fun (name, value) => (name, .string value)))])
      ++ (if text.isEmpty then [] else [("textContent", .string text)])
      ++ (if children.isEmpty then [] else [("children", .array (childrenToJson children))])
where
  childrenToJson : List Node → List Json
    | [] => []
    | child :: rest => child.toJson :: childrenToJson rest

/-- A node in one line. -/
def dump (node : Node) : String := String.ofList node.toJson.compact

/-- A node with one member a line. -/
def dumpPretty (node : Node) : String := String.ofList (node.toJson.pretty 0)

end FixedWidth.Schema.Node
