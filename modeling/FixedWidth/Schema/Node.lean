import FixedWidth.NameMap
import FixedWidth.Unicode.Blank

/-!
# Schema/Node — the elements of a format description

A format description is a forest of `Node`s. The kind of a node follows from its tag
(`Kind.ofTag`); its identifier and the identifier it refers to stand apart from its other
attributes.
-/

namespace FixedWidth.Schema

/-- The flavours of scalar text fields. All of them are texts on the wire. -/
inductive ScalarKind where
  /-- A plain text. -/
  | plainString
  /-- A text of the host. -/
  | hostString
  /-- A message. -/
  | message
  /-- Dynamic markup. -/
  | dynamicXml
  deriving DecidableEq, Repr

/-- What a node describes. -/
inductive Kind where
  /-- A format definition. -/
  | formatDef
  /-- A group of fields. -/
  | recordGroup
  /-- A group that repeats. -/
  | repeatedGroup
  /-- A text field. -/
  | scalarField (flavour : ScalarKind)
  /-- The inclusion of another node by its identifier. -/
  | reference
  /-- A literal. -/
  | constant
  /-- Filler of a fixed length. -/
  | padding
  /-- A hint on the encoding of what stands before it. -/
  | decorator
  /-- Anything else. -/
  | generic
  deriving DecidableEq, Repr

namespace Kind

/-- The kind of nodes with a tag. -/
def ofTag (tag : String) : Kind :=
  if tag = "fmtDef" then formatDef
  else if tag = "record" || tag = "fCSRecord" then recordGroup
  else if tag = "fCSList" || tag = "iCollF" then repeatedGroup
  else if tag = "fCSString" || tag = "fString" then scalarField .plainString
  else if tag = "fHostString" then scalarField .hostString
  else if tag = "fCSMessage" then scalarField .message
  else if tag = "fCSDynXml" then scalarField .dynamicXml
  else if tag = "refFmt" then reference
  else if tag = "constant" then constant
  else if tag = "fixedLength" then padding
  else if "Decor".toList.isSuffixOf tag.toList then decorator
  else generic

/-- Whether nodes of a kind end the search for the width of an earlier field. -/
def isStructural : Kind → Bool
  | scalarField _ | recordGroup | repeatedGroup => true
  | _ => false

end Kind

/-- Where a node was declared. -/
structure Provenance where
  /-- The name of the document. -/
  source : String
  /-- The line, counted from one. -/
  line : Nat
  deriving DecidableEq, Repr, Inhabited

/-- A place in words. -/
def Provenance.render (place : Provenance) : String := s!"{place.source} line {place.line}"

/-- An element of a format description. -/
structure Node where
  /-- The tag. -/
  tag : String
  /-- The identifier the node is registered under. -/
  id : Option String
  /-- The identifier the node refers to. -/
  refId : Option String
  /-- The other attributes. -/
  attributes : NameMap String
  /-- The text inside the node. -/
  text : String
  /-- The elements inside the node, in order. -/
  children : List Node
  /-- The declaration of the node. -/
  place : Provenance
  deriving Repr, Inhabited

namespace Node

/-- A node with nothing but a tag and a place. -/
def ofTag (tag : String) (place : Provenance) : Node := ⟨tag, none, none, [], "", [], place⟩

/-- What the node describes. -/
def kind (node : Node) : Kind := .ofTag node.tag

/-- Sets an attribute; the two identifiers have fields of their own. -/
def setAttribute (node : Node) (name value : String) : Node :=
  if name = "id" then { node with id := some value }
  else if name = "refId" then { node with refId := some value }
  else { node with attributes := NameMap.insert node.attributes name value }

/-- Adds a child behind the others. -/
def addChild (node child : Node) : Node := { node with children := node.children ++ [child] }

/-- Adds a text behind the one that is there. -/
def addText (node : Node) (text : List Char) : Node :=
  { node with text := node.text ++ String.ofList text }

/-- Adds a text unless it is blank. -/
def appendText (node : Node) (text : List Char) : Node :=
  if Unicode.isBlankText text then node else node.addText text

/-- The value of an attribute. -/
def attribute? (node : Node) (name : String) : Option String := NameMap.get? node.attributes name

/-- The declared name of the type or property. -/
def dataName? (node : Node) : Option String := node.attribute? "dataName"

/-- The declared repetition. -/
def times? (node : Node) : Option String := node.attribute? "times"

/-- The declared length. -/
def length? (node : Node) : Option String := node.attribute? "length"

/-- The literal of a constant: its `value`, or else its text. -/
def constantValue (node : Node) : String := (node.attribute? "value").getD node.text

end Node

end FixedWidth.Schema
