import FixedWidth.Markup.Reference
import FixedWidth.Markup.Token
import FixedWidth.Schema.Path
import FixedWidth.Text.Lines

/-!
# Schema/Document — one document as a forest with identifiers

`Document.parse` reads a text into a forest of nodes and an index of their identifiers. An
identifier that is used again names its last node; each replacement is recorded as an `Override`.
Places count lines of the text as it was given, while offsets begin behind a byte order mark.
-/

namespace FixedWidth.Schema

open Markup (MarkupError Token)

/-- An identifier that passed from one node to a later one. -/
structure Override where
  /-- The identifier. -/
  id : String
  /-- The node that had it. -/
  replaced : Path
  /-- The node that has it now. -/
  replacement : Path
  deriving DecidableEq, Repr

/-- The same replacement in a forest where the roots begin `offset` places later. -/
def Override.offset (change : Override) (offset : Nat) : Override :=
  ⟨change.id, change.replaced.offset offset, change.replacement.offset offset⟩

/-- Why a text is no document. -/
inductive ParseError where
  /-- The markup is at fault. -/
  | markup (cause : MarkupError)
  /-- An element is still open at the end. -/
  | unbalanced (element source : String) (line : Nat)
  /-- There are no elements. -/
  | empty (source : String)
  deriving DecidableEq, Repr

/-- The wording of the error. -/
def ParseError.message : ParseError → String
  | markup cause => s!"XML parsing error: {cause.message}"
  | unbalanced element source line =>
    s!"unbalanced element '{element}' in '{source}' at line {line}"
  | empty source => s!"document '{source}' contains no elements"

/-! ## Elements -/

/-- The elements read so far. -/
structure Elements where
  /-- Elements that are open, the innermost first. -/
  opened : List Node
  /-- Finished elements outside all others. -/
  roots : List Node
  deriving Repr

namespace Elements

/-- Nothing read yet. -/
def initial : Elements := ⟨[], []⟩

/-- Puts a finished element into the innermost open one, or among the roots. -/
def attach (elements : Elements) (node : Node) : Elements :=
  match elements.opened with
  | [] => { elements with roots := elements.roots ++ [node] }
  | top :: rest => { elements with opened := top.addChild node :: rest }

/-- Changes the innermost open element, if there is one. -/
def modifyTop (elements : Elements) (change : Node → Node) : Elements :=
  match elements.opened with
  | [] => elements
  | top :: rest => { elements with opened := change top :: rest }

/-- The element of a start tag. Its attributes are expanded in order. -/
def ofStartTag (place : Provenance) (content : List Char) : Except MarkupError Node :=
  (Markup.tagAttributes content).foldlM (fun node entry =>
    match Markup.expand entry.value with
    | .ok value => .ok (node.setAttribute (String.ofList entry.key) (String.ofList value))
    | .error cause => .error (.reference cause))
    (Node.ofTag (String.ofList (Markup.tagName content)) place)

/-- Adds one piece of a document that begins at `place`. -/
def step (elements : Elements) (place : Provenance) : Token → Except MarkupError Elements
  | .startTag content => do
    let node ← ofStartTag place content
    return { elements with opened := node :: elements.opened }
  | .emptyTag content => do
    let node ← ofStartTag place content
    return elements.attach node
  | .endTag name =>
    match elements.opened with
    | [] => .error (.markup (.endWithoutStart (String.ofList name)))
    | top :: rest =>
      if top.tag = String.ofList name then .ok ({ elements with opened := rest }.attach top)
      else .error (.markup (.endMismatch top.tag (String.ofList name)))
  | .text content => .ok (elements.modifyTop (·.appendText content))
  | .characterData content => .ok (elements.modifyTop (·.appendText content))
  | .reference name =>
    match Markup.resolve 0 name with
    | .ok character => .ok (elements.modifyTop (·.addText [character]))
    | .error cause => .error (.reference cause)
  | .ignored => .ok elements

end Elements

/-- A text without a byte order mark at its beginning. -/
def dropByteOrderMark : List Char → List Char
  | '\ufeff' :: rest => rest
  | cs => cs

/-- Reads the elements of a text. A fault of the elements comes before a later one of the
markup. -/
def readElements (source : String) (text : List Char) : Except MarkupError Elements := do
  let lines := Text.LineIndex.ofText text
  let scan := Markup.scan (dropByteOrderMark text)
  let elements ← scan.tokens.foldlM
    (fun elements (offset, token) => elements.step ⟨source, lines.lineAt offset⟩ token)
    Elements.initial
  match scan.fault with
  | some fault => throw (.markup fault)
  | none => return elements

/-! ## Identifiers -/

/-- The identifiers of a forest with their paths, in the order of the nodes. -/
def identifiersOf (roots : List Node) : List (String × Path) :=
  (occurrences roots).filterMap fun (path, node) => node.id.map (·, path)

/-- An index of identifiers with the replacements that happened in it. -/
structure IdIndex where
  /-- The node of each identifier. -/
  ids : NameMap Path
  /-- Replacements in the order they happened. -/
  overrides : List Override
  deriving DecidableEq, Repr

namespace IdIndex

/-- No identifiers yet. -/
def empty : IdIndex := ⟨[], []⟩

/-- Gives an identifier to a node. -/
def add (index : IdIndex) (id : String) (path : Path) : IdIndex where
  ids := NameMap.insert index.ids id path
  overrides :=
    match NameMap.get? index.ids id with
    | some previous => index.overrides ++ [⟨id, previous, path⟩]
    | none => index.overrides

/-- Gives identifiers to nodes, one after the other. -/
def addAll (index : IdIndex) (pairs : List (String × Path)) : IdIndex :=
  pairs.foldl (fun index pair => index.add pair.1 pair.2) index

end IdIndex

/-! ## Documents -/

/-- A parsed document. -/
structure Document where
  /-- The name of the document. -/
  source : String
  /-- Its outermost elements. -/
  roots : List Node
  /-- Its identifiers and their replacements. -/
  index : IdIndex
  deriving Repr

namespace Document

/-- The document with these outermost elements. -/
def ofRoots (source : String) (roots : List Node) : Document :=
  ⟨source, roots, IdIndex.empty.addAll (identifiersOf roots)⟩

/-- The node with an identifier. -/
def lookup? (document : Document) (id : String) : Option Node :=
  (NameMap.get? document.index.ids id).bind (·.resolve? document.roots)

/-- Reads a document from its text. -/
def parse (source : String) (text : List Char) : Except ParseError Document :=
  match readElements source text with
  | .error cause => .error (.markup cause)
  | .ok elements =>
    match elements.opened with
    | top :: _ => .error (.unbalanced top.tag source top.place.line)
    | [] =>
      if elements.roots.isEmpty then .error (.empty source)
      else .ok (ofRoots source elements.roots)

end Document

end FixedWidth.Schema
