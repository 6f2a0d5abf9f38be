import FixedWidth.Naming.Scope
import FixedWidth.Naming.SnakeCase
import FixedWidth.Unicode.Alphanumeric

/-!
# Emit/Identifier — names in emitted source

Emitted Rust source names a field after its property, a struct after its type and a module after
its type. `clean` makes an identifier of any name; keywords and names that the emitted source
itself refers to are then evaded, and clashes are numbered (`Naming.distinct`).
-/

namespace FixedWidth.Emit

open Naming Unicode

/-- The words that Rust reserves. -/
def keywords : List String :=
  ["as", "break", "const", "continue", "crate", "else", "enum", "extern", "false", "fn", "for",
   "if", "impl", "in", "let", "loop", "match", "mod", "move", "mut", "pub", "ref", "return",
   "self", "Self", "static", "struct", "super", "trait", "true", "type", "unsafe", "use",
   "where", "while", "async", "await", "dyn", "abstract", "become", "box", "do", "final",
   "macro", "override", "priv", "typeof", "unsized", "virtual", "yield", "try", "gen"]

/-- The words that have no raw form. -/
def wordsWithoutRawForm : List String := ["crate", "self", "Self", "super", "_"]

/-- The types that emitted source refers to by a plain name. -/
def reservedTypes : List String :=
  ["Option", "Some", "None", "String", "Vec", "Box", "Default", "FieldLayout", "Justify",
   "EncodeBuffer", "DecodeCursor", "HostEncode", "HostDecode"]

/-- Whether a character may stand in an identifier. -/
def isIdentifierChar (c : Char) : Bool := isAlphanumeric c || c == '_'

/-- Puts an underscore before an empty text and before a leading ASCII digit. -/
def guardStart : List Char → List Char
  | [] => ['_']
  | c :: rest => if c.isDigit then '_' :: c :: rest else c :: rest

/-- A name with `_` for each character that may not stand in an identifier. -/
def clean (name : String) : String :=
  String.ofList (guardStart (name.toList.map fun c => if isIdentifierChar c then c else '_'))

/-- The identifier asked for by a property. -/
def fieldBase (property : String) : String :=
  let base := clean property
  if wordsWithoutRawForm.contains base then base ++ "_" else base

/-- A keyword in its raw form. -/
def rawIfKeyword (identifier : String) : String :=
  if keywords.contains identifier then "r#" ++ identifier else identifier

/-- The field identifiers of a type with these properties, in their order. -/
def fieldIdentifiers (properties : List String) : List String :=
  (distinct (properties.map fieldBase)).map rawIfKeyword

/-- The identifier asked for by a type. -/
def typeIdentifier (name : String) : String :=
  let base := clean name
  if keywords.contains base || reservedTypes.contains base then base ++ "_" else base

/-- The types of a table, each with its identifier. -/
structure TypeIdentifiers where
  /-- Type names with their identifiers. -/
  pairs : List (String × String)
  deriving DecidableEq, Repr

namespace TypeIdentifiers

/-- Identifiers of the types with these names, in their order. -/
def ofNames (names : List String) : TypeIdentifiers :=
  ⟨names.zip (distinct (names.map typeIdentifier))⟩

/-- The identifier of a type; a name outside the table has the one it would ask for. -/
def get (identifiers : TypeIdentifiers) (name : String) : String :=
  (identifiers.pairs.lookup name).getD (typeIdentifier name)

end TypeIdentifiers

/-- The module name asked for by a type. -/
def moduleName (name : String) : String :=
  let base := snakeCase (clean name)
  if keywords.contains base then base ++ "_" else base

end FixedWidth.Emit
