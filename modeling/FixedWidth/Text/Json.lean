/-!
# Text/Json — data written as JSON text

`Json.compact` writes data without blanks, and `Json.pretty` writes one member a line, indented by
two spaces a level. Strings are quoted by `Json.quote`, which escapes the quote, the backslash and
the characters below the space.
-/

namespace FixedWidth.Text

/-- Data made of strings, arrays and objects. -/
inductive Json where
  /-- A string. -/
  | string (content : String)
  /-- Values in order. -/
  | array (items : List Json)
  /-- Named values in order. -/
  | object (members : List (String × Json))
  deriving Repr, Inhabited

namespace Json

/-- A digit in base sixteen, in lower case. -/
def hexDigit (n : Nat) : Char := Nat.digitChar (n % 16)

/-- One character of a quoted string. -/
def escape (c : Char) : List Char :=
  if c = '"' then ['\\', '"']
  else if c = '\\' then ['\\', '\\']
  else if c = '\x08' then ['\\', 'b']
  else if c = '\x0c' then ['\\', 'f']
  else if c = '\n' then ['\\', 'n']
  else if c = '\r' then ['\\', 'r']
  else if c = '\t' then ['\\', 't']
  else if c.toNat < 0x20 then
    ['\\', 'u', '0', '0', hexDigit (c.toNat / 16), hexDigit c.toNat]
  else [c]

/-- A string between quotes. -/
def quote (content : String) : List Char :=
  ['"'] ++ content.toList.flatMap escape ++ ['"']

/-! ## Without blanks -/

/-- Data without blanks. -/
def compact : Json → List Char
  | string content => quote content
  | array items => ['['] ++ compactItems items ++ [']']
  | object members => ['\x7b'] ++ compactMembers members ++ ['\x7d']
where
  compactItems : List Json → List Char
    | [] => []
    | item :: rest => item.compact ++ compactMoreItems rest
  compactMoreItems : List Json → List Char
    | [] => []
    | item :: rest => [','] ++ item.compact ++ compactMoreItems rest
  compactMembers : List (String × Json) → List Char
    | [] => []
    | (name, value) :: rest => quote name ++ [':'] ++ value.compact ++ compactMoreMembers rest
  compactMoreMembers : List (String × Json) → List Char
    | [] => []
    | (name, value) :: rest =>
      [','] ++ quote name ++ [':'] ++ value.compact ++ compactMoreMembers rest

/-! ## One member a line -/

/-- The end of a line and the indentation of the next one. -/
def newLine (depth : Nat) : List Char := '\n' :: List.replicate (2 * depth) ' '

/-- Data with one member a line, where the first line stands at `depth`. -/
def pretty : (depth : Nat) → Json → List Char
  | _, string content => quote content
  | depth, array items => ['['] ++ prettyItems depth items ++ [']']
  | depth, object members => ['\x7b'] ++ prettyMembers depth members ++ ['\x7d']
where
  prettyItems : (depth : Nat) → List Json → List Char
    | _, [] => []
    | depth, item :: rest =>
      newLine (depth + 1) ++ pretty (depth + 1) item ++ prettyMoreItems depth rest
  prettyMoreItems : (depth : Nat) → List Json → List Char
    | depth, [] => newLine depth
    | depth, item :: rest =>
      [','] ++ newLine (depth + 1) ++ pretty (depth + 1) item ++ prettyMoreItems depth rest
  prettyMembers : (depth : Nat) → List (String × Json) → List Char
    | _, [] => []
    | depth, (name, value) :: rest =>
      newLine (depth + 1) ++ quote name ++ [':', ' '] ++ pretty (depth + 1) value
        ++ prettyMoreMembers depth rest
  prettyMoreMembers : (depth : Nat) → List (String × Json) → List Char
    | depth, [] => newLine depth
    | depth, (name, value) :: rest =>
      [','] ++ newLine (depth + 1) ++ quote name ++ [':', ' '] ++ pretty (depth + 1) value
        ++ prettyMoreMembers depth rest

end Json

end FixedWidth.Text
