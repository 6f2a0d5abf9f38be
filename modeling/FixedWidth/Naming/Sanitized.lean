/-!
# Naming/Sanitized — names of types and properties

Names declared in a schema may hold the separators `.`, `-` and `:`, begin with a digit or be
empty. `sanitize` makes a usable name of each; other characters stay.
-/

namespace FixedWidth.Naming

/-- Whether a character separates the parts of a declared name. -/
def isSeparator (c : Char) : Bool := c == '.' || c == '-' || c == ':'

/-- Puts an underscore before a text that begins with an ASCII digit. -/
def guardDigit : List Char → List Char
  | [] => []
  | c :: rest => if c.isDigit then '_' :: c :: rest else c :: rest

/-- A declared name with `_` for each separator and before a leading digit; `Unknown` for the
empty name. -/
def sanitize (name : String) : String :=
  if name = "" then "Unknown"
  else String.ofList (guardDigit (name.toList.map fun c => if isSeparator c then '_' else c))

end FixedWidth.Naming
