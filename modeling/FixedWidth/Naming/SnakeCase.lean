import FixedWidth.Unicode.Case

/-!
# Naming/SnakeCase — lower case names with underscores

A capital letter becomes its lower case form, after an underscore if the character before it is a
lower case letter or an ASCII digit.
-/

namespace FixedWidth.Naming

open Unicode

/-- `snakeCaseFrom afterLower cs` writes `cs`, where `afterLower` says whether the character
before is a lower case letter or a digit. -/
def snakeCaseFrom : (afterLower : Bool) → List Char → List Char
  | _, [] => []
  | afterLower, c :: rest =>
    if isUpper c then
      (if afterLower then ['_'] else []) ++ toLower c ++ snakeCaseFrom false rest
    else c :: snakeCaseFrom (isLower c || c.isDigit) rest

/-- A name in lower case with underscores between its words. -/
def snakeCase (name : String) : String := String.ofList (snakeCaseFrom false name.toList)

end FixedWidth.Naming
