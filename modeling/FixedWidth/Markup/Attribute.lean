import FixedWidth.Text.Split

/-!
# Markup/Attribute — the attributes of a tag

An attribute is a key, an equals sign and a value in single or double quotes; blanks may stand
around the sign. What is not of this form is passed over: a key without a sign, a value without
quotes, and a key that was already seen. `attributes` lists what remains, in the order of the tag,
so that of a repeated key the first value stays.
-/

namespace FixedWidth.Markup

/-- The characters that separate parts of a tag. -/
def isMarkupBlank (c : Char) : Bool := c == ' ' || c == '\t' || c == '\r' || c == '\n'

/-- A key with its value, in which references are not replaced yet. -/
structure Attribute where
  /-- The key. -/
  key : List Char
  /-- The text between the quotes. -/
  value : List Char
  deriving DecidableEq, Repr

/-- The text from the first blank on. -/
def dropWord (cs : List Char) : List Char := cs.dropWhile fun c => !isMarkupBlank c

/-- Reads attributes, where `seen` holds the keys whose sign was read. Each attribute has at least
one character, so the length of the text is enough `fuel`. -/
def attributesFrom : (fuel : Nat) → (seen : List (List Char)) → List Char → List Attribute
  | 0, _, _ => []
  | fuel + 1, seen, cs =>
    match cs.dropWhile isMarkupBlank with
    | [] => []
    | first :: rest =>
      let ends (c : Char) : Bool := c == '=' || isMarkupBlank c
      let key := first :: rest.takeWhile fun c => !ends c
      match (rest.dropWhile fun c => !ends c).dropWhile isMarkupBlank with
      | '=' :: afterSign =>
        if seen.contains key then attributesFrom fuel seen (dropWord afterSign)
        else
          match afterSign.dropWhile isMarkupBlank with
          | [] => []
          | quote :: body =>
            if quote == '"' || quote == '\'' then
              match Text.splitAt? [quote] body with
              | some (value, afterValue) =>
                ⟨key, value⟩ :: attributesFrom fuel (key :: seen) afterValue
              | none => []
            else attributesFrom fuel (key :: seen) (dropWord (quote :: body))
      | other => attributesFrom fuel seen other

/-- The attributes in the part of a tag behind its name. -/
def attributes (cs : List Char) : List Attribute := attributesFrom cs.length [] cs

end FixedWidth.Markup
