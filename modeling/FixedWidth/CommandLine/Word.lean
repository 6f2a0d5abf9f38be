import FixedWidth.Text.Split

/-!
# CommandLine/Word — the forms of an argument

An argument is a `Word`: a long option with a value behind an equals sign or without, a cluster of
short options, the separator `--`, or plain. A single dash is plain.
-/

namespace FixedWidth.CommandLine

/-- The form of an argument. -/
inductive Word where
  /-- Everything behind it is plain. -/
  | separator
  /-- A name behind two dashes, and the value behind an equals sign. -/
  | long (name : String) (value : Option String)
  /-- Letters behind one dash. -/
  | short (letters : List Char)
  /-- Any other argument. -/
  | plain
  deriving DecidableEq, Repr

/-- The form of an argument. -/
def Word.ofString (argument : String) : Word :=
  match argument.toList with
  | ['-', '-'] => .separator
  | '-' :: '-' :: rest =>
    match Text.splitAt? ['='] rest with
    | some (name, value) => .long (String.ofList name) (some (String.ofList value))
    | none => .long (String.ofList rest) none
  | '-' :: letter :: rest => .short (letter :: rest)
  | _ => .plain

end FixedWidth.CommandLine
