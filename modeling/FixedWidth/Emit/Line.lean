/-!
# Emit/Line — lines of emitted source

Emitted source is a list of `Line`s, each with its depth of indentation. `render` writes them one
below the other, four spaces a level.
-/

namespace FixedWidth.Emit

/-- A line of source. -/
structure Line where
  /-- Number of levels of indentation. -/
  depth : Nat
  /-- The line without its indentation. -/
  text : String
  deriving DecidableEq, Repr

namespace Line

/-- A line without text. -/
def blank : Line := ⟨0, ""⟩

/-- A comment. -/
def comment (depth : Nat) (text : String) : Line := ⟨depth, "// " ++ text⟩

/-- A line with its indentation and its end. -/
def render (line : Line) : String :=
  String.ofList (List.replicate (4 * line.depth) ' ') ++ line.text ++ "\n"

end Line

/-- The text of lines. -/
def render (lines : List Line) : String := String.join (lines.map Line.render)

end FixedWidth.Emit
