/-!
# Text/Lines — the line of a byte offset

A `LineIndex` holds the byte offsets at which the lines of a text begin; lines end at line feeds
only. The line of an offset, counted from one, is the number of lines that begin at or before it.
-/

namespace FixedWidth.Text

/-- The byte offsets right behind the line feeds of a text that begins at `offset`. -/
def lineStartsFrom : (offset : Nat) → List Char → List Nat
  | _, [] => []
  | offset, c :: rest =>
    let next := offset + c.utf8Size
    if c = '\n' then next :: lineStartsFrom next rest else lineStartsFrom next rest

/-- The beginnings of the lines of a text. -/
structure LineIndex where
  /-- Byte offsets in increasing order. -/
  starts : List Nat
  deriving DecidableEq, Repr

namespace LineIndex

/-- The lines of a text, of which there is always a first one. -/
def ofText (text : List Char) : LineIndex := ⟨0 :: lineStartsFrom 0 text⟩

/-- The line that holds a byte offset. -/
def lineAt (index : LineIndex) (offset : Nat) : Nat := index.starts.countP (· ≤ offset)

end LineIndex

end FixedWidth.Text
