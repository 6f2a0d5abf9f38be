import FixedWidth.Layout
import FixedWidth.Text.Bytes

/-!
# Wire/Cursor — reading fields from a wire text

A `Cursor` stands at a position of a text, counted in characters and in bytes. A read of more
characters than remain fails and leaves the cursor where it is, so a short text leaves its last
fields unread instead of shifting them.
-/

namespace FixedWidth.Wire

open Text (byteLength)

/-- A position in a text. -/
structure Cursor where
  /-- The whole text. -/
  buffer : List Char
  /-- The part that is still to be read. -/
  rest : List Char
  /-- Number of characters read. -/
  position : Nat
  /-- Number of bytes read. -/
  byteOffset : Nat
  deriving DecidableEq, Repr

namespace Cursor

/-- The start of a text. -/
def ofText (text : List Char) : Cursor := ⟨text, text, 0, 0⟩

/-- Number of characters of the whole text. -/
def length (cursor : Cursor) : Nat := cursor.buffer.length

/-- Whether the whole text is empty. -/
def isEmpty (cursor : Cursor) : Bool := cursor.buffer.isEmpty

/-- Number of characters that are still to be read. -/
def remaining (cursor : Cursor) : Nat := cursor.rest.length

/-- Whether every character was read. -/
def isAtEnd (cursor : Cursor) : Bool := cursor.rest.isEmpty

/-- The next `width` characters as they are; nothing, without moving, if fewer remain. -/
def take (cursor : Cursor) (width : Nat) : Option (List Char) × Cursor :=
  if width ≤ cursor.remaining then
    let piece := cursor.rest.take width
    (some piece,
      { cursor with
        rest := cursor.rest.drop width
        position := cursor.position + width
        byteOffset := cursor.byteOffset + byteLength piece })
  else (none, cursor)

/-- The next `width` characters without surrounding blanks. -/
def takeField (cursor : Cursor) (width : Nat) : Option (List Char) × Cursor :=
  let (piece, next) := cursor.take width
  (piece.map Unicode.trim, next)

/-- The next field of a layout without its padding. -/
def takeValue (cursor : Cursor) (layout : Layout) : Option (List Char) × Cursor :=
  let (piece, next) := cursor.take layout.width
  (piece.map layout.decode, next)

/-- Passes over `width` characters; says whether there were so many. -/
def skip (cursor : Cursor) (width : Nat) : Bool × Cursor :=
  let (piece, next) := cursor.take width
  (piece.isSome, next)

theorem take_of_le {cursor : Cursor} {width : Nat} (h : width ≤ cursor.remaining) :
    cursor.take width =
      (some (cursor.rest.take width),
        ⟨cursor.buffer, cursor.rest.drop width, cursor.position + width,
          cursor.byteOffset + byteLength (cursor.rest.take width)⟩) := by
  simp [take, h]

theorem take_of_lt {cursor : Cursor} {width : Nat} (h : cursor.remaining < width) :
    cursor.take width = (none, cursor) := by
  simp [take, Nat.not_le.2 h]

end Cursor

end FixedWidth.Wire
