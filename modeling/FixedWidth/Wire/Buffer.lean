import FixedWidth.Layout

/-!
# Wire/Buffer — the text written so far

A `Buffer` collects fields, constants and filler, and counts the characters it was asked to write.
The count is the length of the text (`width_eq_length_putField` and its companions).
-/

namespace FixedWidth.Wire

/-- Encoded text together with its declared width. -/
structure Buffer where
  /-- The characters written so far. -/
  text : List Char
  /-- The sum of the widths written so far. -/
  width : Nat
  deriving DecidableEq, Repr

namespace Buffer

/-- Nothing written yet. -/
def empty : Buffer := ⟨[], 0⟩

/-- Writes a value framed by a layout. -/
def putField (buffer : Buffer) (layout : Layout) (value : List Char) : Buffer :=
  ⟨buffer.text ++ layout.encode value, buffer.width + layout.width⟩

/-- Writes a literal as a text field. -/
def putConstant (buffer : Buffer) (value : List Char) (width : Nat) : Buffer :=
  buffer.putField (.text width) value

/-- Writes spaces. -/
def putPadding (buffer : Buffer) (width : Nat) : Buffer :=
  ⟨buffer.text ++ List.replicate width ' ', buffer.width + width⟩

theorem width_eq_length_putField {buffer : Buffer} (h : buffer.width = buffer.text.length)
    (layout : Layout) (value : List Char) :
    (buffer.putField layout value).width = (buffer.putField layout value).text.length := by
  simp [putField, h, Layout.length_encode]

theorem width_eq_length_putConstant {buffer : Buffer} (h : buffer.width = buffer.text.length)
    (value : List Char) (width : Nat) :
    (buffer.putConstant value width).width = (buffer.putConstant value width).text.length :=
  width_eq_length_putField h _ _

theorem width_eq_length_putPadding {buffer : Buffer} (h : buffer.width = buffer.text.length)
    (width : Nat) :
    (buffer.putPadding width).width = (buffer.putPadding width).text.length := by
  simp [putPadding, h]

end Buffer

end FixedWidth.Wire
