import FixedWidth.Text.Numeral

/-!
# Layout — how one value fills a fixed-width field

A `Layout` is a width in characters, a pad character and the side the value stands on.
`Layout.encode` frames a value into exactly `width` characters (`length_encode`) and
`Layout.decode` recovers a value from a raw field. `Layout.parseWidth` reads a declared width.
-/

namespace FixedWidth

open Unicode

/-- The side of its field a value stands on; the padding fills the other side. -/
inductive Side where
  /-- Value first, padding after it. -/
  | left
  /-- Padding first, value after it. -/
  | right
  deriving DecidableEq, Repr

/-- Width in characters, pad character and justification of a field. -/
structure Layout where
  /-- Number of characters on the wire. -/
  width : Nat
  /-- Character that fills what the value leaves free. -/
  pad : Char
  /-- Side the value stands on. -/
  justify : Side
  deriving DecidableEq, Repr

/-- A declared width that is no decimal numeral below `2 ^ 64`. -/
structure InvalidWidth where
  /-- The declared text, as it was written. -/
  raw : String
  deriving DecidableEq, Repr

/-- The wording of the error. -/
def InvalidWidth.message (e : InvalidWidth) : String :=
  s!"invalid field width '{e.raw}'"

namespace Layout

/-- Text fields are padded with spaces and stand on the left. -/
def text (width : Nat) : Layout := ⟨width, ' ', .left⟩

/-- Numeric fields are padded with zeros and stand on the right. -/
def numeric (width : Nat) : Layout := ⟨width, '0', .right⟩

/-- Whether a layout is zero padded and right justified. -/
def isNumeric (layout : Layout) : Bool := layout.pad == '0' && layout.justify == .right

/-- Reads a declared width. -/
def parseWidth (raw : String) : Except InvalidWidth Nat :=
  match Text.Numeral.read? raw.toList with
  | some width => .ok width
  | none => .error ⟨raw⟩

/-- Frames a value: a long one is cut to its first `width` characters, a short one is padded. -/
def encode (layout : Layout) (value : List Char) : List Char :=
  if layout.width ≤ value.length then value.take layout.width
  else
    let fill := List.replicate (layout.width - value.length) layout.pad
    match layout.justify with
    | .left => value ++ fill
    | .right => fill ++ value

/-- **A framed value has the width of its layout.** -/
theorem length_encode (layout : Layout) (value : List Char) :
    (layout.encode value).length = layout.width := by
  unfold encode
  split
  · simp; omega
  · cases layout.justify <;> simp <;> omega

/-- Drops the pad character from the padded side of a text. -/
def stripPad (layout : Layout) (value : List Char) : List Char :=
  match layout.justify with
  | .left => dropEndWhile (· == layout.pad) value
  | .right => value.dropWhile (· == layout.pad)

/-- Recovers a value from a raw field. Surrounding blanks go first; then a pad character that is
no blank goes from its side, but a field of pad characters alone keeps one of them. -/
def decode (layout : Layout) (raw : List Char) : List Char :=
  let trimmed := trim raw
  if isBlank layout.pad then trimmed
  else
    let stripped := layout.stripPad trimmed
    if stripped.isEmpty && !trimmed.isEmpty then [layout.pad] else stripped

end Layout

end FixedWidth
