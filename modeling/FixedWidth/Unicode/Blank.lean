import FixedWidth.Unicode.Range

/-!
# Unicode/Blank — white space and trimming

`isBlank` is the White_Space property. Wherever this library trims a text it drops blanks from
both ends (`trim`), and a text of blanks alone counts as empty (`isBlankText`).
-/

namespace FixedWidth.Unicode

/-- The code points with the White_Space property. -/
def blankRanges : List (Nat × Nat) :=
  [(0x9, 0xD), (0x20, 0x20), (0x85, 0x85), (0xA0, 0xA0), (0x1680, 0x1680), (0x2000, 0x200A),
   (0x2028, 0x2029), (0x202F, 0x202F), (0x205F, 0x205F), (0x3000, 0x3000)]

/-- Whether a character is white space. -/
def isBlank (c : Char) : Bool := inRanges blankRanges c.toNat

/-- Every blank of the core class is one here. -/
theorem isBlank_of_isWhitespace {c : Char} (h : c.isWhitespace = true) : isBlank c = true := by
  simp only [Char.isWhitespace, Bool.or_eq_true, decide_eq_true_eq] at h
  rcases h with ((rfl | rfl) | rfl) | rfl <;> decide

/-- Drops the longest end of a list that satisfies `p`. -/
def dropEndWhile {α : Type _} (p : α → Bool) (l : List α) : List α :=
  (l.reverse.dropWhile p).reverse

/-- A text without the blanks at its two ends. -/
def trim (cs : List Char) : List Char := dropEndWhile isBlank (cs.dropWhile isBlank)

/-- Whether a text holds blanks only; the empty text does. -/
def isBlankText (cs : List Char) : Bool := cs.all isBlank

end FixedWidth.Unicode
