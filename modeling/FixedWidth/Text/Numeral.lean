import FixedWidth.Unicode.Blank

/-!
# Text/Numeral — decimal numerals below `2 ^ 64`

Widths, lengths and counts are declared as decimal numerals. `read?` accepts a numeral with blanks
around it: at most one leading `+`, then one or more ASCII digits whose value is below `2 ^ 64`.
-/

namespace FixedWidth.Text.Numeral

open Unicode

/-- The value of a list of decimal digits, most significant first. -/
def value (digits : List Char) : Nat :=
  digits.foldl (fun n c => 10 * n + (c.toNat - '0'.toNat)) 0

/-- The text after at most one leading plus sign. -/
def dropPlus : List Char → List Char
  | '+' :: rest => rest
  | cs => cs

/-- Two to the power of 64, which no numeral reaches. -/
def limit : Nat := 18446744073709551616

/-- The number that a numeral with surrounding blanks denotes. -/
def read? (cs : List Char) : Option Nat :=
  let digits := dropPlus (trim cs)
  if digits.isEmpty || !digits.all Char.isDigit then none
  else if value digits < limit then some (value digits)
  else none

theorem read?_lt {cs : List Char} {n : Nat} (h : read? cs = some n) : n < limit := by
  simp only [read?] at h
  split at h
  · simp at h
  · split at h
    · simp_all
    · simp at h

end FixedWidth.Text.Numeral
