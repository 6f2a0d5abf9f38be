import FixedWidth.Unicode.Printable

/-!
# Text/Quoted — string and character literals of emitted source

A literal stands between two marks. Inside it the mark, the backslash, the tab, the line ends and
the zero character have escapes of their own, and every other character that is not shown as
itself (`Unicode.isPlain`) is written as its code point in lower case hexadecimal digits.
-/

namespace FixedWidth.Text.Quoted

open Unicode

/-- A code point in lower case hexadecimal digits, as an escape. -/
def codePoint (c : Char) : List Char :=
  ['\\', 'u', '\x7b'] ++ Nat.toDigits 16 c.toNat ++ ['\x7d']

/-- One character of a literal that stands between two `mark`s. -/
def escape (mark c : Char) : List Char :=
  if c = '\x00' then ['\\', '0']
  else if c = '\t' then ['\\', 't']
  else if c = '\n' then ['\\', 'n']
  else if c = '\r' then ['\\', 'r']
  else if c = '\\' then ['\\', '\\']
  else if c = mark then ['\\', mark]
  else if isPlain c then [c]
  else codePoint c

/-- A string literal. -/
def string (text : String) : String :=
  String.ofList (['"'] ++ text.toList.flatMap (escape '"') ++ ['"'])

/-- A character literal. -/
def character (c : Char) : String :=
  String.ofList (['\''] ++ escape '\'' c ++ ['\''])

end FixedWidth.Text.Quoted
