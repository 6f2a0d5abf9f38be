import FixedWidth.Markup.Error
import FixedWidth.Text.Bytes

/-!
# Markup/Reference — characters that are written by name or number

A reference stands between `&` and `;`: one of five names, or `#` and a code point in decimal or,
after `x`, hexadecimal digits. `resolve` gives the character of one reference and `expand` replaces
all references of an attribute value.
-/

namespace FixedWidth.Markup

open Text (byteLength)

/-- The character of a predefined name. -/
def predefined? (name : String) : Option Char :=
  match name with
  | "lt" => some '<'
  | "gt" => some '>'
  | "amp" => some '&'
  | "apos" => some '\''
  | "quot" => some '"'
  | _ => none

/-- The value of a digit in base ten. -/
def decimalDigit? (c : Char) : Option Nat :=
  if c.isDigit then some (c.toNat - '0'.toNat) else none

/-- The value of a digit in base sixteen; letters may be of either case. -/
def hexDigit? (c : Char) : Option Nat :=
  if c.isDigit then some (c.toNat - '0'.toNat)
  else if 'a' ≤ c && c ≤ 'f' then some (c.toNat - 'a'.toNat + 10)
  else if 'A' ≤ c && c ≤ 'F' then some (c.toNat - 'A'.toNat + 10)
  else none

/-- Two to the power of 32, which no number of a reference reaches. -/
def codeLimit : Nat := 4294967296

/-- Reads the digits of a number below `codeLimit` from left to right. -/
def readDigits (base : Nat) (digit? : Char → Option Nat) :
    (value : Nat) → List Char → Except ReferenceError Nat
  | value, [] => .ok value
  | value, c :: rest =>
    match digit? c with
    | none => .error .invalidDigit
    | some d =>
      if base * value + d < codeLimit then readDigits base digit? (base * value + d) rest
      else .error .tooLarge

/-- Reads a number that must have digits and no sign. -/
def readUnsigned (base : Nat) (digit? : Char → Option Nat) :
    List Char → Except ReferenceError Nat
  | [] => .error .noDigits
  | c :: rest =>
    if c = '+' || c = '-' then .error .signed else readDigits base digit? 0 (c :: rest)

/-- The number behind the `#` of a reference. -/
def readCode : List Char → Except ReferenceError Nat
  | 'x' :: digits => readUnsigned 16 hexDigit? digits
  | digits => readUnsigned 10 decimalDigit? digits

/-- The character with a code point. -/
def characterOf (code : Nat) : Except ReferenceError Char :=
  if code = 0 then .error .zero
  else if h : code.isValidChar then .ok (Char.ofNatAux code h)
  else .error (.notACharacter code)

/-- The character of the reference with this text between `&` and `;`. The text begins at byte
`start`. -/
def resolve (start : Nat) (name : List Char) : Except ReferenceError Char :=
  match name with
  | '#' :: digits => do characterOf (← readCode digits)
  | _ =>
    match predefined? (String.ofList name) with
    | some c => .ok c
    | none => .error (.unrecognized start (start + byteLength name) (String.ofList name))

/-- Replaces the references of a text of `total` bytes from byte `offset` on. Inside a reference,
`opened` holds the byte of its `&` and the characters read since, last one first. -/
def expandFrom (total : Nat) : (offset : Nat) → (opened : Option (Nat × List Char)) →
    List Char → Except ReferenceError (List Char)
  | _, none, [] => .ok []
  | _, some (start, _), [] => .error (.unterminated start total)
  | offset, none, c :: rest =>
    if c = '&' then expandFrom total (offset + c.utf8Size) (some (offset, [])) rest
    else do return c :: (← expandFrom total (offset + c.utf8Size) none rest)
  | offset, some (start, name), c :: rest =>
    if c = '&' then .error (.unterminated start total)
    else if c = ';' then do
      let character ← resolve (start + 1) name.reverse
      return character :: (← expandFrom total (offset + c.utf8Size) none rest)
    else expandFrom total (offset + c.utf8Size) (some (start, c :: name)) rest

/-- An attribute value with each reference replaced by its character. -/
def expand (value : List Char) : Except ReferenceError (List Char) :=
  expandFrom (byteLength value) 0 none value

end FixedWidth.Markup
