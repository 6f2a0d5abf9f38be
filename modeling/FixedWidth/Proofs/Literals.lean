import FixedWidth.Text.Quoted
import Mathlib.Data.List.Basic

/-!
# Proofs/Literals — literals are read back

Emitted source carries the texts of constants as string literals, and pad characters as character
literals. `readString?` and `readCharacter?` read them from the front of source as its language
does: up to the closing mark, with an escape for each backslash. They find what was quoted
(`readString?_string`, `readCharacter?_character`).
-/

namespace FixedWidth.Text.Quoted

/-! ## Reading literals -/

/-- The value of a hexadecimal digit. -/
def hexValue? (c : Char) : Option Nat :=
  if c.isDigit then some (c.toNat - '0'.toNat)
  else if 'a' ≤ c ∧ c ≤ 'f' then some (c.toNat - 'a'.toNat + 10)
  else if 'A' ≤ c ∧ c ≤ 'F' then some (c.toNat - 'A'.toNat + 10)
  else none

/-- The value of a hexadecimal numeral. -/
def hexNumber? (digits : List Char) : Option Nat :=
  digits.foldlM (fun value c => (hexValue? c).map (16 * value + ·)) 0

/-- The character with a code point of one to six hexadecimal digits. -/
def hexChar? (digits : List Char) : Option Char :=
  if 1 ≤ digits.length ∧ digits.length ≤ 6 then
    (hexNumber? digits).bind fun code => if code.isValidChar then some (.ofNat code) else none
  else none

/-- The character of an escape without digits. -/
def simpleEscape? : Char → Option Char
  | '0' => some '\x00'
  | 't' => some '\t'
  | 'n' => some '\n'
  | 'r' => some '\r'
  | '\\' => some '\\'
  | '"' => some '"'
  | '\'' => some '\''
  | _ => none

/-- A place inside a literal. -/
inductive LiteralState where
  /-- Between characters. -/
  | between
  /-- Behind a backslash. -/
  | escape
  /-- Before the digits of a code point. -/
  | opening
  /-- Behind some digits of a code point. -/
  | digits (read : List Char)
  deriving DecidableEq, Repr

/-- A character before the content of a literal. -/
def push (c : Char) (literal : List Char × List Char) : List Char × List Char :=
  (c :: literal.1, literal.2)

/-- Reads a literal from a place in it to its closing mark. The answer is what is left of its
content, and what stands behind the mark. -/
def readFrom (mark : Char) : LiteralState → List Char → Option (List Char × List Char)
  | _, [] => none
  | .between, c :: rest =>
    if c = mark then some ([], rest)
    else if c = '\\' then readFrom mark .escape rest
    else (readFrom mark .between rest).map (push c)
  | .escape, c :: rest =>
    if c = 'u' then readFrom mark .opening rest
    else (simpleEscape? c).bind fun escaped => (readFrom mark .between rest).map (push escaped)
  | .opening, c :: rest => if c = '\x7b' then readFrom mark (.digits []) rest else none
  | .digits read, c :: rest =>
    if c = '\x7d' then
      (hexChar? read).bind fun char => (readFrom mark .between rest).map (push char)
    else readFrom mark (.digits (read ++ [c])) rest

/-- Reads a string literal, and answers with its text and with what stands behind it. -/
def readString? : List Char → Option (String × List Char)
  | '"' :: rest => (readFrom '"' .between rest).map fun (text, rest) => (String.ofList text, rest)
  | _ => none

/-- Reads a character literal, and answers with its character and with what stands behind it. -/
def readCharacter? : List Char → Option (Char × List Char)
  | '\'' :: rest =>
    match readFrom '\'' .between rest with
    | some ([c], rest) => some (c, rest)
    | _ => none
  | _ => none

/-! ## Code points -/

theorem hexValue?_digitChar : ∀ digit < 16, hexValue? digit.digitChar = some digit ∧
    digit.digitChar ≠ '\x7d' := by
  decide

/-- **A numeral in hexadecimal digits is read back.** -/
theorem hexNumber?_toDigits (n : Nat) :
    hexNumber? (Nat.toDigits 16 n) = some n ∧ '\x7d' ∉ Nat.toDigits 16 n := by
  induction n using Nat.strongRecOn with
  | ind n ih =>
    obtain hlt | hle := Nat.lt_or_ge n 16
    · obtain ⟨hvalue, hne⟩ := hexValue?_digitChar n hlt
      rw [Nat.toDigits_of_lt_base hlt, List.mem_singleton]
      exact ⟨by simp [hexNumber?, hvalue], hne.symm⟩
    · obtain ⟨hnumber, hnotMem⟩ := ih (n / 16) (Nat.div_lt_self (by omega) (by omega))
      obtain ⟨hvalue, hne⟩ := hexValue?_digitChar (n % 16) (Nat.mod_lt _ (by omega))
      rw [Nat.toDigits_of_base_le (by omega) hle, List.mem_append, List.mem_singleton]
      refine ⟨?_, not_or.2 ⟨hnotMem, hne.symm⟩⟩
      rw [hexNumber?] at hnumber ⊢
      simp [List.foldlM_append, hnumber, hvalue]
      omega

theorem hexChar?_toDigits (c : Char) : hexChar? (Nat.toDigits 16 c.toNat) = some c := by
  have hvalid : c.toNat.isValidChar := c.valid
  have hshort : (Nat.toDigits 16 c.toNat).length ≤ 6 := by
    rw [Nat.length_toDigits_le_iff (by omega) (by omega)]
    rcases hvalid with hlt | ⟨-, hlt⟩ <;> omega
  have hlong : 1 ≤ (Nat.toDigits 16 c.toNat).length := Nat.length_toDigits_pos
  rw [hexChar?, if_pos ⟨hlong, hshort⟩, (hexNumber?_toDigits c.toNat).1, Option.bind_some,
    if_pos hvalid, Char.ofNat_toNat]

/-! ## Escapes -/

/-- The digits of a code point are read one after the other. -/
theorem readFrom_digits (mark : Char) (read digits rest : List Char) (h : '\x7d' ∉ digits) :
    readFrom mark (.digits read) (digits ++ rest) =
      readFrom mark (.digits (read ++ digits)) rest := by
  induction digits generalizing read with
  | nil => rw [List.nil_append, List.append_nil]
  | cons c digits ih =>
    rw [List.mem_cons, not_or] at h
    rw [List.cons_append, readFrom, if_neg (Ne.symm h.1), ih _ h.2, List.append_assoc,
      List.singleton_append]

section Escapes

variable {mark : Char} (hmark : mark = '"' ∨ mark = '\'')
include hmark

/-- A backslash does not close a literal. -/
theorem readFrom_backslash (rest : List Char) :
    readFrom mark .between ('\\' :: rest) = readFrom mark .escape rest := by
  obtain rfl | rfl := hmark <;> simp [readFrom]

theorem readFrom_codePoint (c : Char) (rest : List Char) :
    readFrom mark .between (codePoint c ++ rest) =
      (readFrom mark .between rest).map (push c) := by
  have hdigits := readFrom_digits mark [] _ ('\x7d' :: rest)
    (hexNumber?_toDigits c.toNat).2
  have hopening : codePoint c ++ rest =
      '\\' :: 'u' :: '\x7b' :: (Nat.toDigits 16 c.toNat ++ '\x7d' :: rest) := by
    simp [codePoint]
  rw [hopening, readFrom_backslash hmark]
  simp only [readFrom]
  simp [hdigits, readFrom, hexChar?_toDigits]

/-- **An escape is read back as its character.** -/
theorem readFrom_escape (c : Char) (rest : List Char) :
    readFrom mark .between (escape mark c ++ rest) =
      (readFrom mark .between rest).map (push c) := by
  have hsimple : ∀ letter, letter ≠ 'u' → simpleEscape? letter = some c →
      readFrom mark .between (['\\', letter] ++ rest) =
        (readFrom mark .between rest).map (push c) := by
    intro letter hne hletter
    rw [List.cons_append, readFrom_backslash hmark, List.singleton_append, readFrom, if_neg hne,
      hletter, Option.bind_some]
  rw [escape]
  split_ifs with hzero htab hline hreturn hbackslash hclosing hplain
  · exact hsimple '0' (by decide) (by rw [hzero]; rfl)
  · exact hsimple 't' (by decide) (by rw [htab]; rfl)
  · exact hsimple 'n' (by decide) (by rw [hline]; rfl)
  · exact hsimple 'r' (by decide) (by rw [hreturn]; rfl)
  · exact hsimple '\\' (by decide) (by rw [hbackslash]; rfl)
  · rw [hclosing] at hsimple ⊢
    obtain rfl | rfl := hmark <;> exact hsimple _ (by decide) rfl
  · rw [List.singleton_append, readFrom, if_neg hclosing, if_neg hbackslash]
  · exact readFrom_codePoint hmark c rest

end Escapes

/-- **A string literal is read back as the text that was quoted.** -/
theorem readString?_string (text : String) (rest : List Char) :
    readString? ((string text).toList ++ rest) = some (text, rest) := by
  have hbody : ∀ content : List Char, readFrom '"' .between
      (content.flatMap (escape '"') ++ '"' :: rest) = some (content, rest) := by
    intro content
    induction content with
    | nil => simp [readFrom]
    | cons c content ih =>
      rw [List.flatMap_cons, List.append_assoc, readFrom_escape (Or.inl rfl), ih]
      rfl
  have hliteral : (string text).toList ++ rest =
      '"' :: (text.toList.flatMap (escape '"') ++ '"' :: rest) := by
    simp [string]
  rw [hliteral, readString?, hbody, Option.map_some]
  simp only [String.ofList_toList]

/-- **A character literal is read back as the character that was quoted.** -/
theorem readCharacter?_character (c : Char) (rest : List Char) :
    readCharacter? ((character c).toList ++ rest) = some (c, rest) := by
  have hbody : readFrom '\'' .between (escape '\'' c ++ '\'' :: rest) = some ([c], rest) := by
    rw [readFrom_escape (Or.inr rfl)]
    simp [readFrom, push]
  have hliteral : (character c).toList ++ rest = '\'' :: (escape '\'' c ++ '\'' :: rest) := by
    simp [character]
  rw [hliteral, readCharacter?, hbody]

/-- A mark, a line end and a character without a shape of its own. -/
example : string "a\"\n\u200b" = "\"a\\\"\\n\\u\x7b200b\x7d\"" ∧
    readString? "\"a\\\"\\n\\u\x7b200b\x7d\");".toList = some ("a\"\n\u200b", ");".toList) := by
  decide +kernel

end FixedWidth.Text.Quoted
