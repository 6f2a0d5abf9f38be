import FixedWidth.Proofs.EmittedNames

/-!
# Proofs/LegalNames — field identifiers are words of Rust

    property ──clean──▸ word ──evade──▸ word with a raw form ──number──▸ granted ──▸ plain or raw

A legal identifier is a word that is no keyword, or a keyword in its raw form (`IsLegal`). For a
name in ASCII, `clean` makes a word. A granted name is the request or the request with a number
behind it (`exists_getElem?_of_distinct`), and no keyword ends in a number, so only requests are
written in the raw form (`isLegal_of_fieldIdentifiers`).
-/

namespace FixedWidth.Naming

/-- A name with a number has a digit. -/
theorem exists_digit_mem_numbered (base : String) (k : Nat) :
    ∃ c ∈ (numbered base k).toList, c.isDigit = true := by
  obtain ⟨c, hc⟩ := List.exists_mem_of_ne_nil _ (@Nat.toDigits_ne_nil k 10)
  refine ⟨c, ?_, isDigit_of_mem_toDigits hc⟩
  rw [toList_numbered]
  exact List.mem_append_right _ (List.mem_cons_of_mem _ hc)

end FixedWidth.Naming

namespace FixedWidth.Emit

open Naming Unicode

/-! ## Words -/

/-- A text of ASCII letters, digits and underscores that does not begin with a digit. -/
def isWord : List Char → Bool
  | [] => false
  | first :: rest =>
    (first.isAlpha || first == '_') && rest.all fun c => c.isAlphanum || c == '_'

/-- The words that Rust uses, in one edition or another. -/
def strictWords : List String :=
  ["as", "async", "await", "break", "const", "continue", "crate", "dyn", "else", "enum", "extern",
   "false", "fn", "for", "if", "impl", "in", "let", "loop", "match", "mod", "move", "mut", "pub",
   "ref", "return", "self", "Self", "static", "struct", "super", "trait", "true", "type", "unsafe",
   "use", "where", "while"]

/-- The words that Rust keeps for later use. -/
def reservedWords : List String :=
  ["abstract", "become", "box", "do", "final", "gen", "macro", "override", "priv", "try", "typeof",
   "unsized", "virtual", "yield"]

/-- The words that are paths of their own, and for this have no raw form. -/
def pathWords : List String := ["crate", "self", "super", "Self"]

/-- Whether Rust reserves a word. -/
def IsReserved (word : String) : Prop := word ∈ strictWords ∨ word ∈ reservedWords

/-- **A legal identifier**: a word that is not reserved and not a lone underscore, or a reserved
word in the raw form. -/
inductive IsLegal : String → Prop
  | plain {word : String} (word_shape : isWord word.toList) (wildcard : word ≠ "_")
      (free : ¬ IsReserved word) : IsLegal word
  | raw {word : String} (reserved : IsReserved word) (form : word ∉ pathWords) :
    IsLegal ("r#" ++ word)

/-- The emitter knows all reserved words. -/
theorem isReserved_iff {word : String} : IsReserved word ↔ word ∈ keywords := by
  have hstrict : ∀ w ∈ strictWords, w ∈ keywords := by decide
  have hreserved : ∀ w ∈ reservedWords, w ∈ keywords := by decide
  have hkeywords : ∀ w ∈ keywords, w ∈ strictWords ∨ w ∈ reservedWords := by decide
  exact ⟨fun h => h.elim (hstrict word) (hreserved word), hkeywords word⟩

/-- A name of ASCII characters. -/
def IsAscii (name : String) : Prop := ∀ c ∈ name.toList, c.toNat < 0x80

variable {name property base : String}

/-- A word with more word characters behind it is a word. -/
theorem isWord_append {front back : List Char} (h : isWord front)
    (hback : ∀ c ∈ back, (c.isAlphanum || c == '_') = true) : isWord (front ++ back) := by
  cases front with
  | nil => cases h
  | cons first rest =>
    rw [isWord, Bool.and_eq_true] at h
    rw [List.cons_append, isWord, Bool.and_eq_true, List.all_append, Bool.and_eq_true]
    exact ⟨h.1, h.2, List.all_eq_true.2 hback⟩

theorem isWord_guardStart {list : List Char} (h : ∀ c ∈ list, (c.isAlphanum || c == '_') = true) :
    isWord (guardStart list) := by
  fun_cases guardStart list with
  | case1 => rfl
  | case2 c rest hdigit =>
    rw [isWord, Bool.and_eq_true]
    exact ⟨rfl, List.all_eq_true.2 h⟩
  | case3 c rest hdigit =>
    rw [List.forall_mem_cons] at h
    rw [isWord, Bool.and_eq_true]
    refine ⟨?_, List.all_eq_true.2 h.2⟩
    simpa [Char.isAlphanum, hdigit] using h.1

/-- **`clean` makes a word of a name in ASCII.** -/
theorem isWord_clean (h : IsAscii name) : isWord (clean name).toList := by
  rw [clean, String.toList_ofList]
  refine isWord_guardStart fun c hc => ?_
  obtain ⟨c, hmem, rfl⟩ := List.mem_map.1 hc
  split
  · rename_i hident
    rwa [isIdentifierChar, isAlphanumeric_of_lt (h c hmem)] at hident
  · rfl

theorem isWord_numbered (h : isWord base.toList) (k : Nat) : isWord (numbered base k).toList := by
  rw [toList_numbered]
  refine isWord_append h (List.forall_mem_cons.2 ⟨rfl, fun c hc => ?_⟩)
  simp [Char.isAlphanum, isDigit_of_mem_toDigits hc]

/-- No reserved word has a digit, so a name with a number is none. -/
theorem numbered_notMem_keywords (base : String) (k : Nat) : numbered base k ∉ keywords := by
  have hwords : ∀ word ∈ keywords, (word.toList.any (·.isDigit)) = false := by decide
  intro hmem
  have hdigit := List.any_eq_true.2 (exists_digit_mem_numbered base k)
  rw [hwords _ hmem] at hdigit
  cases hdigit

/-! ## Fields -/

theorem isWord_fieldBase (h : IsAscii property) : isWord (fieldBase property).toList := by
  have hword := isWord_clean h
  simp only [fieldBase]
  split
  · rw [String.toList_append]
    exact isWord_append hword (List.all_eq_true.1 rfl)
  · exact hword

/-- A field never asks for a word without a raw form. -/
theorem fieldBase_notMem (property : String) : fieldBase property ∉ wordsWithoutRawForm := by
  have hmore : ∀ word ∈ wordsWithoutRawForm, word ++ "_" ∉ wordsWithoutRawForm := by decide
  simp only [fieldBase]
  split
  · rename_i hmem
    exact hmore _ (List.contains_iff_mem.1 hmem)
  · rename_i hfree
    exact fun hmem => hfree (List.contains_iff_mem.2 hmem)

/-- The request of a field is legal, if need be in its raw form. -/
theorem isLegal_rawIfKeyword (hword : isWord base.toList) (hraw : base ∉ wordsWithoutRawForm) :
    IsLegal (rawIfKeyword base) := by
  have hpath : ∀ word ∈ pathWords, word ∈ wordsWithoutRawForm := by decide
  rw [rawIfKeyword]
  split
  · rename_i hkeyword
    exact .raw (isReserved_iff.2 (List.contains_iff_mem.1 hkeyword)) fun h => hraw (hpath base h)
  · rename_i hfree
    refine .plain hword ?_ fun h => hfree (List.contains_iff_mem.2 (isReserved_iff.1 h))
    rintro rfl
    exact hraw (by decide)

/-- A request with a number is legal as it is. -/
theorem isLegal_rawIfKeyword_numbered (hword : isWord base.toList) (k : Nat) :
    IsLegal (rawIfKeyword (numbered base k)) := by
  have hfree := numbered_notMem_keywords base k
  rw [rawIfKeyword, if_neg fun h => hfree (List.contains_iff_mem.1 h)]
  refine .plain (isWord_numbered hword k) ?_ fun h => hfree (isReserved_iff.1 h)
  intro heq
  obtain ⟨c, hc, hdigit⟩ := exists_digit_mem_numbered base k
  rw [heq] at hc
  cases List.mem_singleton.1 hc
  cases hdigit

/-- **The field of a property with a name in ASCII has a legal identifier.** -/
theorem isLegal_of_fieldIdentifiers {properties : List String} {index : Nat} {identifier : String}
    (hproperty : properties[index]? = some property) (hascii : IsAscii property)
    (h : (fieldIdentifiers properties)[index]? = some identifier) : IsLegal identifier := by
  rw [fieldIdentifiers, List.getElem?_map, Option.map_eq_some_iff] at h
  obtain ⟨granted, hgranted, rfl⟩ := h
  obtain ⟨base, hbase, hname⟩ := exists_getElem?_of_distinct hgranted
  rw [List.getElem?_map, hproperty, Option.map_some, Option.some.injEq] at hbase
  subst hbase
  have hword := isWord_fieldBase hascii
  obtain rfl | ⟨k, rfl⟩ := hname
  · exact isLegal_rawIfKeyword hword (fieldBase_notMem property)
  · exact isLegal_rawIfKeyword_numbered hword k

end FixedWidth.Emit
