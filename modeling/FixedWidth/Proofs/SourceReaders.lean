import FixedWidth.Emit.LayoutExpression
import FixedWidth.Emit.Line
import FixedWidth.Proofs.EmittedNames
import FixedWidth.Proofs.Literals

/-!
# Proofs/SourceReaders — emitted source is read back piece by piece

    lines ──line──▸ text ──phrase, name, numeral, literal──▸ parts of a statement

What emitted source means is told from its text. A `TextReader` reads the parts of a line from the
front, each up to where its own grammar ends it, and a `LineReader` reads lines. Each reader finds
what was written: identifiers (`run_name`), numerals (`run_numeral`), literals and layouts
(`run_layout`), and statements as often as they come (`run_many_flatMap`).
-/

namespace FixedWidth.Emit

open Text

/-! ## Parts of a line -/

/-- Reads a part of a line from the front. -/
abbrev TextReader := StateT (List Char) Option

namespace TextReader

/-- Reads a text that is given. -/
def phrase (text : String) : TextReader Unit := fun source =>
  (text.toList.isPrefixOf? source).map ((), ·)

/-- Reads an identifier that is not in the raw form. -/
def word : TextReader String := fun source =>
  if source.takeWhile isIdentifierChar = [] then none
  else some (String.ofList (source.takeWhile isIdentifierChar), source.dropWhile isIdentifierChar)

/-- Reads an identifier. -/
def name : TextReader String := fun source =>
  match source with
  | 'r' :: '#' :: rest => (word.run rest).map fun (identifier, rest) => ("r#" ++ identifier, rest)
  | _ => word.run source

/-- Reads a numeral. -/
def numeral : TextReader Nat := fun source =>
  if source.takeWhile Char.isDigit = [] then none
  else some (Nat.ofDigitChars 10 (source.takeWhile Char.isDigit) 0, source.dropWhile Char.isDigit)

/-- Reads a string literal. -/
def literal : TextReader String := Quoted.readString?

/-- Reads a character literal. -/
def character : TextReader Char := Quoted.readCharacter?

/-- Reads what is left of the line. -/
def remainder : TextReader String := fun source => some (String.ofList source, [])

/-- Reads the side of a layout. -/
def side : TextReader Side :=
  (do phrase "Left"; return .left) <|> (do phrase "Right"; return .right)

/-- Reads an expression that builds a layout. -/
def layout : TextReader Layout :=
  (do
    phrase "FieldLayout::text("
    let width ← numeral
    phrase ")"
    return .text width)
  <|> (do
    phrase "FieldLayout::numeric("
    let width ← numeral
    phrase ")"
    return .numeric width)
  <|> (do
    phrase "FieldLayout::new("
    let width ← numeral
    phrase ", "
    let pad ← character
    phrase ", ironfw_core::Justify::"
    let justify ← side
    phrase ")"
    return ⟨width, pad, justify⟩)

variable {text : String} {rest : List Char}

/-! ## Parts are read back -/

/-- A text of identifier characters. -/
structure IsPlain (word : String) : Prop where
  ne_nil : word.toList ≠ []
  chars : ∀ c ∈ word.toList, isIdentifierChar c = true

/-- **An identifier**: identifier characters, with a mark in front in the raw form. -/
inductive IsName : String → Prop
  | plain {word : String} (h : IsPlain word) : IsName word
  | raw {word : String} (h : IsPlain word) : IsName ("r#" ++ word)

/-- The signs of emitted source, which end identifiers and numerals. -/
def signs : List Char := [' ', '.', ',', ':', ';', '!', '(', ')', '[', ']']

/-- The text begins with a sign. -/
def Ends : List Char → Prop
  | [] => False
  | c :: _ => c ∈ signs

theorem Ends.exists_sign (h : Ends rest) : ∃ c tail, rest = c :: tail ∧
    isIdentifierChar c = false ∧ c ≠ '#' ∧ c.isDigit = false := by
  have hsigns : (signs.all fun c => !isIdentifierChar c && c != '#' && !c.isDigit) = true := by
    decide +kernel
  cases rest with
  | nil => cases h
  | cons c tail =>
    refine ⟨c, tail, rfl, ?_⟩
    simpa [and_assoc] using List.all_eq_true.1 hsigns c h

theorem run_word (hword : IsPlain text) (h : Ends rest) :
    word.run (text.toList ++ rest) = some (text, rest) := by
  obtain ⟨hne, hchars⟩ := hword
  obtain ⟨c, tail, rfl, hc, -⟩ := h.exists_sign
  have htake : (text.toList ++ c :: tail).takeWhile isIdentifierChar = text.toList := by
    rw [List.takeWhile_append_of_pos hchars, List.takeWhile_cons_of_neg (by simp [hc]),
      List.append_nil]
  have hdrop : (text.toList ++ c :: tail).dropWhile isIdentifierChar = c :: tail := by
    rw [List.dropWhile_append_of_pos hchars, List.dropWhile_cons_of_neg (by simp [hc])]
  rw [StateT.run, word, htake, hdrop, if_neg hne, String.ofList_toList]

/-- **An identifier is read back.** -/
@[simp]
theorem run_name (hname : IsName text) (h : Ends rest) :
    name.run (text.toList ++ rest) = some (text, rest) := by
  cases hname with
  | plain hword =>
    obtain ⟨c, tail, rfl, -, hmark, -⟩ := h.exists_sign
    have hplain : ∀ source, text.toList ++ c :: tail ≠ 'r' :: '#' :: source := by
      have hcode : ¬ isIdentifierChar '#' = true := by decide +kernel
      obtain ⟨ne, chars⟩ := hword
      generalize text.toList = characters at ne chars
      intro source heq
      rcases characters with _ | ⟨first, _ | ⟨second, characters⟩⟩
      · exact ne rfl
      · exact hmark (List.cons.inj (List.cons.inj heq).2).1
      · have hsecond : second = '#' := (List.cons.inj (List.cons.inj heq).2).1
        exact hcode (hsecond ▸ chars second (by simp))
    rw [StateT.run, name]
    · exact run_word hword h
    · exact hplain
  | @raw word hword =>
    have hmark : ("r#" ++ word).toList ++ rest = 'r' :: '#' :: (word.toList ++ rest) := by simp
    rw [hmark, StateT.run, name, run_word hword h, Option.map_some]

/-- **A numeral is read back.** -/
@[simp]
theorem run_numeral (n : Nat) (h : Ends rest) :
    numeral.run (Nat.toDigits 10 n ++ rest) = some (n, rest) := by
  obtain ⟨c, tail, rfl, -, -, hc⟩ := h.exists_sign
  have hdigits : ∀ d ∈ Nat.toDigits 10 n, d.isDigit = true :=
    fun d hd => Naming.isDigit_of_mem_toDigits hd
  have htake : (Nat.toDigits 10 n ++ c :: tail).takeWhile Char.isDigit = Nat.toDigits 10 n := by
    rw [List.takeWhile_append_of_pos hdigits, List.takeWhile_cons_of_neg (by simp [hc]),
      List.append_nil]
  have hdrop : (Nat.toDigits 10 n ++ c :: tail).dropWhile Char.isDigit = c :: tail := by
    rw [List.dropWhile_append_of_pos hdigits, List.dropWhile_cons_of_neg (by simp [hc])]
  rw [StateT.run, numeral, htake, hdrop, if_neg Nat.toDigits_ne_nil, Nat.ofDigitChars_ten_toDigits]

@[simp]
theorem run_literal (text : String) (rest : List Char) :
    literal.run ((Quoted.string text).toList ++ rest) = some (text, rest) := by
  rw [StateT.run, literal, Quoted.readString?_string]

@[simp]
theorem run_character (c : Char) (rest : List Char) :
    character.run ((Quoted.character c).toList ++ rest) = some (c, rest) := by
  rw [StateT.run, character, Quoted.readCharacter?_character]

@[simp]
theorem run_remainder (source : List Char) :
    remainder.run source = some (String.ofList source, []) := rfl

/-! ## Texts that are given -/

@[simp]
theorem toList_toString (text : String) : (toString text).toList = text.toList := rfl

@[simp]
theorem run_phrase_append (text : String) (rest : List Char) :
    (phrase text).run (text.toList ++ rest) = some ((), rest) := by
  rw [StateT.run, phrase, List.isPrefixOf?_eq_some_iff_append_eq.2 rfl, Option.map_some]

@[simp]
theorem run_phrase_self (text : String) : (phrase text).run text.toList = some ((), []) := by
  simpa using run_phrase_append text []

/-- A text that does not begin the source is not read. -/
theorem run_phrase_eq_none {source : List Char} (h : ¬ text.toList <+: source) :
    (phrase text).run source = none := by
  rw [StateT.run, phrase, Option.map_eq_none_iff, Option.eq_none_iff_forall_ne_some]
  exact fun tail htail => h ⟨tail, List.isPrefixOf?_eq_some_iff_append_eq.1 htail⟩

/-- **Neither text begins the other.** -/
def Apart (text other : String) : Prop :=
  ¬ text.toList <+: other.toList ∧ ¬ other.toList <+: text.toList

@[simp]
theorem run_phrase_of_apart {other : String} (h : Apart text other) (rest : List Char) :
    (phrase text).run (other.toList ++ rest) = none := by
  refine run_phrase_eq_none fun hprefix => ?_
  obtain h' | h' := List.prefix_or_prefix_of_prefix hprefix (List.prefix_append other.toList rest)
  · exact h.1 h'
  · exact h.2 h'

/-- **A layout is read back** from its expression. -/
@[simp]
theorem run_layout (layout : Layout) (rest : List Char) :
    TextReader.layout.run (layout.expression.toList ++ rest) = some (layout, rest) := by
  rw [Layout.expression]
  split_ifs with htext hnumeric
  · simp (disch := exact id (by simp [Ends, Apart, signs]))
      [TextReader.layout, ← htext, -String.reduceToList]
  · simp (disch := exact id (by simp [Ends, Apart, signs]))
      [TextReader.layout, ← hnumeric, -String.reduceToList]
  · obtain ⟨width, pad, justify⟩ := layout
    cases justify <;>
      simp (disch := exact id (by simp [Ends, Apart, signs]))
        [TextReader.layout, side, -String.reduceToList]

end TextReader

/-! ## Lines -/

/-- Reads lines of source from the front. -/
abbrev LineReader := StateT (List Line) Option

namespace LineReader

variable {α : Type}

/-- What was read of a line counts if it was all of the line. -/
def whole (read : Option (α × List Char)) (rest : List Line) : Option (α × List Line) :=
  match read with
  | some (value, []) => some (value, rest)
  | _ => none

/-- Reads all of the next line. How deep it is indented has no meaning. -/
def line (reader : TextReader α) : LineReader α
  | [] => none
  | next :: rest => whole (reader.run next.text.toList) rest

/-- Reads a line that is given. -/
def fixed (text : String) : LineReader Unit := line (.phrase text)

/-- Reads by the one of several forms that begins like the next line. -/
def choose (forms : List (String × LineReader α)) : LineReader α
  | [] => none
  | next :: rest =>
    (forms.find? fun form => form.1.toList.isPrefixOf next.text.toList).bind fun form =>
      form.2.run (next :: rest)

/-- Reads as often as it can, as long as this takes lines away. -/
def readMany (reader : LineReader α) (lines : List Line) : List α × List Line :=
  match reader.run lines with
  | none => ([], lines)
  | some (value, rest) =>
    if rest.length < lines.length then
      (value :: (readMany reader rest).1, (readMany reader rest).2)
    else ([], lines)
termination_by lines.length

/-- Reads one value after the other. -/
def many (reader : LineReader α) : LineReader (List α) := fun lines => some (readMany reader lines)

/-- Reads all of some lines. -/
def complete? (reader : LineReader α) (lines : List Line) : Option α :=
  match reader.run lines with
  | some (value, []) => some value
  | _ => none

variable {reader : LineReader α}

@[simp]
theorem whole_some (value : α) (rest : List Line) :
    whole (some (value, [])) rest = some (value, rest) := rfl

@[simp]
theorem whole_none (rest : List Line) : whole (none : Option (α × List Char)) rest = none := rfl

@[simp]
theorem run_line (reader : TextReader α) (depth : Nat) (text : String) (rest : List Line) :
    (line reader).run (⟨depth, text⟩ :: rest) = whole (reader.run text.toList) rest := rfl

@[simp]
theorem run_fixed (depth : Nat) (text : String) (rest : List Line) :
    (fixed text).run (⟨depth, text⟩ :: rest) = some ((), rest) := by
  rw [fixed, run_line, TextReader.run_phrase_self, whole_some]

/-- **The form that begins like the line is chosen**, if no form begins like another. -/
theorem run_choose {forms : List (String × LineReader α)}
    (hapart : (forms.map Prod.fst).Pairwise TextReader.Apart) {i : Nat} {lead : String}
    (hform : forms[i]? = some (lead, reader)) {text : String} (hlead : lead.toList <+: text.toList)
    (depth : Nat) (rest : List Line) :
    (choose forms).run (⟨depth, text⟩ :: rest) = reader.run (⟨depth, text⟩ :: rest) := by
  have hfind : forms.find? (fun form => form.1.toList.isPrefixOf text.toList) =
      some (lead, reader) := by
    obtain ⟨before, behind, rfl⟩ := List.append_of_mem (List.mem_of_getElem? hform)
    have hbefore : before.find? (fun form => form.1.toList.isPrefixOf text.toList) = none := by
      refine List.find?_eq_none.2 fun form hmem hprefix => ?_
      rw [List.map_append, List.map_cons, List.pairwise_append] at hapart
      have hother := hapart.2.2 form.1 (List.mem_map_of_mem hmem) lead List.mem_cons_self
      rw [List.isPrefixOf_iff_prefix] at hprefix
      exact (List.prefix_or_prefix_of_prefix hprefix hlead).elim hother.1 hother.2
    rw [List.find?_append, hbefore, Option.none_or]
    exact List.find?_cons_of_pos (List.isPrefixOf_iff_prefix.2 hlead)
  rw [StateT.run, choose, hfind, Option.bind_some]

/-- No form is chosen if none begins like the line. -/
theorem run_choose_eq_none {forms : List (String × LineReader α)} {text : String}
    (h : ∀ lead ∈ forms.map Prod.fst, ¬ lead.toList <+: text.toList) (depth : Nat)
    (rest : List Line) : (choose forms).run (⟨depth, text⟩ :: rest) = none := by
  rw [StateT.run, choose, List.find?_eq_none.2 fun form hmem => ?_, Option.bind_none]
  rw [List.isPrefixOf_iff_prefix]
  exact h form.1 (List.mem_map_of_mem hmem)

/-- **Items are read back one after the other**, up to what is no item. -/
theorem run_many_flatMap {render : α → List Line} {last : List Line}
    (hlast : reader.run last = none) (items : List α) (hne : ∀ item ∈ items, render item ≠ [])
    (hread : ∀ item ∈ items, ∀ rest, reader.run (render item ++ rest) = some (item, rest)) :
    (many reader).run (items.flatMap render ++ last) = some (items, last) := by
  rw [StateT.run, many, Option.some.injEq]
  induction items with
  | nil => rw [List.flatMap_nil, List.nil_append, readMany, hlast]
  | cons item items ih =>
    rw [List.forall_mem_cons] at hne hread
    have hlength : 0 < (render item).length := List.length_pos_of_ne_nil hne.1
    rw [List.flatMap_cons, List.append_assoc, readMany, hread.1]
    simp only [List.length_append, ih hne.2 hread.2]
    rw [if_pos (by omega)]

theorem complete?_eq_some {lines : List Line} {value : α}
    (h : reader.run lines = some (value, [])) : complete? reader lines = some value := by
  rw [complete?, h]

end LineReader

end FixedWidth.Emit
