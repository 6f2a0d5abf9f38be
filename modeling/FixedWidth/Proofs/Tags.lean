import FixedWidth.Markup.Reference
import FixedWidth.Markup.Token
import FixedWidth.Proofs.AttributeLists
import FixedWidth.Proofs.Lines
import Mathlib.Data.List.Nodup

/-!
# Proofs/Tags — tags as they are written

    start `any` [times ↦ 3]   ──write──▸   <any times="3">   ──next──▸   startTag `any times="3"`
    empty `Decor` []                       <Decor/>                      emptyTag `Decor`
    finish `any`                           </any>                        endTag `any`

A `Tag` has a name and attributes. Written out, with the five characters that have names replaced
by references, it is the first piece of whatever text it begins (`Tag.next_write`), and its name and
attributes are read back from that piece. So a text of tags falls into their pieces
(`scan_written`).
-/

namespace FixedWidth.Markup

open Text (byteLength byteLength_append)

/-! ## Tags -/

/-- Whether a name consists of ASCII letters. -/
def IsWord (name : String) : Prop := name.toList ≠ [] ∧ ∀ c ∈ name.toList, c.isAlpha = true

instance (name : String) : Decidable (IsWord name) :=
  decidable_of_iff (name.toList ≠ [] ∧ name.toList.all (·.isAlpha) = true) (by simp [IsWord])

/-- A name with attributes, in the order of the tag. -/
structure Element where
  /-- The name. -/
  name : String
  /-- Keys with their values. -/
  attributes : List (String × String)
  deriving DecidableEq, Repr

/-- **An element that can be written without further ado**: its names are words, and no two of its
attributes share one. -/
structure Element.Plain (element : Element) : Prop where
  name : IsWord element.name
  keys : ∀ entry ∈ element.attributes, IsWord entry.1
  keys_nodup : (element.attributes.map Prod.fst).Nodup

/-- A tag. -/
inductive Tag where
  /-- The beginning of an element. -/
  | start (element : Element)
  /-- An element with nothing in it. -/
  | empty (element : Element)
  /-- The end of the element with a name. -/
  | finish (name : String)
  deriving DecidableEq, Repr

/-- A character of a value, where the five characters that have names go by them. -/
def escape : Char → List Char
  | '&' => "&amp;".toList
  | '<' => "&lt;".toList
  | '>' => "&gt;".toList
  | '"' => "&quot;".toList
  | '\'' => "&apos;".toList
  | c => [c]

/-- A value as it is written. -/
def escaped (value : String) : List Char := value.toList.flatMap escape

/-- An attribute as it is written, with a blank before it. -/
def writeEntry (entry : String × String) : List Char :=
  ' ' :: (entry.1.toList ++ '=' :: '"' :: (escaped entry.2 ++ ['"']))

/-- An element as it is written between brackets. -/
def Element.content (element : Element) : List Char :=
  element.name.toList ++ element.attributes.flatMap writeEntry

namespace Tag

/-- Whether the names in a tag are words that differ. -/
def Plain : Tag → Prop
  | start element | empty element => element.Plain
  | finish name => IsWord name

/-- A tag as it is written. -/
def write : Tag → List Char
  | start element => '<' :: (element.content ++ ['>'])
  | empty element => '<' :: (element.content ++ ['/', '>'])
  | finish name => '<' :: '/' :: (name.toList ++ ['>'])

/-- The piece of text that a tag is. -/
def token : Tag → Token
  | start element => .startTag element.content
  | empty element => .emptyTag element.content
  | finish name => .endTag name.toList

end Tag

/-- An empty tag as a start tag with its end tag behind it. -/
def Tag.unfold : Tag → List Tag
  | .start element => [.start element]
  | .empty element => [.start element, .finish element.name]
  | .finish name => [.finish name]

/-- Tags as they are written, one behind the other. -/
def written (tags : List Tag) : List Char := tags.flatMap Tag.write

/-! ## Characters -/

theorem ne_of_isAlpha {c d : Char} (h : c.isAlpha = true) (hd : d.isAlpha = false) : c ≠ d := by
  rintro rfl
  exact absurd h (by simp [hd])

theorem isMarkupBlank_of_isAlpha {c : Char} (h : c.isAlpha = true) : isMarkupBlank c = false := by
  simp [isMarkupBlank, ne_of_isAlpha h]

theorem newline_notMem_word {name : String} (h : IsWord name) : '\n' ∉ name.toList := fun hmem =>
  absurd (h.2 _ hmem) (by decide)

theorem quote_notMem_escape (c : Char) : '"' ∉ escape c := by
  fun_cases escape c <;> simp_all [eq_comm]

theorem quote_notMem_escaped (value : String) : '"' ∉ escaped value := by
  simp [escaped, quote_notMem_escape]

namespace Tag

variable {tag : Tag} {element : Element}

theorem plain_of_mem_unfold (h : tag.Plain) : ∀ part ∈ tag.unfold, part.Plain := by
  cases tag with
  | empty element => simpa [unfold, Plain] using And.intro h h.name
  | start | finish => simpa [unfold] using h

/-- The parts of an empty tag have as many line feeds. -/
theorem count_unfold (h : element.Plain) :
    (start element).write.count '\n' + (finish element.name).write.count '\n' =
      (empty element).write.count '\n' := by
  simp [write, List.count_eq_zero.2 (newline_notMem_word h.name)]

end Tag

/-! ## Closing brackets -/

/-- Whether the closing bracket of a tag is looked for behind a text, with another quote open. -/
def Passes (quote quote' : Option Char) (cs : List Char) : Prop :=
  ∀ rest, closeTag quote (cs ++ rest) =
    (closeTag quote' rest).map fun (content, after) => (cs ++ content, after)

namespace Passes

variable {quote quote' quote'' : Option Char} {c : Char} {cs cs' : List Char}

theorem nil (quote : Option Char) : Passes quote quote [] := fun rest => by
  rw [List.nil_append]
  cases closeTag quote rest <;> rfl

theorem append (h : Passes quote quote' cs) (h' : Passes quote' quote'' cs') :
    Passes quote quote'' (cs ++ cs') := fun rest => by
  rw [List.append_assoc, h, h']
  cases closeTag quote'' rest <;> simp [Except.map]

theorem cons (h : Passes quote quote' [c]) (h' : Passes quote' quote'' cs) :
    Passes quote quote'' (c :: cs) :=
  h.append h'

theorem step {quote quote' : Option Char}
    (h : ∀ rest, closeTag quote (c :: rest) =
      (closeTag quote' rest).bind fun (content, after) => .ok (c :: content, after)) :
    Passes quote quote' [c] := fun rest => by
  rw [List.singleton_append, h]
  cases closeTag quote' rest <;> rfl

theorem openQuote : Passes none (some '"') ['"'] := step fun _ => rfl

theorem closeQuote : Passes (some '"') none ['"'] := step fun _ => rfl

theorem outside (hc : c ≠ '>' ∧ c ≠ '"' ∧ c ≠ '\'') : Passes none none [c] :=
  step fun _ => by simp [closeTag, hc, bind, pure, Except.pure]

theorem inside (hc : c ≠ '"') : Passes (some '"') (some '"') [c] :=
  step fun _ => by simp [closeTag, hc, bind, pure, Except.pure]

theorem word (h : ∀ c ∈ cs, c.isAlpha = true) : Passes none none cs := by
  induction cs with
  | nil => exact nil none
  | cons c cs ih =>
    obtain ⟨hc, hcs⟩ := List.forall_mem_cons.1 h
    exact cons (outside ⟨ne_of_isAlpha hc rfl, ne_of_isAlpha hc rfl, ne_of_isAlpha hc rfl⟩) (ih hcs)

theorem value (h : '"' ∉ cs) : Passes (some '"') (some '"') cs := by
  induction cs with
  | nil => exact nil _
  | cons c cs ih =>
    rw [List.mem_cons, not_or] at h
    exact cons (inside (Ne.symm h.1)) (ih h.2)

theorem entry {entry : String × String} (h : IsWord entry.1) :
    Passes none none (writeEntry entry) :=
  cons (outside (by decide)) ((word h.2).append (cons (outside (by decide))
    (cons openQuote ((value (quote_notMem_escaped _)).append closeQuote))))

theorem content {element : Element} (h : element.Plain) : Passes none none element.content := by
  refine (word h.name.2).append ?_
  have hkeys := h.keys
  generalize element.attributes = attributes at hkeys
  induction attributes with
  | nil => exact nil none
  | cons first rest ih =>
    obtain ⟨hfirst, hrest⟩ := List.forall_mem_cons.1 hkeys
    exact (entry hfirst).append (ih hrest)

/-- **The bracket that closes a tag** is the first one behind a text that passes. -/
theorem closeTag_append (h : Passes none none cs) (rest : List Char) :
    closeTag none (cs ++ '>' :: rest) = .ok (cs, rest) := by
  rw [h]
  simp [closeTag, Except.map]

end Passes

/-! ## Pieces -/

/-- The text of an element begins with a letter. -/
theorem exists_content_eq_cons {element : Element} (h : element.Plain) :
    ∃ c rest, c.isAlpha = true ∧ element.content = c :: rest := by
  obtain ⟨c, rest, hname⟩ := List.exists_cons_of_ne_nil h.name.1
  refine ⟨c, rest ++ element.attributes.flatMap writeEntry, h.name.2 c (by simp [hname]), ?_⟩
  rw [Element.content, hname, List.cons_append]

theorem getLast?_writeEntry (entry : String × String) :
    (writeEntry entry).getLast? = some '"' := by
  have heq : writeEntry entry =
      (' ' :: (entry.1.toList ++ '=' :: '"' :: escaped entry.2)) ++ ['"'] := by
    simp [writeEntry]
  rw [heq, List.getLast?_concat]

/-- The text of an element does not end with a slash. -/
theorem getLast?_content_ne {element : Element} (h : element.Plain) :
    element.content.getLast? ≠ some '/' := by
  intro hlast
  rcases List.eq_nil_or_concat element.attributes with hnil | ⟨entries, entry, hentries⟩
  · have hmem : '/' ∈ element.name.toList := by
      refine List.mem_of_getLast? ?_
      simpa [Element.content, hnil] using hlast
    exact absurd (h.name.2 _ hmem) (by decide)
  · simp [Element.content, hentries, getLast?_writeEntry] at hlast

theorem ofTag_of_isAlpha {c : Char} (hc : c.isAlpha = true) (rest : List Char) :
    Token.ofTag (c :: rest) = if (c :: rest).getLast? = some '/' then
      .emptyTag (c :: rest).dropLast else .startTag (c :: rest) := by
  rw [Token.ofTag]
  rintro name heq
  exact ne_of_isAlpha hc rfl (List.cons.inj heq).1

theorem ofTag_content {element : Element} (h : element.Plain) :
    Token.ofTag element.content = .startTag element.content := by
  obtain ⟨c, rest, hc, hcontent⟩ := exists_content_eq_cons h
  have hlast := getLast?_content_ne h
  rw [hcontent] at hlast ⊢
  rw [ofTag_of_isAlpha hc, if_neg hlast]

theorem ofTag_content_slash {element : Element} (h : element.Plain) :
    Token.ofTag (element.content ++ ['/']) = .emptyTag element.content := by
  obtain ⟨c, rest, hc, hcontent⟩ := exists_content_eq_cons h
  rw [hcontent, List.cons_append, ofTag_of_isAlpha hc, ← List.cons_append,
    if_pos List.getLast?_concat, List.dropLast_concat]

theorem endName_word {name : String} (h : IsWord name) : endName name.toList = name.toList := by
  have hblank : ∀ c ∈ name.toList.reverse, isMarkupBlank c = false := fun c hmem =>
    isMarkupBlank_of_isAlpha (h.2 c (List.mem_reverse.1 hmem))
  rw [endName, Unicode.dropEndWhile]
  split
  · rfl
  · rw [List.dropWhile_eq_self_iff.2 fun hlt => by simp [hblank], List.reverse_reverse]

theorem scanMarkup_eq {cs content rest : List Char} (hbang : cs.head? ≠ some '!')
    (hquestion : cs.head? ≠ some '?') (hclose : closeTag none cs = .ok (content, rest)) :
    scanMarkup cs = .ok (.ofTag content, rest) := by
  unfold scanMarkup
  split
  · simp at hbang
  · simp at hquestion
  · rw [hclose]
    rfl

theorem scanMarkup_content {element : Element} (h : element.Plain) {cs : List Char}
    (hcs : Passes none none cs) (rest : List Char) :
    scanMarkup (element.content ++ cs ++ '>' :: rest) =
      .ok (.ofTag (element.content ++ cs), rest) := by
  obtain ⟨c, text, hc, hcontent⟩ := exists_content_eq_cons h
  have hhead : (element.content ++ cs ++ '>' :: rest).head? = some c := by rw [hcontent]; rfl
  refine scanMarkup_eq ?_ ?_ (((Passes.content h).append hcs).closeTag_append rest) <;>
    rw [hhead] <;> simp [ne_of_isAlpha hc]

/-- **A written tag is the first piece** of the text that it begins. -/
theorem Tag.next_write {tag : Tag} (h : tag.Plain) (rest : List Char) :
    Token.next (tag.write ++ rest) = .ok (tag.token, rest) := by
  have hslash : Passes none none ['/'] := .outside (by decide)
  cases tag with
  | start element =>
    have hmarkup := scanMarkup_content h (.nil none) rest
    simpa [write, token, Token.next, ofTag_content h] using hmarkup
  | empty element =>
    have hmarkup := scanMarkup_content h hslash rest
    simpa [write, token, Token.next, ofTag_content_slash h] using hmarkup
  | finish name =>
    have hclose := (Passes.cons hslash (.word h.2)).closeTag_append rest
    have hmarkup := scanMarkup_eq (by simp) (by simp) hclose
    simpa [write, token, Token.next, Token.ofTag, endName_word h] using hmarkup

/-! ## Names and attributes -/

/-- Behind the name of an element is a blank, or nothing. -/
theorem attributes_cases (element : Element) :
    element.content = element.name.toList ∨
      ∃ rest, element.attributes.flatMap writeEntry = ' ' :: rest := by
  cases hattributes : element.attributes with
  | nil => exact .inl (by simp [Element.content, hattributes])
  | cons entry entries => exact .inr ⟨_, by rw [List.flatMap_cons, writeEntry, List.cons_append]⟩

theorem tagName_content {element : Element} (h : element.Plain) :
    tagName element.content = element.name.toList := by
  have hname : ∀ c ∈ element.name.toList, !isMarkupBlank c := fun c hmem => by
    simp [isMarkupBlank_of_isAlpha (h.name.2 c hmem)]
  rw [tagName]
  obtain heq | ⟨rest, heq⟩ := attributes_cases element
  · rw [heq, List.takeWhile_eq_self_iff.2 hname]
  · rw [Element.content, heq, takeWhile_word hname rfl]

theorem dropWord_content {element : Element} (h : element.Plain) :
    dropWord element.content = element.attributes.flatMap writeEntry := by
  have hname : ∀ c ∈ element.name.toList, !isMarkupBlank c := fun c hmem => by
    simp [isMarkupBlank_of_isAlpha (h.name.2 c hmem)]
  rw [dropWord, Element.content, List.dropWhile_append_of_pos hname]
  cases element.attributes with
  | nil => rfl
  | cons => rfl

/-- A word can be the key of an attribute. -/
theorem isKey_of_isWord {name : String} (h : IsWord name) : IsKey name.toList where
  ne_nil := h.1
  ne_sign c hmem := ne_of_isAlpha (h.2 c hmem) rfl
  not_blank c hmem := isMarkupBlank_of_isAlpha (h.2 c hmem)

/-- An attribute is written as attributes are spelled. -/
theorem spelled_writeEntry {entry : String × String} (h : IsWord entry.1) :
    Attribute.Spelled ⟨entry.1.toList, escaped entry.2⟩ (writeEntry entry) :=
  .plain (isKey_of_isWord h) (.inl rfl) (quote_notMem_escaped entry.2)

theorem lists_flatMap_writeEntry {entries : List (String × String)}
    (h : ∀ entry ∈ entries, IsWord entry.1) :
    Lists (entries.flatMap writeEntry)
      (entries.map fun entry => ⟨entry.1.toList, escaped entry.2⟩) := by
  induction entries with
  | nil => exact .nil
  | cons entry entries ih =>
    rw [List.forall_mem_cons] at h
    exact .cons (spelled_writeEntry h.1) (ih h.2)

/-- **The attributes of an element are read back** in their order. -/
theorem tagAttributes_content {element : Element} (h : element.Plain) :
    tagAttributes element.content =
      element.attributes.map fun entry => ⟨entry.1.toList, escaped entry.2⟩ := by
  have hdistinct : ((element.attributes.map fun entry =>
      Attribute.mk entry.1.toList (escaped entry.2)).map (·.key)).Nodup := by
    have hkeys := List.Nodup.map (fun _ _ => String.toList_inj.1) h.keys_nodup
    simpa [Function.comp_def] using hkeys
  have hread := (lists_flatMap_writeEntry h.keys).attributes_eq hdistinct (List.forall_mem_nil _)
  rwa [List.append_nil, ← dropWord_content h] at hread

/-! ## Values -/

theorem expandFrom_escape (total offset : Nat) (c : Char) (rest : List Char) :
    ∃ offset', expandFrom total offset none (escape c ++ rest) =
      (expandFrom total offset' none rest).bind fun cs => .ok (c :: cs) := by
  fun_cases escape c with
  | case6 c hamp hlt hgt hquot hapos =>
    exact ⟨_, by rw [List.singleton_append, expandFrom, if_neg hamp]; rfl⟩
  | _ => exact ⟨_, rfl⟩

theorem expandFrom_escaped (total offset : Nat) (cs : List Char) :
    expandFrom total offset none (cs.flatMap escape) = .ok cs := by
  induction cs generalizing offset with
  | nil => rfl
  | cons c cs ih =>
    obtain ⟨offset', hc⟩ := expandFrom_escape total offset c (cs.flatMap escape)
    rw [List.flatMap_cons, hc, ih]
    rfl

/-- **A value is read back** from the way it is written. -/
theorem expand_escaped (value : String) : expand (escaped value) = .ok value.toList :=
  expandFrom_escaped _ _ _

/-! ## Texts of tags -/

/-- The pieces that tags are, the first of which begins at byte `start`. -/
def located : (start : Nat) → List Tag → List (Nat × Token)
  | _, [] => []
  | start, tag :: rest => (start, tag.token) :: located (start + byteLength tag.write) rest

/-- Tags with the lines they begin on, the first of which is on `line`. -/
def placed : (line : Nat) → List Tag → List (Nat × Tag)
  | _, [] => []
  | line, tag :: rest => (line, tag) :: placed (line + tag.write.count '\n') rest

theorem written_cons (tag : Tag) (tags : List Tag) :
    written (tag :: tags) = tag.write ++ written tags := List.flatMap_cons

theorem Tag.exists_write_eq_cons (tag : Tag) : ∃ rest, tag.write = '<' :: rest := by
  cases tag <;> exact ⟨_, rfl⟩

theorem scanFrom_written {tags : List Tag} (h : ∀ tag ∈ tags, tag.Plain) {total fuel start : Nat}
    (htotal : total = start + byteLength (written tags))
    (hfuel : (written tags).length ≤ fuel) :
    scanFrom total fuel (written tags) = ⟨located start tags, none⟩ := by
  induction tags generalizing fuel start with
  | nil => cases fuel <;> rfl
  | cons tag tags ih =>
    obtain ⟨htag, htags⟩ := List.forall_mem_cons.1 h
    obtain ⟨text, htext⟩ := tag.exists_write_eq_cons
    have hnext := Tag.next_write htag (written tags)
    rw [written_cons] at htotal hfuel ⊢
    rw [byteLength_append] at htotal
    rw [List.length_append, htext, List.length_cons] at hfuel
    obtain ⟨fuel, rfl⟩ : ∃ less, fuel = less + 1 := ⟨fuel - 1, by omega⟩
    have hcons : tag.write ++ written tags = '<' :: (text ++ written tags) := by
      rw [htext, List.cons_append]
    have hmore := @ih htags fuel (start + byteLength tag.write)
      (htotal.trans (Nat.add_assoc _ _ _).symm) (by omega)
    have hoffset : total - byteLength (tag.write ++ written tags) = start := by
      rw [byteLength_append]
      omega
    rw [hcons] at hnext hoffset ⊢
    rw [scanFrom, hnext]
    simp only [hmore, hoffset, located]

/-- **A text of tags falls into their pieces.** -/
theorem scan_written {tags : List Tag} (h : ∀ tag ∈ tags, tag.Plain) :
    scan (written tags) = ⟨located 0 tags, none⟩ :=
  scanFrom_written h (Nat.zero_add _).symm (Nat.le_refl _)

/-- The line of each piece is the line of its tag. -/
theorem map_lineAt_located (before : List Char) (tags : List Tag) :
    (located (byteLength before) tags).map (fun piece =>
        ((Text.LineIndex.ofText (before ++ written tags)).lineAt piece.1, piece.2)) =
      (placed (before.count '\n' + 1) tags).map fun tag => (tag.1, tag.2.token) := by
  induction tags generalizing before with
  | nil => rfl
  | cons tag tags ih =>
    have hrest := ih (before ++ tag.write)
    rw [List.append_assoc, byteLength_append, List.count_append, ← written_cons,
      Nat.add_right_comm] at hrest
    rw [located, placed, List.map_cons, List.map_cons, hrest, Text.LineIndex.lineAt_byteLength]

end FixedWidth.Markup
