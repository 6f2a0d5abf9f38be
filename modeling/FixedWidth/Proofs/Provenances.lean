import FixedWidth.Proofs.Lines
import FixedWidth.Proofs.StartTags

/-!
# Proofs/Provenances — the line of a node and the line of its tag

    ⏎<a/>               line 2, tag on line 2
    mark ⏎ <a/>         line 1, tag on line 2

The place of a node is that of its start tag. Without a byte order mark its line is the line of the
tag. A byte order mark is left out of the offset of the tag but not of the lines, so the place is
taken three bytes too early, and the line is that of the tag if and only if no line feed is that
close before it (`Document.line_eq_iff`).
-/

namespace FixedWidth.Schema

open Markup (Token Begins)
open Text (byteLength byteLength_append lineFeedsBefore lineFeedsBefore_eq_count_iff)

/-- The number of bytes of the byte order mark that a text begins with. -/
def markLength (text : List Char) : Nat := if text.head? = some '\ufeff' then 3 else 0

/-- What is left of a text begins behind its byte order mark. -/
theorem exists_eq_append_dropByteOrderMark (text : List Char) :
    ∃ mark, text = mark ++ dropByteOrderMark text ∧ byteLength mark = markLength text := by
  fun_cases dropByteOrderMark text with
  | case1 rest => exact ⟨['\ufeff'], rfl, rfl⟩
  | case2 =>
    rename_i hmark
    refine ⟨[], rfl, ?_⟩
    obtain _ | ⟨c, rest⟩ := text
    · rfl
    · have hne : c ≠ '\ufeff' := fun heq => hmark rest (heq ▸ rfl)
      simp [markLength, hne]

/-- The node of a start tag is where the tag is. -/
theorem Elements.place_of_ofStartTag {place : Provenance} {content : List Char} {node : Node}
    (h : ofStartTag place content = .ok node) : node.place = place := by
  rw [ofStartTag] at h
  refine foldlM_keeps (P := fun node => node.place = place) ?_ h rfl
  intro before entry next hentry hbefore
  split at hentry <;> cases hentry
  rw [Node.setAttribute]
  split_ifs <;> exact hbefore

/-- A start tag begins with an angle bracket. -/
theorem exists_eq_lt_cons_of_isStart {cs after : List Char} {tag : Token}
    (h : Begins cs [tag] after) (htag : tag.isStart) : ∃ rest, cs = '<' :: rest := by
  cases h with
  | @cons c cs _ _ _ _ first _ =>
    obtain rfl | rfl | hplain := Markup.isPlain_cases c
    · exact ⟨cs, rfl⟩
    · obtain ⟨name, rfl, -⟩ := Markup.exists_of_scanReference first
      cases htag
    · rw [Token.next_of_isPlain hplain] at first
      cases first
      cases htag

/-- **The line of a node.** Every node of a document has its start tag, the one behind as many start
tags as there are nodes before it, in the text. Its line counts the line feeds before the bracket of
that tag, except for those that are closer to it than the byte order mark of the text is long. So
it is the line of the tag if and only if there are none of these. -/
theorem Document.line_eq_iff {source : String} {text : List Char} {document : Document}
    (hparse : Document.parse source text = .ok document) {index : Nat} {path : Path} {node : Node}
    (hnode : (occurrences document.roots)[index]? = some (path, node)) :
    ∃ front rest before tag after, text = front ++ '<' :: rest ∧
      Begins (dropByteOrderMark text) before ('<' :: rest) ∧
      Begins ('<' :: rest) [tag] after ∧ tag.isStart ∧ before.countP Token.isStart = index ∧
      node.place.source = source ∧
      node.place.line = lineFeedsBefore (markLength text) front + 1 ∧
      (node.place.line = front.count '\n' + 1 ↔
        ∀ earlier between, front = earlier ++ '\n' :: between →
          markLength text ≤ byteLength between) := by
  obtain ⟨before, tag, content, cs, after, hbefore, hbegins, hcontent, hcount, hhead⟩ :=
    exists_begins_of_node hparse hnode
  have htag : tag.isStart := by rw [Token.isStart_eq, hcontent]; rfl
  obtain ⟨rest, rfl⟩ := exists_eq_lt_cons_of_isStart hbegins htag
  obtain ⟨mark, htext, hmark⟩ := exists_eq_append_dropByteOrderMark text
  obtain ⟨inside, hinside⟩ := hbefore.suffix
  have hplace := Elements.place_of_ofStartTag hhead
  have hfront : text = (mark ++ inside) ++ '<' :: rest := by
    rw [List.append_assoc, hinside]
    exact htext
  -- the offset of the tag is as much too small as the mark is long
  have hoffset : byteLength (dropByteOrderMark text) - byteLength ('<' :: rest) =
      byteLength (mark ++ inside) - markLength text := by
    rw [← hinside, byteLength_append, byteLength_append, hmark]
    omega
  have hline : node.place.line = lineFeedsBefore (markLength text) (mark ++ inside) + 1 := by
    rw [← Text.LineIndex.lineAt_eq _ ('<' :: rest), ← hfront, ← hoffset]
    exact congrArg Provenance.line hplace
  refine ⟨mark ++ inside, rest, before, tag, after, hfront, hbefore, hbegins, htag, hcount,
    congrArg Provenance.source hplace, hline, ?_⟩
  rw [hline, Nat.add_right_cancel_iff, lineFeedsBefore_eq_count_iff]

/-- A marked text with a tag behind a line feed and a letter of two bytes. -/
def marked : List Char := "\ufeff<a>\n é<b/></a>".toList

/-- Its document. -/
def markedDocument : Document :=
  .ofRoots "b.xml" [{ Node.ofTag "a" ⟨"b.xml", 1⟩ with
    text := "\n é", children := [Node.ofTag "b" ⟨"b.xml", 2⟩] }]

/-- The line feed is far enough before the inner tag. -/
theorem marked_line_eq :
    Document.parse "b.xml" marked = .ok markedDocument ∧
      (occurrences markedDocument.roots)[1]? = some (⟨0, [0]⟩, Node.ofTag "b" ⟨"b.xml", 2⟩) ∧
      ∃ front rest, marked = front ++ '<' :: rest ∧
        2 = lineFeedsBefore (markLength marked) front + 1 := by
  have hparse : Document.parse "b.xml" marked = .ok markedDocument := by rfl
  have hnode : (occurrences markedDocument.roots)[1]? =
      some (⟨0, [0]⟩, Node.ofTag "b" ⟨"b.xml", 2⟩) := by rfl
  obtain ⟨front, rest, before, tag, after, htext, -, -, -, -, -, hline, -⟩ :=
    Document.line_eq_iff hparse hnode
  exact ⟨hparse, hnode, front, rest, htext, hline⟩

/-- **A line feed right behind a byte order mark does not count**: the tag is on the second line of
the text, and its node on the first. -/
theorem line_feed_behind_mark_lost :
    Document.parse "b.xml" "\ufeff\n<a/>".toList =
        .ok (.ofRoots "b.xml" [Node.ofTag "a" ⟨"b.xml", 1⟩]) ∧
      "\ufeff\n<a/>".toList = "\ufeff\n".toList ++ '<' :: "a/>".toList ∧
      "\ufeff\n".toList.count '\n' + 1 = 2 :=
  ⟨by rfl, by rfl, by rfl⟩

end FixedWidth.Schema
