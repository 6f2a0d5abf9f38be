import FixedWidth.Proofs.ElementTexts
import Mathlib.Data.List.Forall2

/-!
# Proofs/StartTags — every node is the one of its start tag

    <a> <b x="1"/> text <c> </c> </a>       start tags  a  b x="1"  c
                                            nodes       a  b x="1"  c

What a node has besides its text and its children comes from its start tag and never changes
(`Node.head`). The heads of the nodes begun so far are listed in the order of their start tags: a
start tag adds one, and every other piece leaves the list alone (`Elements.heads_step`). So the
nodes of a document are one for one those of the start tags of its text, and each is made from what
its tag says, at the place of that tag (`Document.exists_node_of_begins`,
`Document.exists_begins_of_node`).
-/

namespace FixedWidth.Markup

open Text (byteLength)

/-- The text between the brackets of a tag that begins an element. -/
def Token.startContent? : Token → Option (List Char)
  | startTag content | emptyTag content => some content
  | _ => none

theorem Token.isStart_eq (token : Token) : token.isStart = token.startContent?.isSome := by
  cases token <;> rfl

/-- The start tags among pieces, with their offsets. -/
def startTags (pieces : List (Nat × Token)) : List (Nat × List Char) :=
  pieces.filterMap fun piece => piece.2.startContent?.map (piece.1, ·)

theorem startTags_cons (offset : Nat) (token : Token) (pieces : List (Nat × Token)) :
    startTags ((offset, token) :: pieces) =
      token.startContent?.toList.map (offset, ·) ++ startTags pieces := by
  rw [startTags, List.filterMap_cons]
  cases token.startContent? <;> rfl

variable {cs mid after content : List Char} {before : List Token} {tag : Token}

/-- **A start tag of a text is one of its scan**, behind those before it and at its offset. -/
theorem Begins.getElem?_startTags (h : Begins cs before mid) (h' : Begins mid [tag] after)
    (htag : tag.startContent? = some content) {total fuel : Nat} (hfuel : cs.length ≤ fuel) :
    (startTags (scanFrom total fuel cs).tokens)[before.countP Token.isStart]? =
      some (total - byteLength mid, content) := by
  induction h generalizing fuel with
  | nil =>
    cases h' with
    | cons first _ =>
      obtain ⟨fuel, rfl⟩ := Nat.exists_eq_add_one_of_ne_zero (Nat.ne_zero_of_lt hfuel)
      rw [scanFrom, first, startTags_cons, htag]
      rfl
  | @cons c cs rest mid token before first _ ih =>
    obtain ⟨fuel, rfl⟩ := Nat.exists_eq_add_one_of_ne_zero (Nat.ne_zero_of_lt hfuel)
    have hrest := (Token.suffix_of_next first).length_le
    rw [scanFrom, first, startTags_cons, List.countP_cons, Token.isStart_eq]
    cases token.startContent? <;> exact ih h' (hrest.trans (Nat.le_of_succ_le_succ hfuel))

/-- **Each start tag of a scan is one of the text.** -/
theorem exists_begins_of_getElem?_startTags {total fuel index offset : Nat}
    (h : (startTags (scanFrom total fuel cs).tokens)[index]? = some (offset, content)) :
    ∃ before tag mid after, Begins cs before mid ∧ Begins mid [tag] after ∧
      tag.startContent? = some content ∧ before.countP Token.isStart = index ∧
      offset = total - byteLength mid := by
  induction fuel generalizing cs index with
  | zero => cases h
  | succ fuel ih =>
    obtain _ | ⟨c, cs⟩ := cs
    · cases h
    cases hnext : Token.next (c :: cs) with
    | error fault => simp [scanFrom, hnext, startTags] at h
    | ok piece =>
      obtain ⟨token, rest⟩ := piece
      rw [scanFrom, hnext] at h
      dsimp only at h
      rw [startTags_cons] at h
      -- a start tag of the rest has one more piece before it
      have hmore : ∀ index', (startTags (scanFrom total fuel rest).tokens)[index']? =
          some (offset, content) → token.isStart.toNat + index' = index →
          ∃ before tag mid after, Begins (c :: cs) before mid ∧ Begins mid [tag] after ∧
            tag.startContent? = some content ∧ before.countP Token.isStart = index ∧
            offset = total - byteLength mid := by
        intro index' h' hindex
        obtain ⟨before, tag, mid, after, hbegins, htag, hcontent, rfl, hoffset⟩ := ih h'
        refine ⟨token :: before, tag, mid, after, .cons hnext hbegins, htag, hcontent, ?_, hoffset⟩
        rw [List.countP_cons, ← hindex, Nat.add_comm]
        cases token.isStart <;> rfl
      rw [Token.isStart_eq] at hmore
      cases hstart : token.startContent? with
      | none => exact hmore index (by simpa [hstart] using h) (by simp [hstart])
      | some found =>
        cases index with
        | zero =>
          obtain ⟨rfl, rfl⟩ : total - byteLength (c :: cs) = offset ∧ found = content := by
            simpa [hstart] using h
          exact ⟨[], token, c :: cs, rest, .nil, .cons hnext .nil, hstart, rfl, rfl⟩
        | succ index =>
          exact hmore index (by simpa [hstart] using h) (by simp [hstart, Nat.add_comm])

end FixedWidth.Markup

namespace FixedWidth.Schema

open Markup (Token Begins MarkupError bind_eq_ok startTags)
open Text (byteLength)

/-! ## Heads -/

/-- A node with nothing inside. -/
def Node.head (node : Node) : Node := { node with text := "", children := [] }

theorem Node.head_eq_self {node : Node} (htext : node.text = "") (hchildren : node.children = []) :
    node.head = node := by
  cases node
  simp_all [head]

namespace Elements

/-- The heads of the nodes that were begun, in the order of their start tags. -/
def heads (elements : Elements) : List Node :=
  ((elements.roots ++ elements.opened.reverse).flatMap Node.all).map Node.head

theorem heads_open (node : Node) (opened roots : List Node) :
    heads ⟨node :: opened, roots⟩ = heads ⟨opened, roots⟩ ++ node.all.map Node.head := by
  simp [heads, ← List.append_assoc]

/-- A change of an open element that leaves its head and its children alone does not show. -/
theorem heads_modifyTop {change : Node → Node} (hhead : ∀ node, (change node).head = node.head)
    (hchildren : ∀ node, (change node).children = node.children) (elements : Elements) :
    (elements.modifyTop change).heads = elements.heads := by
  obtain ⟨_ | ⟨top, rest⟩, roots⟩ := elements
  · rfl
  · rw [modifyTop, heads_open, heads_open, Node.all_eq, Node.all_eq top, List.map_cons,
      List.map_cons, hhead, hchildren]

theorem heads_attach (elements : Elements) (node : Node) :
    (elements.attach node).heads = elements.heads ++ node.all.map Node.head := by
  obtain ⟨_ | ⟨top, rest⟩, roots⟩ := elements
  · simp [attach, heads]
  · rw [attach, heads_open, heads_open, List.append_assoc, Node.all_eq, Node.all_eq top]
    simp [Node.addChild, Node.head]

theorem head_appendText (node : Node) (text : List Char) :
    (node.appendText text).head = node.head := by
  rw [Node.appendText]
  split <;> rfl

/-- The node of a start tag is all head. -/
theorem map_head_all_of_ofStartTag {place : Provenance} {content : List Char} {node : Node}
    (h : ofStartTag place content = .ok node) : node.all.map Node.head = [node] := by
  obtain ⟨-, htext, hchildren⟩ := of_ofStartTag h
  rw [Node.all_eq, hchildren, List.flatMap_nil, List.map_singleton,
    Node.head_eq_self htext hchildren]

/-- **A start tag begins one more node, and no other piece does.** -/
theorem heads_step {elements elements' : Elements} {place : Provenance} {token : Token}
    (h : elements.step place token = .ok elements') :
    ∃ nodes, elements'.heads = elements.heads ++ nodes ∧
      List.Forall₂ (fun content node => ofStartTag place content = .ok node)
        token.startContent?.toList nodes := by
  have hsame : elements'.heads = elements.heads → token.startContent? = none →
      ∃ nodes, elements'.heads = elements.heads ++ nodes ∧
        List.Forall₂ (fun content node => ofStartTag place content = .ok node)
          token.startContent?.toList nodes := by
    intro hheads hnone
    refine ⟨[], by rw [hheads, List.append_nil], ?_⟩
    rw [hnone]
    exact .nil
  cases token with
  | startTag content =>
    obtain ⟨node, hnode, heq⟩ := bind_eq_ok.1 h
    cases heq
    exact ⟨[node], by rw [heads_open, map_head_all_of_ofStartTag hnode], .cons hnode .nil⟩
  | emptyTag content =>
    obtain ⟨node, hnode, heq⟩ := bind_eq_ok.1 h
    cases heq
    exact ⟨[node], by rw [heads_attach, map_head_all_of_ofStartTag hnode], .cons hnode .nil⟩
  | endTag name =>
    refine hsame ?_ rfl
    obtain ⟨_ | ⟨top, rest⟩, roots⟩ := elements
    · cases h
    · rw [step] at h
      dsimp only at h
      split at h <;> cases h
      rw [heads_attach, heads_open]
  | text content | characterData content =>
    cases h
    exact hsame (heads_modifyTop (head_appendText · content) (children_appendText · content) _) rfl
  | reference name =>
    rw [step] at h
    split at h <;> cases h
    refine hsame (heads_modifyTop ?_ ?_ elements) rfl <;> exact fun _ => rfl
  | ignored =>
    cases h
    exact hsame rfl rfl

/-- **Pieces begin the nodes of their start tags**, in their order. -/
theorem heads_readPieces {placeOf : Nat → Provenance} {elements elements' : Elements}
    {pieces : List (Nat × Token)} (h : elements.readPieces placeOf pieces = .ok elements') :
    ∃ nodes, elements'.heads = elements.heads ++ nodes ∧
      List.Forall₂ (fun start node => ofStartTag (placeOf start.1) start.2 = .ok node)
        (startTags pieces) nodes := by
  induction pieces generalizing elements with
  | nil =>
    cases h
    exact ⟨[], (List.append_nil _).symm, .nil⟩
  | cons piece pieces ih =>
    obtain ⟨between, hstep, hrest⟩ := readPieces_cons.1 h
    obtain ⟨nodes, hnodes, hforall⟩ := heads_step hstep
    obtain ⟨more, hmore, hforall'⟩ := ih hrest
    refine ⟨nodes ++ more, by rw [hmore, hnodes, List.append_assoc], ?_⟩
    rw [Markup.startTags_cons]
    exact List.rel_append (List.forall₂_map_left_iff.2 hforall) hforall'

end Elements

/-! ## Documents -/

/-- **The nodes of a document are those of its start tags**, one for one and in their order. -/
theorem Document.forall₂_startTags {source : String} {text : List Char} {document : Document}
    (h : Document.parse source text = .ok document) :
    List.Forall₂ (fun start entry =>
        Elements.ofStartTag (placeAt source text start.1) start.2 = .ok entry.2.head)
      (startTags (Markup.scan (dropByteOrderMark text)).tokens) (occurrences document.roots) := by
  obtain ⟨nodes, hnodes, hforall⟩ := Elements.heads_readPieces (readPieces_of_parse h)
  have heq : nodes = (occurrences document.roots).map fun entry => entry.2.head := by
    rw [← hnodes.trans (List.nil_append _), Elements.heads, List.reverse_nil, List.append_nil,
      ← map_snd_occurrences, List.map_map]
    rfl
  rw [heq, List.forall₂_map_right_iff] at hforall
  exact hforall

/-- An item of one list has its partner in the other at the same place. -/
theorem getElem?_of_forall₂ {α β : Type} {R : α → β → Prop} {items : List α} {partners : List β}
    (h : List.Forall₂ R items partners) {index : Nat} {item : α}
    (hitem : items[index]? = some item) :
    ∃ partner, partners[index]? = some partner ∧ R item partner := by
  obtain ⟨hlt, rfl⟩ := List.getElem?_eq_some_iff.1 hitem
  have hlt' := h.length_eq ▸ hlt
  exact ⟨partners[index], List.getElem?_eq_getElem hlt', h.get hlt hlt'⟩

variable {source : String} {text cs after content : List Char} {document : Document}
  {before : List Token} {tag : Token}

/-- **The node of a start tag** is found behind as many nodes as there are start tags before it. -/
theorem Document.exists_node_of_begins (h : Document.parse source text = .ok document)
    (hbefore : Begins (dropByteOrderMark text) before cs) (hbegins : Begins cs [tag] after)
    (htag : tag.startContent? = some content) :
    ∃ path node,
      (occurrences document.roots)[before.countP Token.isStart]? = some (path, node) ∧
      Elements.ofStartTag
        (placeAt source text (byteLength (dropByteOrderMark text) - byteLength cs)) content =
          .ok node.head := by
  have hstart : (startTags (Markup.scan (dropByteOrderMark text)).tokens)[_]? = _ :=
    hbefore.getElem?_startTags hbegins htag (Nat.le_refl _)
  obtain ⟨⟨path, node⟩, hnode, hhead⟩ := getElem?_of_forall₂ (forall₂_startTags h) hstart
  exact ⟨path, node, hnode, hhead⟩

/-- **The start tag of a node** stands behind as many start tags as there are nodes before it. -/
theorem Document.exists_begins_of_node (h : Document.parse source text = .ok document)
    {index : Nat} {path : Path} {node : Node}
    (hnode : (occurrences document.roots)[index]? = some (path, node)) :
    ∃ before tag content cs after, Begins (dropByteOrderMark text) before cs ∧
      Begins cs [tag] after ∧ tag.startContent? = some content ∧
      before.countP Token.isStart = index ∧
      Elements.ofStartTag
        (placeAt source text (byteLength (dropByteOrderMark text) - byteLength cs)) content =
          .ok node.head := by
  obtain ⟨⟨offset, content⟩, hstart, hhead⟩ := getElem?_of_forall₂ (forall₂_startTags h).flip hnode
  obtain ⟨before, tag, cs, after, hbefore, hbegins, htag, hcount, rfl⟩ :=
    Markup.exists_begins_of_getElem?_startTags hstart
  exact ⟨before, tag, content, cs, after, hbefore, hbegins, htag, hcount, hhead⟩

end FixedWidth.Schema
