import FixedWidth.Proofs.Forest
import FixedWidth.Proofs.Pieces
import FixedWidth.Schema.Document

/-!
# Proofs/ElementTexts — the text of an element and what its content composes

    <constant>x &lt; y</constant>     content composes `x < y`, text `x < y`
    <constant>&lt; &gt;</constant>    content composes `< >`,   text `<>`

The nodes begun so far are listed in the order of their start tags, and one that is finished stays
as it is (`Elements.Keeps`). So the node of an element without others in it is found behind as many
nodes as there are start tags before it, with the text that its content left. Blank runs are dropped
one by one, also those between two references: the text is what the content composes if and only if
there are none (`Document.text_eq_iff`).
-/

namespace FixedWidth.Schema

open Markup (Token Begins Composes MarkupError bind_eq_ok)

/-! ## Nodes in the order of their start tags -/

/-- A node and those below it, each before its children. -/
def Node.all (node : Node) : List Node := node.descendants.map Prod.snd

theorem Node.all_eq (node : Node) : node.all = node :: node.children.flatMap Node.all := by
  have hfrom : ∀ (children : List Node) (start : Nat),
      (descendants.descendantsFrom start children).map Prod.snd = children.flatMap Node.all := by
    intro children
    induction children with
    | nil => exact fun _ => rfl
    | cons child rest ih =>
      intro start
      rw [descendants.descendantsFrom, List.map_append, List.map_map, ih, List.flatMap_cons]
      rfl
  obtain ⟨tag, id, refId, attributes, text, children, place⟩ := node
  rw [all, descendants, List.map_cons, hfrom]

theorem map_snd_occurrences (roots : List Node) :
    (occurrences roots).map Prod.snd = roots.flatMap Node.all := by
  have hfrom : ∀ (roots : List Node) (start : Nat),
      (occurrencesFrom start roots).map Prod.snd = roots.flatMap Node.all := by
    intro roots
    induction roots with
    | nil => exact fun _ => rfl
    | cons root rest ih =>
      intro start
      rw [occurrencesFrom, List.map_append, List.map_map, ih, List.flatMap_cons]
      rfl
  exact hfrom roots 0

namespace Elements

/-- An open element, the node of which is not finished, and the finished ones inside. -/
def openPart (node : Node) : List (Option Node) :=
  none :: node.children.flatMap fun child => child.all.map some

/-- The nodes that were begun, in the order of their start tags. Those that are finished are
shown. -/
def shown (elements : Elements) : List (Option Node) :=
  elements.roots.flatMap (fun root => root.all.map some) ++ elements.opened.reverse.flatMap openPart

/-- **Nodes that are shown stay where they are.** -/
def Keeps (nodes nodes' : List (Option Node)) : Prop :=
  ∀ (index : Nat) (node : Node),
    nodes[index]? = some (some node) → nodes'[index]? = some (some node)

theorem Keeps.rfl {nodes : List (Option Node)} : Keeps nodes nodes := fun _ _ => id

theorem Keeps.trans {nodes nodes' nodes'' : List (Option Node)} (h : Keeps nodes nodes')
    (h' : Keeps nodes' nodes'') : Keeps nodes nodes'' := fun index node hshown =>
  h' index node (h index node hshown)

theorem keeps_append (nodes more : List (Option Node)) : Keeps nodes (nodes ++ more) :=
  fun _ _ hshown => (List.getElem?_append_left (List.getElem?_eq_some_iff.1 hshown).1).trans hshown

/-- A node that is not shown yet may become so. -/
theorem keeps_of_none (before after : List (Option Node)) (node : Option Node) :
    Keeps (before ++ none :: after) (before ++ node :: after) := by
  intro index shown hshown
  obtain hlt | hle := Nat.lt_or_ge index before.length
  · rwa [List.getElem?_append_left hlt] at hshown ⊢
  · rw [List.getElem?_append_right hle] at hshown ⊢
    cases hindex : index - before.length with
    | zero => simp [hindex] at hshown
    | succ index => simpa [hindex] using hshown

/-! ## One piece -/

theorem shown_open (node : Node) (opened roots : List Node) :
    shown ⟨node :: opened, roots⟩ = shown ⟨opened, roots⟩ ++ openPart node := by
  simp [shown]

theorem shown_attach (elements : Elements) (node : Node) :
    (elements.attach node).shown = elements.shown ++ node.all.map some := by
  obtain ⟨_ | ⟨top, rest⟩, roots⟩ := elements
  · simp [attach, shown]
  · rw [attach, shown_open, shown_open, List.append_assoc]
    simp [openPart, Node.addChild]

/-- A change of an open element that leaves its children alone does not show. -/
theorem shown_modifyTop {change : Node → Node} (h : ∀ node, (change node).children = node.children)
    (elements : Elements) : (elements.modifyTop change).shown = elements.shown := by
  obtain ⟨_ | ⟨top, rest⟩, roots⟩ := elements
  · rfl
  · rw [modifyTop, shown_open, shown_open, openPart, openPart, h]

/-- What each step of a run keeps, the run keeps. -/
theorem foldlM_keeps {α β ε : Type} {f : β → α → Except ε β} {P : β → Prop}
    (hstep : ∀ state item next, f state item = .ok next → P state → P next) {items : List α}
    {state last : β} (h : items.foldlM f state = .ok last) (hstate : P state) : P last := by
  induction items generalizing state with
  | nil => cases h; exact hstate
  | cons item items ih =>
    rw [List.foldlM_cons, bind_eq_ok] at h
    obtain ⟨next, hnext, hrest⟩ := h
    exact ih hrest (hstep state item next hnext hstate)

/-- The node of a start tag has the name of the tag, and nothing in it. -/
theorem of_ofStartTag {place : Provenance} {content : List Char} {node : Node}
    (h : ofStartTag place content = .ok node) :
    node.tag = String.ofList (Markup.tagName content) ∧ node.text = "" ∧ node.children = [] := by
  rw [ofStartTag] at h
  refine foldlM_keeps (P := fun node => node.tag = String.ofList (Markup.tagName content) ∧
    node.text = "" ∧ node.children = []) ?_ h ⟨rfl, rfl, rfl⟩
  intro before entry next hentry hbefore
  split at hentry <;> cases hentry
  rw [Node.setAttribute]
  split_ifs <;> exact hbefore

theorem children_appendText (node : Node) (text : List Char) :
    (node.appendText text).children = node.children := by
  rw [Node.appendText]
  split <;> rfl

/-- **A piece keeps the nodes that are shown**, and begins one more if it is a start tag. -/
theorem step_shown {elements elements' : Elements} {place : Provenance} {token : Token}
    (h : elements.step place token = .ok elements') :
    Keeps elements.shown elements'.shown ∧
      elements'.shown.length = elements.shown.length + token.isStart.toNat := by
  have hmodify : ∀ change : Node → Node, (∀ node, (change node).children = node.children) →
      Keeps elements.shown (elements.modifyTop change).shown ∧
        (elements.modifyTop change).shown.length = elements.shown.length := by
    intro change hchange
    rw [shown_modifyTop hchange]
    exact ⟨.rfl, rfl⟩
  cases token with
  | startTag content =>
    obtain ⟨node, hnode, heq⟩ := bind_eq_ok.1 h
    cases heq
    rw [shown_open, openPart, (of_ofStartTag hnode).2.2]
    exact ⟨keeps_append _ _, List.length_append⟩
  | emptyTag content =>
    obtain ⟨node, hnode, heq⟩ := bind_eq_ok.1 h
    cases heq
    rw [shown_attach, Node.all_eq, (of_ofStartTag hnode).2.2]
    exact ⟨keeps_append _ _, List.length_append⟩
  | endTag name =>
    obtain ⟨_ | ⟨top, rest⟩, roots⟩ := elements
    · cases h
    · rw [step] at h
      dsimp only at h
      split at h <;> cases h
      rw [shown_attach, shown_open, Node.all_eq, openPart, List.map_cons, List.map_flatMap]
      exact ⟨keeps_of_none _ _ _, by simp [Token.isStart]⟩
  | text content | characterData content =>
    cases h
    exact hmodify _ fun node => children_appendText node content
  | reference name =>
    rw [step] at h
    split at h <;> cases h
    exact hmodify _ fun _ => rfl
  | ignored => cases h; exact ⟨.rfl, rfl⟩

/-! ## Many pieces -/

/-- Adds pieces, each of which begins at the place of its offset. -/
def readPieces (placeOf : Nat → Provenance) (elements : Elements) (pieces : List (Nat × Token)) :
    Except MarkupError Elements :=
  pieces.foldlM (fun elements piece => elements.step (placeOf piece.1) piece.2) elements

variable {placeOf : Nat → Provenance} {elements elements' : Elements} {pieces : List (Nat × Token)}

theorem readPieces_cons {piece : Nat × Token} :
    elements.readPieces placeOf (piece :: pieces) = .ok elements' ↔
      ∃ between, elements.step (placeOf piece.1) piece.2 = .ok between ∧
        between.readPieces placeOf pieces = .ok elements' := by
  rw [readPieces, List.foldlM_cons, bind_eq_ok]
  rfl

theorem readPieces_append {more : List (Nat × Token)} :
    elements.readPieces placeOf (pieces ++ more) = .ok elements' ↔
      ∃ between, elements.readPieces placeOf pieces = .ok between ∧
        between.readPieces placeOf more = .ok elements' := by
  rw [readPieces, List.foldlM_append, bind_eq_ok]
  rfl

/-- **Pieces keep the nodes that are shown**, and begin as many as there are start tags. -/
theorem readPieces_shown (h : elements.readPieces placeOf pieces = .ok elements') :
    Keeps elements.shown elements'.shown ∧ elements'.shown.length =
      elements.shown.length + (pieces.map Prod.snd).countP Token.isStart := by
  induction pieces generalizing elements with
  | nil => cases h; exact ⟨.rfl, rfl⟩
  | cons piece pieces ih =>
    obtain ⟨between, hstep, hrest⟩ := readPieces_cons.1 h
    obtain ⟨hkeeps, hlength⟩ := step_shown hstep
    obtain ⟨hkeeps', hlength'⟩ := ih hrest
    refine ⟨hkeeps.trans hkeeps', ?_⟩
    rw [hlength', hlength, List.map_cons, List.countP_cons, Nat.add_assoc, Nat.add_comm]
    cases piece.2.isStart <;> simp [Nat.add_comm, Nat.add_left_comm]

/-! ## Content -/

/-- What is left of a run of characters. -/
def kept (run : List Char) : List Char := if Unicode.isBlankText run then [] else run

theorem addText_nil (node : Node) : node.addText [] = node := by
  obtain ⟨tag, id, refId, attributes, text, children, place⟩ := node
  simp [Node.addText]

theorem addText_addText (node : Node) (first more : List Char) :
    (node.addText first).addText more = node.addText (first ++ more) := by
  simp [Node.addText, String.append_assoc]

theorem appendText_eq (node : Node) (run : List Char) :
    node.appendText run = node.addText (kept run) := by
  rw [Node.appendText, kept]
  split
  · rw [addText_nil]
  · rfl

/-- A run is kept unless it vanishes, and what is left behind it does not make up for that. -/
theorem kept_append_eq_iff {run left composed : List Char} (hleft : left.Sublist composed) :
    kept run ++ left = run ++ composed ↔
      (!run.isEmpty && Unicode.isBlankText run) = false ∧ left = composed := by
  rw [kept]
  split
  · rename_i hblank
    cases run with
    | nil => simp
    | cons c run =>
      refine ⟨fun heq => ?_, fun ⟨hkept, _⟩ => ?_⟩
      · have hlength := congrArg List.length heq
        have hle := hleft.length_le
        rw [List.nil_append, List.length_append, List.length_cons] at hlength
        omega
      · rw [hblank] at hkept
        cases hkept
  · rename_i hblank
    simp [hblank]

theorem kept_sublist (run : List Char) : (kept run).Sublist run := by
  rw [kept]
  split
  · exact List.nil_sublist run
  · exact List.Sublist.refl run

/-- **Content leaves the text that it composes, less the runs that vanish.** -/
theorem exists_readPieces {tokens : List Token} {composed : List Char}
    (h : Composes tokens composed) (hpieces : pieces.map Prod.snd = tokens) (top : Node)
    (opened roots : List Node) :
    ∃ left, readPieces placeOf ⟨top :: opened, roots⟩ pieces =
        .ok ⟨top.addText left :: opened, roots⟩ ∧ left.Sublist composed ∧
          (left = composed ↔ ∀ token ∈ tokens, token.vanishes = false) := by
  induction h generalizing pieces top with
  | nil =>
    rw [List.map_eq_nil_iff] at hpieces
    subst hpieces
    exact ⟨[], by rw [addText_nil]; rfl, .refl _, by simp⟩
  | @text tokens composed run _ ih | @characterData tokens composed run _ ih =>
    obtain _ | ⟨piece, pieces⟩ := pieces
    · cases hpieces
    · obtain ⟨hpiece, hrest⟩ := List.cons.inj hpieces
      obtain ⟨left, hread, hsublist, hiff⟩ := ih hrest (top.addText (kept run))
      refine ⟨kept run ++ left, ?_, (kept_sublist run).append hsublist, ?_⟩
      · refine readPieces_cons.2 ⟨_, ?_, hread.trans (by rw [addText_addText])⟩
        rw [hpiece, ← appendText_eq]
        rfl
      · rw [kept_append_eq_iff hsublist, List.forall_mem_cons, hiff]
        rfl
  | @reference tokens composed name character resolves _ ih =>
    obtain _ | ⟨piece, pieces⟩ := pieces
    · cases hpieces
    · obtain ⟨hpiece, hrest⟩ := List.cons.inj hpieces
      obtain ⟨left, hread, hsublist, hiff⟩ := ih hrest (top.addText [character])
      refine ⟨character :: left, ?_, hsublist.cons_cons _, ?_⟩
      · refine readPieces_cons.2 ⟨_, ?_, hread.trans (by rw [addText_addText]; rfl)⟩
        rw [hpiece, step, resolves]
        rfl
      · rw [List.forall_mem_cons, ← hiff, List.cons.injEq]
        simp [Token.vanishes]

/-- **An element without others in it** is shown behind the nodes that were begun before it, with
what its content left. -/
theorem readPieces_element {before after : List (Nat × Token)} {first last : Nat}
    {tag name composed : List Char}
    (h : elements.readPieces placeOf (before ++
      (first, .startTag tag) :: (pieces ++ (last, .endTag name) :: after)) = .ok elements')
    (hcomposes : Composes (pieces.map Prod.snd) composed) :
    ∃ node, elements'.shown[elements.shown.length + (before.map Prod.snd).countP Token.isStart]? =
        some (some node) ∧
      node.tag = String.ofList (Markup.tagName tag) ∧
      (node.text.toList = composed ↔ ∀ token ∈ pieces.map Prod.snd, token.vanishes = false) := by
  obtain ⟨outer, hbefore, h⟩ := readPieces_append.1 h
  obtain ⟨between, hstart, h⟩ := readPieces_cons.1 h
  obtain ⟨inner, hpieces, h⟩ := readPieces_append.1 h
  obtain ⟨closed, hend, hafter⟩ := readPieces_cons.1 h
  obtain ⟨node, hnode, heq⟩ := bind_eq_ok.1 hstart
  cases heq
  obtain ⟨htag, htext, hchildren⟩ := of_ofStartTag hnode
  obtain ⟨left, hread, -, hiff⟩ :=
    exists_readPieces hcomposes rfl node outer.opened outer.roots
  cases hpieces.symm.trans hread
  have hclosed : closed = outer.attach (node.addText left) := by
    rw [step] at hend
    dsimp only at hend
    split at hend <;> cases hend
    rfl
  have hlength := (readPieces_shown hbefore).2
  have hleft : (node.addText left).text.toList = left := by
    rw [Node.addText, htext]
    simp
  refine ⟨node.addText left, (readPieces_shown hafter).1 _ _ ?_, htag, by rwa [hleft]⟩
  rw [hclosed, shown_attach, Node.all_eq, List.map_cons, ← hlength,
    List.getElem?_append_right le_rfl, Nat.sub_self, List.getElem?_cons_zero]

end Elements

/-! ## Documents -/

/-- Where a piece of a document that begins at an offset is. -/
def placeAt (source : String) (text : List Char) (offset : Nat) : Provenance :=
  ⟨source, (Text.LineIndex.ofText text).lineAt offset⟩

/-- A document is read to its end, piece by piece. -/
theorem Document.readPieces_of_parse {source : String} {text : List Char} {document : Document}
    (h : Document.parse source text = .ok document) :
    Elements.initial.readPieces (placeAt source text)
      (Markup.scan (dropByteOrderMark text)).tokens = .ok ⟨[], document.roots⟩ := by
  rw [parse] at h
  split at h
  · cases h
  · rename_i elements hread
    obtain ⟨_ | ⟨top, opened⟩, roots⟩ := elements
    · dsimp only at h
      split at h <;> cases h
      rw [readElements] at hread
      obtain ⟨elements, hpieces, hfault⟩ := bind_eq_ok.1 hread
      split at hfault <;> cases hfault
      exact hpieces
    · cases h

/-- **The text of an element is what its content composes, but for blank runs.** In a document, let
an element have nothing but characters and references in it, which compose a text. Its node, the one
behind as many as there are start tags before it, has that text if and only if no run of characters
in it vanishes for being blank. Content without markup composes what it would be as the value of an
attribute. -/
theorem Document.text_eq_iff {source : String} {text : List Char} {document : Document}
    (hparse : Document.parse source text = .ok document) {before pieces : List Token}
    {tag content close name after composed : List Char}
    (hstart : Begins (dropByteOrderMark text) (before ++ [.startTag tag]) (content ++ close))
    (hpieces : Begins (content ++ close) pieces close) (hcomposes : Composes pieces composed)
    (hend : Begins close [.endTag name] after) :
    ∃ path node,
      (occurrences document.roots)[before.countP Token.isStart]? = some (path, node) ∧
      node.tag = String.ofList (Markup.tagName tag) ∧
      ('<' ∉ content → Markup.expand content = .ok composed) ∧
      (node.text.toList = composed ↔ ∀ piece ∈ pieces, piece.vanishes = false) := by
  have hread := readPieces_of_parse hparse
  obtain ⟨located, fuel, hlocated, -, hscan⟩ :=
    ((hstart.append hpieces).append hend).exists_scanFrom (le_refl _)
  -- the offsets of the pieces are taken apart like the pieces
  obtain ⟨opening, ending, rfl, hopening, hending⟩ := List.map_eq_append_iff.1 hlocated
  obtain ⟨opening, inside, rfl, hopening, hinside⟩ := List.map_eq_append_iff.1 hopening
  obtain ⟨earlier, opening, rfl, hearlier, hopening⟩ := List.map_eq_append_iff.1 hopening
  obtain ⟨⟨first, _⟩, rfl, rfl⟩ := List.map_eq_singleton_iff.1 hopening
  obtain ⟨⟨last, _⟩, rfl, rfl⟩ := List.map_eq_singleton_iff.1 hending
  subst hinside hearlier
  rw [Markup.scan, hscan] at hread
  simp only [List.append_assoc, List.singleton_append] at hread
  obtain ⟨node, hshown, htag, hiff⟩ := Elements.readPieces_element hread hcomposes
  have hnodes : Elements.shown ⟨[], document.roots⟩ =
      (occurrences document.roots).map (some ∘ Prod.snd) := by
    rw [← List.map_map, map_snd_occurrences, List.map_flatMap, Elements.shown]
    exact List.append_nil _
  rw [hnodes, List.getElem?_map, Option.map_eq_some_iff] at hshown
  obtain ⟨⟨path, found⟩, hoccurrence, heq⟩ := hshown
  obtain rfl : found = node := Option.some.inj heq
  rw [Elements.initial, Elements.shown, List.length_append] at hoccurrence
  refine ⟨path, found, ?_, htag, fun hmarkup => hpieces.expand_eq hmarkup hcomposes, hiff⟩
  simpa using hoccurrence

/-- A comparison with two of its characters written as references. -/
def comparison : List Char := "<record><constant>x &lt; y&#33;</constant></record>".toList

/-- The document of a comparison. -/
def comparisonDocument : Document :=
  .ofRoots "c.xml" [{ Node.ofTag "record" ⟨"c.xml", 1⟩ with
    children := [{ Node.ofTag "constant" ⟨"c.xml", 1⟩ with text := "x < y!" }] }]

/-- Its text is what it says, with the blanks around the reference. -/
theorem comparison_text_eq :
    Document.parse "c.xml" comparison = .ok comparisonDocument ∧
      ∃ path node, (occurrences comparisonDocument.roots)[1]? = some (path, node) ∧
        node.tag = "constant" ∧ Markup.expand "x &lt; y&#33;".toList = .ok "x < y!".toList ∧
        node.text.toList = "x < y!".toList := by
  have hparse : Document.parse "c.xml" comparison = .ok comparisonDocument := by rfl
  have hstart : Begins (dropByteOrderMark comparison)
      ([.startTag "record".toList] ++ [.startTag "constant".toList])
      ("x &lt; y&#33;".toList ++ "</constant></record>".toList) := .cons rfl (.cons rfl .nil)
  have hpieces : Begins ("x &lt; y&#33;".toList ++ "</constant></record>".toList)
      [.text "x ".toList, .reference "lt".toList, .text " y".toList, .reference "#33".toList]
      "</constant></record>".toList := .cons rfl (.cons rfl (.cons rfl (.cons rfl .nil)))
  have hcomposes : Composes
      [.text "x ".toList, .reference "lt".toList, .text " y".toList, .reference "#33".toList]
      "x < y!".toList := .text _ (.reference rfl (.text _ (.reference rfl .nil)))
  have hend : Begins "</constant></record>".toList [.endTag "constant".toList] "</record>".toList :=
    .cons rfl .nil
  obtain ⟨path, node, hoccurrence, htag, hexpand, hiff⟩ :=
    Document.text_eq_iff hparse hstart hpieces hcomposes hend
  exact ⟨hparse, path, node, hoccurrence, htag, hexpand (by decide), hiff.2 (by decide)⟩

/-- **A blank between two references is lost**: they compose `< >`, which is no blank text, and `<>`
is left. -/
theorem blank_between_references_lost :
    Document.parse "c.xml" "<constant>&lt; &gt;</constant>".toList =
        .ok (.ofRoots "c.xml" [{ Node.ofTag "constant" ⟨"c.xml", 1⟩ with text := "<>" }]) ∧
      Composes [.reference "lt".toList, .text [' '], .reference "gt".toList] "< >".toList ∧
      Markup.expand "&lt; &gt;".toList = .ok "< >".toList ∧
      Unicode.isBlankText "< >".toList = false :=
  ⟨by rfl, .reference rfl (.text _ (.reference rfl .nil)), by rfl, by decide⟩

end FixedWidth.Schema
