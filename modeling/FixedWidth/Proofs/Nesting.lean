import FixedWidth.Proofs.Tags
import FixedWidth.Schema.Document
import Mathlib.Data.List.Forall2
import Mathlib.Data.List.Induction

/-!
# Proofs/Nesting — the forest that tags spell

    <any id="L"> <Decor/> <fInt> </fInt> </any> <Decor/>     any L ─┬─ Decor     Decor
                                                                    └─ fInt

    <any id="L"> <Decor/> <fInt>                             opened: fInt, any

`Spells` says which forest a list of tags stands for, and `LeavesOpen` which elements are still open
behind it, the innermost first. Reading keeps to both (`Spells.readTags`, `LeavesOpen.readTags`),
and every list of tags leaves elements open or has an end tag that fits none (`exists_answers`). So
what a text of tags is read as can be told from the tags alone (`parse_written_iff`).
-/

namespace FixedWidth.Schema

open Markup (Element Tag written placed)

/-! ## Nesting -/

/-- The node of an element that was written at a place. -/
def Node.ofElement (element : Element) (place : Provenance) (children : List Node) : Node where
  tag := element.name
  id := element.attributes.lookup "id"
  refId := element.attributes.lookup "refId"
  attributes := NameMap.ofList
    (element.attributes.filter fun entry => entry.1 ≠ "id" ∧ entry.1 ≠ "refId")
  text := ""
  children := children
  place := place

/-- **The forest that tags spell.** The tags come with their lines. -/
inductive Spells (source : String) : List (Nat × Tag) → List Node → Prop where
  | nil : Spells source [] []
  | empty {element : Element} {rest : List (Nat × Tag)} {forest : List Node} (line : Nat)
      (others : Spells source rest forest) :
      Spells source ((line, .empty element) :: rest)
        (.ofElement element ⟨source, line⟩ [] :: forest)
  | element {element : Element} {inner rest : List (Nat × Tag)} {children forest : List Node}
      (line line' : Nat) (inside : Spells source inner children)
      (others : Spells source rest forest) :
      Spells source ((line, .start element) :: (inner ++ (line', .finish element.name) :: rest))
        (.ofElement element ⟨source, line⟩ children :: forest)

/-- **The elements that tags leave open**, each with its line, the innermost first. -/
inductive LeavesOpen (source : String) : List (Nat × Tag) → List (Nat × Element) → Prop where
  | balanced {tags : List (Nat × Tag)} {forest : List Node} (spells : Spells source tags forest) :
      LeavesOpen source tags []
  | start {element : Element} {before inner : List (Nat × Tag)} {children : List Node}
      {opened : List (Nat × Element)} (line : Nat) (outer : LeavesOpen source before opened)
      (inside : Spells source inner children) :
      LeavesOpen source (before ++ (line, .start element) :: inner) ((line, element) :: opened)

/-- **What tags are read as.** -/
inductive Answers (source : String) : List (Nat × Tag) → Except ParseError Document → Prop where
  | endMismatch {before after : List (Nat × Tag)} {element : Element} {name : String}
      {opened : List (Nat × Element)} {line : Nat} (line' : Nat)
      (leaves : LeavesOpen source before ((line, element) :: opened))
      (differs : element.name ≠ name) :
      Answers source (before ++ (line', .finish name) :: after)
        (.error (.markup (.markup (.endMismatch element.name name))))
  | endWithoutStart {before after : List (Nat × Tag)} {name : String} (line : Nat)
      (leaves : LeavesOpen source before []) :
      Answers source (before ++ (line, .finish name) :: after)
        (.error (.markup (.markup (.endWithoutStart name))))
  | unbalanced {tags : List (Nat × Tag)} {element : Element} {opened : List (Nat × Element)}
      {line : Nat} (leaves : LeavesOpen source tags ((line, element) :: opened)) :
      Answers source tags (.error (.unbalanced element.name source line))
  | empty : Answers source [] (.error (.empty source))
  | forest {tags : List (Nat × Tag)} {forest : List Node} (spells : Spells source tags forest)
      (nonempty : tags ≠ []) :
      Answers source tags (.ok (.ofRoots source forest))

/-! ## Reading tags -/

namespace Elements

/-- Adds one tag. -/
def readTag (elements : Elements) (place : Provenance) : Tag → Except Markup.MarkupError Elements
  | .start element =>
    .ok { elements with opened := .ofElement element place [] :: elements.opened }
  | .empty element => .ok (elements.attach (.ofElement element place []))
  | .finish name =>
    match elements.opened with
    | [] => .error (.markup (.endWithoutStart name))
    | top :: rest =>
      if top.tag = name then .ok ({ elements with opened := rest }.attach top)
      else .error (.markup (.endMismatch top.tag name))

/-- Adds tags, each with its line. -/
def readTags (source : String) (elements : Elements) (tags : List (Nat × Tag)) :
    Except Markup.MarkupError Elements :=
  tags.foldlM (fun elements tag => elements.readTag ⟨source, tag.1⟩ tag.2) elements

/-- Puts finished elements where the next ones belong. -/
def attachAll (elements : Elements) (forest : List Node) : Elements :=
  forest.foldl Elements.attach elements

end Elements

/-! ## Start tags -/

/-- Where no key comes twice, each attribute is set once. -/
theorem foldl_setAttribute {entries : List (String × String)}
    (hnodup : (entries.map Prod.fst).Nodup) (node : Node) :
    entries.foldl (fun node entry => node.setAttribute entry.1 entry.2) node =
      { node with
        id := (entries.lookup "id").or node.id
        refId := (entries.lookup "refId").or node.refId
        attributes := (entries.filter fun entry => entry.1 ≠ "id" ∧ entry.1 ≠ "refId").foldl
          (fun map entry => NameMap.insert map entry.1 entry.2) node.attributes } := by
  induction entries generalizing node with
  | nil =>
    cases node
    simp
  | cons entry entries ih =>
    obtain ⟨key, value⟩ := entry
    rw [List.map_cons, List.nodup_cons] at hnodup
    have hkey : entries.lookup key = none := by
      rw [List.lookup_eq_none_iff]
      rintro other hmem
      rw [bne_iff_ne]
      exact fun heq => hnodup.1 (List.mem_map.2 ⟨other, hmem, heq.symm⟩)
    have hlookup (name : String) : ((key, value) :: entries).lookup name =
        if name = key then some value else entries.lookup name := by
      rw [List.lookup_cons]
      split <;> simp_all
    rw [List.foldl_cons, ih hnodup.2, Node.setAttribute, hlookup, hlookup]
    split
    · rename_i hid
      cases hid
      simp [hkey]
    · split
      · rename_i hrefId
        cases hrefId
        simp [hkey]
      · rename_i hid hrefId
        simp [Ne.symm hid, Ne.symm hrefId, hid, hrefId]

theorem foldlM_eq_ok {α β ε : Type} {f : β → α → Except ε β} {g : β → α → β}
    (h : ∀ state item, f state item = .ok (g state item)) (items : List α) (state : β) :
    items.foldlM f state = .ok (items.foldl g state) := by
  induction items generalizing state with
  | nil => rfl
  | cons item items ih =>
    rw [List.foldlM_cons, h, List.foldl_cons]
    exact ih _

/-- **A start tag is read back** as the node of its element. -/
theorem ofStartTag_content {element : Element} (h : element.Plain) (place : Provenance) :
    Elements.ofStartTag place element.content = .ok (.ofElement element place []) := by
  rw [Elements.ofStartTag, Markup.tagAttributes_content h, Markup.tagName_content h,
    List.foldlM_map, foldlM_eq_ok (g := fun node entry => node.setAttribute entry.1 entry.2),
    foldl_setAttribute h.keys_nodup, String.ofList_toList]
  · simp [Node.ofElement, Node.ofTag, NameMap.ofList]
  · intro node entry
    simp [Markup.expand_escaped]

namespace Elements

theorem step_token {tag : Tag} (h : tag.Plain) (elements : Elements) (place : Provenance) :
    elements.step place tag.token = elements.readTag place tag := by
  cases tag with
  | start element =>
    simp only [Tag.token, step, ofStartTag_content h]
    rfl
  | empty element =>
    simp only [Tag.token, step, ofStartTag_content h]
    rfl
  | finish name =>
    cases hopened : elements.opened <;>
      simp [Tag.token, step, readTag, String.ofList_toList, hopened]

theorem foldlM_token (source : String) {tags : List (Nat × Tag)}
    (h : ∀ tag ∈ tags, tag.2.Plain) (elements : Elements) :
    tags.foldlM (fun elements tag => elements.step ⟨source, tag.1⟩ tag.2.token) elements =
      elements.readTags source tags := by
  induction tags generalizing elements with
  | nil => rfl
  | cons tag tags ih =>
    obtain ⟨htag, htags⟩ := List.forall_mem_cons.1 h
    rw [readTags, List.foldlM_cons, List.foldlM_cons, step_token htag]
    exact bind_congr (ih htags)

end Elements

theorem plain_of_mem_placed {tags : List Tag} (h : ∀ tag ∈ tags, tag.Plain) {line : Nat} :
    ∀ tag ∈ placed line tags, tag.2.Plain := by
  induction tags generalizing line with
  | nil => exact fun _ hmem => nomatch hmem
  | cons tag tags ih =>
    obtain ⟨htag, htags⟩ := List.forall_mem_cons.1 h
    exact List.forall_mem_cons.2 ⟨htag, ih htags⟩

/-- **A text of tags is read tag by tag.** -/
theorem readElements_written (source : String) {tags : List Tag} (h : ∀ tag ∈ tags, tag.Plain) :
    readElements source (written tags) = Elements.initial.readTags source (placed 1 tags) := by
  have hmark : dropByteOrderMark (written tags) = written tags := by
    cases tags with
    | nil => rfl
    | cons tag tags =>
      obtain ⟨text, htext⟩ := tag.exists_write_eq_cons
      rw [Markup.written_cons, htext, List.cons_append]
      rfl
  have hpieces : (Markup.located 0 tags).foldlM (fun elements piece => Elements.step elements
      ⟨source, (Text.LineIndex.ofText (written tags)).lineAt piece.1⟩ piece.2) Elements.initial =
        Elements.initial.readTags source (placed 1 tags) := by
    have hlines := congrArg (List.foldlM (fun elements piece =>
      Elements.step elements ⟨source, piece.1⟩ piece.2) Elements.initial)
      (Markup.map_lineAt_located [] tags)
    rw [List.foldlM_map, List.foldlM_map] at hlines
    exact hlines.trans (Elements.foldlM_token source (plain_of_mem_placed h) _)
  rw [readElements, hmark, Markup.scan_written h]
  simp only
  rw [hpieces]
  cases Elements.initial.readTags source (placed 1 tags) <;> rfl

/-! ## Nesting is read -/

namespace Elements

variable {source : String} {tags tags' : List (Nat × Tag)} {forest forest' : List Node}

theorem readTags_append (elements : Elements) :
    elements.readTags source (tags ++ tags') =
      elements.readTags source tags >>= fun elements => elements.readTags source tags' :=
  List.foldlM_append

theorem attachAll_of_opened (node : Node) (opened roots forest : List Node) :
    attachAll ⟨node :: opened, roots⟩ forest =
      ⟨{ node with children := node.children ++ forest } :: opened, roots⟩ := by
  induction forest generalizing node with
  | nil =>
    cases node
    simp [attachAll]
  | cons child forest ih =>
    have hattach : attach ⟨node :: opened, roots⟩ child = ⟨node.addChild child :: opened, roots⟩ :=
      rfl
    rw [attachAll, List.foldl_cons, hattach]
    refine (ih _).trans ?_
    simp [Node.addChild]

theorem attachAll_nil_opened (roots forest : List Node) :
    attachAll ⟨[], roots⟩ forest = ⟨[], roots ++ forest⟩ := by
  induction forest generalizing roots with
  | nil => simp [attachAll]
  | cons root forest ih =>
    have hattach : attach ⟨[], roots⟩ root = ⟨[], roots ++ [root]⟩ := rfl
    rw [attachAll, List.foldl_cons, hattach]
    refine (ih _).trans ?_
    simp

end Elements

/-- **Tags that spell a forest are read as that forest.** -/
theorem Spells.readTags {source : String} {tags : List (Nat × Tag)} {forest : List Node}
    (h : Spells source tags forest) (elements : Elements) :
    elements.readTags source tags = .ok (elements.attachAll forest) := by
  induction h generalizing elements with
  | nil => rfl
  | empty line _ ih => exact ih _
  | @element element inner rest children forest line line' _ _ ihInside ihOthers =>
    have hstart : elements.readTag ⟨source, line⟩ (.start element) =
        .ok ⟨.ofElement element ⟨source, line⟩ [] :: elements.opened, elements.roots⟩ := rfl
    have hfinish : Elements.readTag
        ⟨.ofElement element ⟨source, line⟩ children :: elements.opened, elements.roots⟩
        ⟨source, line'⟩ (.finish element.name) =
          .ok (elements.attach (.ofElement element ⟨source, line⟩ children)) := if_pos rfl
    calc elements.readTags source
          ((line, .start element) :: (inner ++ (line', .finish element.name) :: rest))
      _ = Elements.readTags source
            ⟨.ofElement element ⟨source, line⟩ [] :: elements.opened, elements.roots⟩
            (inner ++ (line', .finish element.name) :: rest) := by
          rw [Elements.readTags, List.foldlM_cons, hstart]
          rfl
      _ = Elements.readTags source
            ⟨.ofElement element ⟨source, line⟩ children :: elements.opened, elements.roots⟩
            ((line', .finish element.name) :: rest) := by
          rw [Elements.readTags_append, ihInside, Elements.attachAll_of_opened]
          rfl
      _ = (elements.attach (.ofElement element ⟨source, line⟩ children)).readTags source rest := by
          rw [Elements.readTags, List.foldlM_cons, hfinish]
          rfl
      _ = .ok (elements.attachAll (.ofElement element ⟨source, line⟩ children :: forest)) :=
          ihOthers _

/-- **The elements that tags leave open are open behind them.** -/
theorem LeavesOpen.readTags {source : String} {tags : List (Nat × Tag)}
    {opened : List (Nat × Element)} (h : LeavesOpen source tags opened) :
    ∃ elements, Elements.initial.readTags source tags = .ok elements ∧
      List.Forall₂ (fun entry node => ∃ children,
        node = Node.ofElement entry.2 ⟨source, entry.1⟩ children) opened elements.opened := by
  induction h with
  | balanced spells =>
    refine ⟨_, spells.readTags _, ?_⟩
    exact Elements.attachAll_nil_opened [] _ ▸ .nil
  | @start element before inner children opened line _ inside ih =>
    obtain ⟨elements, hread, hopened⟩ := ih
    refine ⟨⟨.ofElement element ⟨source, line⟩ children :: elements.opened, elements.roots⟩, ?_,
      .cons ⟨children, rfl⟩ hopened⟩
    rw [Elements.readTags_append, hread]
    exact (inside.readTags _).trans (by rw [Elements.attachAll_of_opened]; rfl)

/-! ## Every list of tags is read -/

theorem Spells.append {source : String} {tags tags' : List (Nat × Tag)} {forest forest' : List Node}
    (h : Spells source tags forest) (h' : Spells source tags' forest') :
    Spells source (tags ++ tags') (forest ++ forest') := by
  induction h with
  | nil => exact h'
  | empty line _ ih => exact .empty line ih
  | element line line' inside _ _ ih =>
    rw [List.cons_append, List.append_assoc]
    exact .element line line' inside ih

theorem LeavesOpen.append {source : String} {tags tags' : List (Nat × Tag)}
    {opened : List (Nat × Element)} {forest : List Node} (h : LeavesOpen source tags opened)
    (h' : Spells source tags' forest) : LeavesOpen source (tags ++ tags') opened := by
  cases h with
  | balanced spells => exact .balanced (spells.append h')
  | start line outer inside =>
    rw [List.append_assoc]
    exact .start line outer (inside.append h')

/-- An end tag behind some tags that does not close the innermost open element. -/
inductive Fails (source : String) : List (Nat × Tag) → Prop where
  | intro {before after : List (Nat × Tag)} {opened : List (Nat × Element)} {name : String}
      (line : Nat) (leaves : LeavesOpen source before opened)
      (differs : ∀ entry ∈ opened.head?, entry.2.name ≠ name) :
      Fails source (before ++ (line, .finish name) :: after)

theorem fails_or_leavesOpen (source : String) (tags : List (Nat × Tag)) :
    Fails source tags ∨ ∃ opened, LeavesOpen source tags opened := by
  induction tags using List.reverseRecOn with
  | nil => exact .inr ⟨[], .balanced .nil⟩
  | append_singleton tags tag ih =>
    obtain ⟨line, tag⟩ := tag
    obtain ⟨line', leaves, differs⟩ | ⟨opened, leaves⟩ := ih
    · rw [List.append_assoc]
      exact .inl ⟨line', leaves, differs⟩
    · cases tag with
      | start element => exact .inr ⟨_, .start line leaves .nil⟩
      | empty element => exact .inr ⟨_, leaves.append (.empty line .nil)⟩
      | finish name =>
        cases leaves with
        | balanced spells => exact .inl (.intro line (.balanced spells) nofun)
        | @start element before inner children opened line' outer inside =>
          by_cases hname : element.name = name
          · subst hname
            rw [List.append_assoc]
            exact .inr ⟨_, outer.append (.element line' line inside .nil)⟩
          · refine .inl (.intro line (.start line' outer inside) ?_)
            rintro _ ⟨⟩
            exact hname

/-- **There is an answer to every list of tags.** -/
theorem exists_answers (source : String) (tags : List (Nat × Tag)) :
    ∃ answer, Answers source tags answer := by
  obtain ⟨line, leaves, differs⟩ | ⟨_ | ⟨entry, opened⟩, leaves⟩ := fails_or_leavesOpen source tags
  · rename_i opened _
    cases opened with
    | nil => exact ⟨_, .endWithoutStart line leaves⟩
    | cons entry opened => exact ⟨_, .endMismatch line leaves (differs entry rfl)⟩
  · cases leaves with
    | balanced spells =>
      rcases eq_or_ne tags [] with rfl | hne
      · exact ⟨_, .empty⟩
      · exact ⟨_, .forest spells hne⟩
  · exact ⟨_, .unbalanced leaves⟩

/-! ## Answers -/

/-- The document of what was read. -/
def conclude (source : String) : Except Markup.MarkupError Elements → Except ParseError Document
  | .error cause => .error (.markup cause)
  | .ok elements =>
    match elements.opened with
    | top :: _ => .error (.unbalanced top.tag source top.place.line)
    | [] =>
      if elements.roots.isEmpty then .error (.empty source)
      else .ok (.ofRoots source elements.roots)

theorem parse_eq_conclude (source : String) (text : List Char) :
    Document.parse source text = conclude source (readElements source text) := by
  rw [Document.parse]
  rcases readElements source text with cause | ⟨_ | ⟨top, opened⟩, roots⟩ <;> rfl

theorem Spells.forest_ne_nil {source : String} {tags : List (Nat × Tag)} {forest : List Node}
    (h : Spells source tags forest) (nonempty : tags ≠ []) : forest ≠ [] := by
  cases h with
  | nil => exact absurd rfl nonempty
  | empty | element => exact List.cons_ne_nil _ _

/-- An end tag that does not close the innermost open element is where reading ends. -/
theorem readTags_finish {source name : String} {before after : List (Nat × Tag)} {line : Nat}
    {elements : Elements} {cause : Markup.MarkupError}
    (hbefore : Elements.initial.readTags source before = .ok elements)
    (hfinish : elements.readTag ⟨source, line⟩ (.finish name) = .error cause) :
    Elements.initial.readTags source (before ++ (line, .finish name) :: after) = .error cause := by
  have hcons : elements.readTags source ((line, .finish name) :: after) = .error cause := by
    rw [Elements.readTags, List.foldlM_cons, hfinish]
    rfl
  rw [Elements.readTags_append, hbefore]
  exact hcons

/-- **Answers are right.** -/
theorem Answers.conclude_eq {source : String} {tags : List (Nat × Tag)}
    {answer : Except ParseError Document} (h : Answers source tags answer) :
    conclude source (Elements.initial.readTags source tags) = answer := by
  cases h with
  | @endMismatch before after element name opened line line' leaves differs =>
    obtain ⟨⟨_, roots⟩, hread, _ | ⟨⟨children, rfl⟩, _⟩⟩ := leaves.readTags
    rw [readTags_finish hread (if_neg differs)]
    rfl
  | @endWithoutStart before after name line leaves =>
    obtain ⟨⟨_, roots⟩, hread, _ | _⟩ := leaves.readTags
    rw [readTags_finish hread rfl]
    rfl
  | unbalanced leaves =>
    obtain ⟨⟨_, roots⟩, hread, _ | ⟨⟨children, rfl⟩, _⟩⟩ := leaves.readTags
    rw [hread]
    rfl
  | empty => rfl
  | @forest _ forest spells nonempty =>
    have hforest : forest.isEmpty = false :=
      List.isEmpty_eq_false_iff.2 (spells.forest_ne_nil nonempty)
    have hread : Elements.initial.readTags source tags = .ok ⟨[], forest⟩ :=
      (spells.readTags _).trans (congrArg Except.ok (Elements.attachAll_nil_opened [] forest))
    rw [hread, conclude]
    simp only [hforest, Bool.false_eq_true, if_false]

/-- An empty tag is read like its two parts. -/
theorem readTags_unfold (source : String) {tags : List Tag} (h : ∀ tag ∈ tags, tag.Plain)
    (elements : Elements) (line : Nat) :
    elements.readTags source (placed line (tags.flatMap Tag.unfold)) =
      elements.readTags source (placed line tags) := by
  induction tags generalizing elements line with
  | nil => rfl
  | cons tag tags ih =>
    obtain ⟨htag, htags⟩ := List.forall_mem_cons.1 h
    rw [List.flatMap_cons]
    cases tag with
    | start | finish =>
      rw [Tag.unfold, List.singleton_append, placed, placed, Elements.readTags, Elements.readTags,
        List.foldlM_cons, List.foldlM_cons]
      exact bind_congr fun elements => ih htags elements _
    | empty element =>
      have hlines : placed line ((Tag.empty element).unfold ++ tags.flatMap Tag.unfold) =
          [(line, .start element),
              (line + (Tag.start element).write.count '\n', .finish element.name)]
            ++ placed (line + (Tag.empty element).write.count '\n')
              (tags.flatMap Tag.unfold) := by
        rw [← Tag.count_unfold htag, ← Nat.add_assoc]
        rfl
      have hpart : elements.readTags source [(line, .start element),
          (line + (Tag.start element).write.count '\n', .finish element.name)] =
            .ok (elements.attach (.ofElement element ⟨source, line⟩ [])) :=
        (Spells.element line _ .nil .nil).readTags elements
      calc elements.readTags source
            (placed line ((Tag.empty element).unfold ++ tags.flatMap Tag.unfold))
        _ = (elements.attach (.ofElement element ⟨source, line⟩ [])).readTags source
              (placed (line + (Tag.empty element).write.count '\n') (tags.flatMap Tag.unfold)) := by
            rw [hlines, Elements.readTags_append, hpart]
            rfl
        _ = (elements.attach (.ofElement element ⟨source, line⟩ [])).readTags source
              (placed (line + (Tag.empty element).write.count '\n') tags) := ih htags _ _
        _ = elements.readTags source (placed line (.empty element :: tags)) := rfl

/-- **What a text of tags is read as** can be told from the tags: an end tag that does not close the
innermost open element is a fault of the markup, elements that stay open are unbalanced, without
tags there is no document, and all other texts are the forest that the tags spell. An empty tag
means the same as its two parts. -/
theorem parse_written_iff (source : String) {tags : List Tag} (h : ∀ tag ∈ tags, tag.Plain) :
    (∀ answer, Document.parse source (written tags) = answer ↔
        Answers source (placed 1 tags) answer) ∧
      Document.parse source (written (tags.flatMap Tag.unfold)) =
        Document.parse source (written tags) := by
  have hunfold : ∀ tag ∈ tags.flatMap Tag.unfold, tag.Plain :=
    List.forall_mem_flatMap.2 fun tag hmem => Tag.plain_of_mem_unfold (h tag hmem)
  have hparse := parse_eq_conclude source (written tags)
  rw [readElements_written source h] at hparse
  refine ⟨fun answer => ⟨?_, fun hanswer => hparse.trans hanswer.conclude_eq⟩, ?_⟩
  · rintro rfl
    obtain ⟨answer, hanswer⟩ := exists_answers source (placed 1 tags)
    rwa [hparse, hanswer.conclude_eq]
  · rw [hparse, parse_eq_conclude, readElements_written source hunfold, readTags_unfold source h]

/-- A list with one field in it. -/
def listTags : List Tag :=
  [.start ⟨"any", [("times", "<3>"), ("id", "L")]⟩, .empty ⟨"fInt", []⟩, .finish "any"]

/-- The node of the list, with the node of the field inside. -/
def listNode : Node :=
  .ofElement ⟨"any", [("times", "<3>"), ("id", "L")]⟩ ⟨"l.xml", 1⟩
    [.ofElement ⟨"fInt", []⟩ ⟨"l.xml", 1⟩ []]

/-- The list is read as its node, however its field is written. -/
theorem listTags_spell :
    (∀ tag ∈ listTags, tag.Plain) ∧
      written listTags = "<any times=\"&lt;3&gt;\" id=\"L\"><fInt/></any>".toList ∧
      Document.parse "l.xml" (written listTags) = .ok (.ofRoots "l.xml" [listNode]) ∧
      Document.parse "l.xml" (written (listTags.flatMap Tag.unfold)) =
        Document.parse "l.xml" (written listTags) := by
  have hany : Markup.IsWord "any" := by decide +kernel
  have hplain : ∀ tag ∈ listTags, tag.Plain := by
    rw [listTags, List.forall_mem_cons, List.forall_mem_cons, List.forall_mem_singleton]
    exact ⟨⟨hany, by decide +kernel, by decide +kernel⟩, ⟨by decide +kernel, nofun, .nil⟩, hany⟩
  have hspells : Spells "l.xml" (placed 1 listTags) [listNode] := .element 1 1 (.empty 1 .nil) .nil
  obtain ⟨hparse, hunfold⟩ := parse_written_iff "l.xml" hplain
  exact ⟨hplain, by rfl, (hparse _).2 (.forest hspells (List.cons_ne_nil _ _)), hunfold⟩

end FixedWidth.Schema
