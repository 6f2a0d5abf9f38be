import FixedWidth.Proofs.Comments
import FixedWidth.Proofs.Maps
import FixedWidth.Proofs.Reports
import FixedWidth.Proofs.TypeNames

/-!
# Proofs/SchemaTexts — the texts of a table come from its schema

    node ──Walks──▸ entry ──Fills──▸ property, step, problem ──▸ comment

What a table shows in comments was taken from nodes of the registry: identifiers, references,
attribute values and the names of documents. On the way names get underscores, numbers and the
ending `Item`, but no line feed. So where the schema has none, neither have the comments
(`onOneLine_commentTexts`), and then they are contained (`commentsContained_iff`).
-/

namespace FixedWidth.Naming

open Emit (OnOneLine onOneLine_append)

variable {name : String}

theorem onOneLine_sanitize (h : OnOneLine name) : OnOneLine (sanitize name) := by
  have hchars : '\n' ∉ name.toList.map fun c => if isSeparator c then '_' else c := by
    intro hmem
    obtain ⟨c, hc, heq⟩ := List.mem_map.1 hmem
    split at heq
    · cases heq
    · exact h (heq ▸ hc)
  rw [sanitize]
  split
  · decide +kernel
  · rw [OnOneLine, String.toList_ofList]
    generalize name.toList.map (fun c => if isSeparator c then '_' else c) = chars at hchars
    fun_cases guardDigit chars with
    | case1 => exact List.not_mem_nil
    | case2 => simpa using hchars
    | case3 => exact hchars

theorem Scope.onOneLine_grant (scope : Scope) (h : OnOneLine name) :
    OnOneLine (scope.grant name) := by
  obtain heq | ⟨k, heq⟩ := scope.grant_eq name
  · rwa [heq]
  · rw [heq]
    exact notMem_numbered h (by decide) (by decide) k

end FixedWidth.Naming

namespace FixedWidth.Schema

open Emit (OnOneLine)

/-- The texts of a node: the name of its document, its identifiers and the values of its
attributes. -/
def Node.texts (node : Node) : List String :=
  node.place.source :: (node.id.toList ++ node.refId.toList ++ node.attributes.map Prod.snd)

/-- Whether no node of the registry has a text with a line feed. -/
def Registry.IsOnOneLine (registry : Registry) : Prop :=
  ∀ node ∈ (occurrences registry.roots).map Prod.snd, ∀ text ∈ node.texts, OnOneLine text

instance (registry : Registry) : Decidable registry.IsOnOneLine :=
  inferInstanceAs (Decidable (∀ node ∈ (occurrences registry.roots).map Prod.snd, _))

namespace Registry.IsOnOneLine

variable {registry : Registry} {node : Node} {text : String}

theorem source (h : registry.IsOnOneLine) (hn : registry.Holds node) :
    OnOneLine node.place.source :=
  h node hn.mem_occurrences _ List.mem_cons_self

theorem refId (h : registry.IsOnOneLine) (hn : registry.Holds node)
    (href : node.refId = some text) : OnOneLine text :=
  h node hn.mem_occurrences text (by simp [Node.texts, href])

theorem value {name : String} (h : registry.IsOnOneLine) (hn : registry.Holds node)
    (hattribute : node.attribute? name = some text) : OnOneLine text := by
  refine h node hn.mem_occurrences text (List.mem_cons_of_mem _ (List.mem_append_right _ ?_))
  exact List.mem_map.2 ⟨_, NameMap.mem_of_get? hattribute, rfl⟩

end Registry.IsOnOneLine

end FixedWidth.Schema

namespace FixedWidth.Table

open Emit (OnOneLine commentTexts declarationTexts onOneLine_append problemTexts stepTexts)
open Naming (sanitize onOneLine_sanitize)
open Schema (Node Provenance Registry)

variable {registry : Registry} {id inType : String} {node : Node} {entry : Entry}

/-! ## Entries -/

/-- The texts of an entry. -/
def Entry.texts : Entry → List String
  | .field name _ place => [name, place.source]
  | .constant _ _ | .padding _ => []
  | .badPadding value place => [value, place.source]
  | .group name node _ => [name, node.place.source]
  | .list name (.missing reference referencePlace) _ place =>
    [name, place.source, reference, referencePlace.source]
  | .list name _ _ place => [name, place.source]
  | .unresolved reference place | .cycle reference place => [reference, place.source]

/-- Whether no text of an entry has a line feed. -/
def Entry.IsOnOneLine (entry : Entry) : Prop := ∀ text ∈ entry.texts, OnOneLine text

theorem onOneLine_of_itemNode_error (h : registry.IsOnOneLine) {children : List Node}
    (hc : ∀ child ∈ children, registry.Holds child) {reference : String} {place : Provenance}
    (herror : itemNode registry children = .error (reference, place)) :
    OnOneLine reference ∧ OnOneLine place.source := by
  fun_induction itemNode registry children with
  | case1 | case2 | case4 => cases herror
  | case3 child rest _ _ _ ih | case6 child rest _ _ ih =>
    exact ih (fun node hmem => hc node (List.mem_cons_of_mem _ hmem)) herror
  | case5 child rest _ _ reference hreference _ =>
    cases herror
    have hchild := hc child List.mem_cons_self
    exact ⟨h.refId hchild hreference, h.source hchild⟩

theorem isOnOneLine_list (h : registry.IsOnOneLine) (hn : registry.Holds node) {name : String}
    (hname : node.dataName? = some name) (repetition : Repetition) :
    (Entry.list name (itemsOf registry name node) repetition node.place).IsOnOneLine := by
  have hlist : OnOneLine name ∧ OnOneLine node.place.source := ⟨h.value hn hname, h.source hn⟩
  rw [itemsOf]
  cases hitem : itemNode registry node.children with
  | error cause =>
    have herror := onOneLine_of_itemNode_error h (fun _ hc => hn.child hc) hitem
    simpa [Entry.IsOnOneLine, Entry.texts, and_assoc] using And.intro hlist herror
  | ok item =>
    rcases item with _ | item
    · simpa [Entry.IsOnOneLine, Entry.texts] using hlist
    · cases hitemName : item.dataName? <;>
        simpa [Entry.IsOnOneLine, Entry.texts, hitemName] using hlist

theorem isOnOneLine_of_mem_paddingEntries (h : registry.IsOnOneLine) (hn : registry.Holds node) :
    ∀ entry ∈ paddingEntries node, entry.IsOnOneLine := by
  rw [paddingEntries]
  cases hlength : node.length? with
  | none => exact List.forall_mem_nil _
  | some raw =>
    have hraw : OnOneLine raw ∧ OnOneLine node.place.source := ⟨h.value hn hlength, h.source hn⟩
    simp only
    split
    · exact List.forall_mem_nil _
    · simp [Entry.IsOnOneLine, Entry.texts]
    · simpa [Entry.IsOnOneLine, Entry.texts] using hraw

/-- **The entries of a held node have its texts.** -/
theorem isOnOneLine_of_partOf (h : registry.IsOnOneLine) (hn : registry.Holds node)
    {repetition : Option Repetition} {following : List Node} {list : List Entry}
    (hp : partOf registry repetition following node = .entries list) :
    ∀ entry ∈ list, entry.IsOnOneLine := by
  have hnamed {name : String} (hname : node.dataName? = some name) :
      OnOneLine name ∧ OnOneLine node.place.source := ⟨h.value hn hname, h.source hn⟩
  rw [partOf] at hp
  split at hp
  · split at hp <;> cases hp
    simpa [Entry.IsOnOneLine, Entry.texts] using hnamed ‹_›
  · split at hp <;> cases hp
    exact List.forall_mem_singleton.2 (isOnOneLine_list h hn ‹_› _)
  · split at hp <;> cases hp
    · simpa [Entry.IsOnOneLine, Entry.texts] using hnamed ‹_›
    · exact List.forall_mem_nil _
  · split at hp <;> cases hp
    exact List.forall_mem_nil _
  · split at hp <;> cases hp
    · simp [Entry.IsOnOneLine, Entry.texts]
    · exact List.forall_mem_nil _
  · cases hp
    exact isOnOneLine_of_mem_paddingEntries h hn
  · cases hp
    exact List.forall_mem_nil _
  · cases hp
  · cases hp

/-- **A walk through held nodes has entries with their texts.** -/
theorem Walks.isOnOneLine (h : registry.IsOnOneLine) {splicing : List String}
    {repetition : Option Repetition} {nodes : List Node} {entries : List Entry}
    (walk : Walks registry splicing repetition nodes entries)
    (hn : ∀ node ∈ nodes, registry.Holds node) : ∀ entry ∈ entries, entry.IsOnOneLine := by
  have hreference {node : Node} {reference : String} (hnode : registry.Holds node)
      (href : node.refId = some reference) : OnOneLine reference ∧ OnOneLine node.place.source :=
    ⟨h.refId hnode href, h.source hnode⟩
  refine walk.forall_of_parts hn (fun _ hnode _ hc => hnode.child hc)
    (fun _ _ hl => Registry.holds_of_lookup? hl)
    (fun _ _ _ _ hnode hp => isOnOneLine_of_partOf h hnode hp)
    (fun node reference hnode _ href => ?_) (fun node reference hnode _ href _ => ?_)
  · simpa [Entry.IsOnOneLine, Entry.texts] using hreference hnode href
  · simpa [Entry.IsOnOneLine, Entry.texts] using hreference hnode href

/-! ## Types -/

theorem IsTypeName.onOneLine (h : registry.IsOnOneLine) (hid : OnOneLine id) {name : String}
    (hname : IsTypeName registry id name) : OnOneLine name := by
  obtain rfl | ⟨node, dataName, hn, hd, rfl⟩ | ⟨node, dataName, hn, -, hd, rfl⟩ := hname
  · exact onOneLine_sanitize hid
  · exact onOneLine_sanitize (h.value hn hd)
  · exact onOneLine_append.2 ⟨onOneLine_sanitize (h.value hn hd), by decide +kernel⟩

/-- The reference that a marker shows. -/
def Step.marker? : Step → Option String
  | unresolved reference | cycle reference => some reference
  | _ => none

theorem PropertyKind.marker?_of_mem_stepsAt {kind : PropertyKind} {index : Nat} {step : Step}
    (h : step ∈ kind.stepsAt index) : step.marker? = none := by
  cases kind with
  | text layout =>
    obtain ⟨_, -, rfl⟩ := List.mem_map.1 h
    rfl
  | nested | list =>
    obtain rfl := List.mem_singleton.1 h
    rfl

/-- Whether no text of some members of a type has a line feed. -/
structure MembersOnOneLine (properties : List Property) (steps : List Step) : Prop where
  names : ∀ property ∈ properties, OnOneLine property.name
  sources : ∀ property ∈ properties, OnOneLine property.place.source
  markers : ∀ step ∈ steps, ∀ reference ∈ step.marker?, OnOneLine reference

theorem Entry.IsOnOneLine.member {type : TypeRef} {m : Member} (h : entry.IsOnOneLine)
    (hm : entry.member? type = some m) : OnOneLine m.base ∧ OnOneLine m.place.source := by
  cases entry with
  | field =>
    cases hm
    exact ⟨onOneLine_sanitize (h _ (by simp [texts])), h _ (by simp [texts])⟩
  | group _ _ repetition =>
    cases repetition <;> cases hm <;>
      exact ⟨onOneLine_sanitize (h _ (by simp [texts])), h _ (by simp [texts])⟩
  | list _ items =>
    cases items <;> cases hm <;>
      exact ⟨onOneLine_sanitize (h _ (by simp [texts])), h _ (by simp [texts])⟩
  | constant | padding | badPadding | unresolved | cycle => cases hm

theorem Entry.IsOnOneLine.bareStep {step : Step} (h : entry.IsOnOneLine)
    (hs : entry.bareStep? = some step) : ∀ reference ∈ step.marker?, OnOneLine reference := by
  cases entry with
  | list _ items =>
    cases items <;> cases hs
    rintro _ ⟨⟩
    exact h _ (by simp [texts])
  | unresolved | cycle =>
    cases hs
    rintro _ ⟨⟩
    exact h _ (by simp [texts])
  | constant | padding =>
    cases hs
    exact nofun
  | field | group | badPadding => cases hs

theorem Entry.IsOnOneLine.problem {problem : Diagnostic} (h : entry.IsOnOneLine)
    (hinType : OnOneLine inType) (hp : entry.problem? inType = some problem) :
    ∀ text ∈ problemTexts problem, OnOneLine text := by
  cases entry with
  | list _ items =>
    cases items <;> cases hp
    simp_all [problemTexts, IsOnOneLine, texts]
  | unresolved | cycle | badPadding =>
    cases hp
    simp_all [problemTexts, IsOnOneLine, texts]
  | field | group | constant | padding => cases hp

/-- **An entry adds no line feed to the members of a type.** -/
theorem MembersOnOneLine.addWith {body : Body} (h : MembersOnOneLine body.properties body.steps)
    (hentry : entry.IsOnOneLine) (type : TypeRef) (inType : String) :
    MembersOnOneLine (body.addWith type inType entry).properties
      (body.addWith type inType entry).steps := by
  rw [Body.properties_addWith, Body.steps_addWith]
  have hbare : ∀ step ∈ entry.bareStep?.toList, ∀ reference ∈ step.marker?, OnOneLine reference :=
    fun step hmem => hentry.bareStep (Option.mem_toList.1 hmem)
  cases hm : entry.member? type with
  | none =>
    simp only [Option.map_none, Option.toList_none, Option.getD_none, List.append_nil]
    exact ⟨h.names, h.sources, List.forall_mem_append.2 ⟨h.markers, hbare⟩⟩
  | some m =>
    obtain ⟨hbase, hsource⟩ := hentry.member hm
    simp only [Option.map_some, Option.toList_some, Option.getD_some]
    refine ⟨?_, ?_, ?_⟩
    · exact List.forall_mem_append.2
        ⟨h.names, List.forall_mem_singleton.2 (body.scope.onOneLine_grant hbase)⟩
    · exact List.forall_mem_append.2 ⟨h.sources, List.forall_mem_singleton.2 hsource⟩
    · refine List.forall_mem_append.2 ⟨List.forall_mem_append.2 ⟨h.markers, hbare⟩, ?_⟩
      intro step hmem reference href
      rw [PropertyKind.marker?_of_mem_stepsAt hmem] at href
      cases href

/-- What stands below a held node makes types of the forest, with the texts of the forest. -/
theorem Walks.ofHeld (h : registry.IsOnOneLine) (hnode : registry.Holds node)
    {splicing : List String} {repetition : Option Repetition} {entries : List Entry}
    (walk : Walks registry splicing repetition node.children entries) :
    ∀ entry ∈ entries, entry.FromForest registry id ∧ entry.IsOnOneLine :=
  fun entry hmem => ⟨walk.fromForest (fun _ hc => hnode.child hc) entry hmem,
    walk.isOnOneLine h (fun _ hc => hnode.child hc) entry hmem⟩

/-- **Type names, property names and references of a table have no line feed.** -/
theorem Compiles.membersOnOneLine (h : registry.IsOnOneLine) (hid : OnOneLine id)
    {table : TypeTable} (hrun : Compiles registry id table) : ∀ type ∈ table.types,
      (OnOneLine type.name ∧ OnOneLine type.place.source) ∧
        MembersOnOneLine type.properties type.steps := by
  have inv : Invariant registry
      (fun name node => IsTypeName registry id name ∧ registry.Holds node)
      (fun entry => entry.FromForest registry id ∧ entry.IsOnOneLine)
      (fun _ properties steps => MembersOnOneLine properties steps)
      (fun type => (OnOneLine type.name ∧ OnOneLine type.place.source) ∧
        MembersOnOneLine type.properties type.steps) := {
    request := fun _ name node hentry hr => hentry.1 name node hr
    walk := fun _ _ _ hnode walk => walk.ofHeld h hnode.2
    empty := ⟨nofun, nofun, nofun⟩
    add := fun type inType _ _ hentry hbody => hbody.addWith hentry.2 type inType
    type := fun _ _ _ _ _ hnode hbody => ⟨⟨hnode.1.onOneLine h hid, h.source hnode.2⟩, hbody⟩ }
  exact hrun.forall_types inv fun _ hl => ⟨.inl rfl, Registry.holds_of_lookup? hl⟩

/-! ## Problems -/

/-- Filling a type reports no problem with a line feed. -/
theorem Fills.problemsOnOneLine (h : registry.IsOnOneLine) (hid : OnOneLine id)
    {unfinished : List Nat} {body last : Body} {entries : List Entry}
    (fill : Fills registry unfinished inType body entries last) (hinType : OnOneLine inType)
    (hentries : ∀ entry ∈ entries, entry.FromForest registry id ∧ entry.IsOnOneLine)
    (hbody : ∀ problem ∈ body.draft.diagnostics, ∀ text ∈ problemTexts problem, OnOneLine text) :
    ∀ problem ∈ last.draft.diagnostics, ∀ text ∈ problemTexts problem, OnOneLine text := by
  have hadd {inType : String} {body : Body} {entry : Entry} (type : TypeRef)
      (hinType : OnOneLine inType) (hentry : entry.IsOnOneLine)
      (hbody : ∀ problem ∈ body.draft.diagnostics,
        ∀ text ∈ problemTexts problem, OnOneLine text) :
      ∀ problem ∈ (body.addWith type inType entry).draft.diagnostics,
        ∀ text ∈ problemTexts problem, OnOneLine text := by
    rw [Body.diagnostics_addWith, List.forall_mem_append]
    exact ⟨hbody, fun problem hp => hentry.problem hinType (Option.mem_toList.1 hp)⟩
  induction fill with
  | nil => exact hbody
  | plain _ _ ih | known _ _ _ ih =>
    rw [List.forall_mem_cons] at hentries
    exact ih hinType hentries.2 (hadd _ hinType hentries.1.2 hbody)
  | @fresh _ _ name node body inner _ _ _ _ request _ walk _ _ ihFill ih =>
    rw [List.forall_mem_cons] at hentries
    obtain ⟨hname, hnode⟩ := hentries.1.1 name node request
    have hinner : ∀ problem ∈ (body.resume inner).draft.diagnostics,
        ∀ text ∈ problemTexts problem, OnOneLine text :=
      ihFill (hname.onOneLine h hid) (walk.ofHeld h hnode) hbody
    exact ih hinType hentries.2 (hadd _ hinType hentries.1.2 hinner)

theorem Compiles.problemsOnOneLine (h : registry.IsOnOneLine) (hid : OnOneLine id)
    {table : TypeTable} (hrun : Compiles registry id table) :
    ∀ problem ∈ table.diagnostics, ∀ text ∈ problemTexts problem, OnOneLine text := by
  cases hrun with
  | missing => simpa [problemTexts] using hid
  | found root walk fill =>
    exact fill.problemsOnOneLine h hid (onOneLine_sanitize hid)
      (walk.ofHeld h (Registry.holds_of_lookup? root)) (List.forall_mem_nil _)

/-- **Where the schema has no line feed, neither have the comments.** -/
theorem onOneLine_commentTexts (h : registry.IsOnOneLine) (hid : OnOneLine id)
    (options : Emit.Options) :
    ∀ text ∈ commentTexts options (compile registry id), OnOneLine text := by
  have hrun := compiles_compile registry id
  rw [commentTexts, List.forall_mem_append, List.forall_mem_flatMap, List.forall_mem_flatMap]
  refine ⟨hrun.problemsOnOneLine h hid, fun type htype => ?_⟩
  obtain ⟨⟨hname, hsource⟩, hmembers⟩ := hrun.membersOnOneLine h hid type htype
  rw [List.forall_mem_append, List.forall_mem_flatMap]
  refine ⟨?_, fun step hstep => ?_⟩
  · rw [declarationTexts, List.forall_mem_cons]
    refine ⟨hname, ?_⟩
    split
    · exact List.forall_mem_cons.2 ⟨hsource, List.forall_mem_map.2 hmembers.sources⟩
    · exact List.forall_mem_nil _
  · cases step with
    | field | constant | padding | nested => exact List.forall_mem_nil _
    | unresolved | cycle =>
      exact List.forall_mem_singleton.2 (hmembers.markers _ hstep _ rfl)
    | list index =>
      simp only [stepTexts]
      split
      · rename_i hproperty
        exact List.forall_mem_singleton.2 (hmembers.names _ (List.mem_of_getElem? hproperty))
      · exact List.forall_mem_nil _

end FixedWidth.Table

namespace FixedWidth.Emit

open Schema (Document Node Registry)
open Table (TypeTable compile)

/-- **Comments hold no more than their texts.** The comments of the source of a table are contained
exactly if each text in them is on one line, and so they are where neither the schema nor the
requested identifier has a line feed. Where the comments of two tables are contained that are the
same but for texts, the sources have the same lines but for comments. -/
theorem commentsContained_iff (options : Options) :
    (∀ table, AllContained (sourceLines options table) ↔
        ∀ text ∈ commentTexts options table, OnOneLine text) ∧
      (∀ (registry : Registry) (id : String), registry.IsOnOneLine → OnOneLine id →
        AllContained (sourceLines options (compile registry id))) ∧
      ∀ table table', SameTable table table' → AllContained (sourceLines options table) →
        AllContained (sourceLines options table') →
        List.Forall₂ (fun line line' => line = line' ∨ IsCommentLine line ∧ IsCommentLine line')
          (textLines (source options table)) (textLines (source options table')) := by
  refine ⟨fun _ => allContained_sourceLines, fun registry id h hid => ?_,
    fun table table' hsame hcontained hcontained' => ?_⟩
  · exact allContained_sourceLines.2 (Table.onOneLine_commentTexts h hid options)
  · rw [source, source, textLines_render, textLines_render]
    exact List.rel_append (alike_pieces (alike_sourceLines hsame) hcontained hcontained')
      (.cons (.inl rfl) .nil)

/-- A document with nothing but a reference. -/
def danglingDocument (reference : String) : Document :=
  .ofRoots "t.xml" [{ Node.ofTag "fmtDef" ⟨"t.xml", 1⟩ with
    id := some "R"
    children := [{ Node.ofTag "refFmt" ⟨"t.xml", 2⟩ with refId := some reference }] }]

/-- The table of a root with nothing but a reference that leads nowhere. -/
def danglingTable (reference : String) : TypeTable where
  types := [⟨"R", [], [.unresolved reference], ⟨"t.xml", 1⟩⟩]
  root := some 0
  diagnostics := [.unresolvedReference reference "R" ⟨"t.xml", 2⟩]

theorem sameTable_danglingTable (reference reference' : String) :
    SameTable (danglingTable reference) (danglingTable reference') where
  identifiers index := by cases index <;> rfl
  types := .cons ⟨rfl, .nil, .cons (.unresolved _ _) .nil⟩ .nil
  diagnostics := rfl

/-- A reference with a line feed breaks out of each of its comments. -/
theorem danglingTable_escapes :
    (∃ document, Document.parse "t.xml"
        "<fmtDef id=\"R\">\n<refFmt refId=\"A&#10;B\"/></fmtDef>".toList = .ok document ∧
      compile (.ofDocuments [document]) "R" = danglingTable "A\nB") ∧
    ¬ AllContained (sourceLines .standard (danglingTable "A\nB")) ∧
    "B'".toList ∈ textLines (source .standard (danglingTable "A\nB")) ∧
    ¬ IsCommentLine "B'".toList ∧
    (textLines (source .standard (danglingTable "A\nB"))).length ≠
      (textLines (source .standard (danglingTable "AB"))).length := by
  have hparse : Document.parse "t.xml"
      "<fmtDef id=\"R\">\n<refFmt refId=\"A&#10;B\"/></fmtDef>".toList =
        .ok (danglingDocument "A\nB") := by
    rfl
  have hcompile :
      compile (.ofDocuments [danglingDocument "A\nB"]) "R" = danglingTable "A\nB" := by
    decide +kernel
  have hescapes : ¬ AllContained (sourceLines .standard (danglingTable "A\nB")) := by
    rw [allContained_sourceLines]
    decide +kernel
  refine ⟨⟨_, hparse, hcompile⟩, hescapes, ?_, by decide +kernel, ?_⟩
  · rw [source, textLines_render]
    decide +kernel
  · rw [source, source, textLines_render, textLines_render]
    decide +kernel

/-- Two references without line feeds change comments alone. -/
theorem danglingTable_contained :
    compile (.ofDocuments [danglingDocument "AB"]) "R" = danglingTable "AB" ∧
    compile (.ofDocuments [danglingDocument "C"]) "R" = danglingTable "C" ∧
    SameTable (danglingTable "AB") (danglingTable "C") ∧
    AllContained (sourceLines .standard (danglingTable "AB")) ∧
    AllContained (sourceLines .standard (danglingTable "C")) ∧
    List.Forall₂ (fun line line' => line = line' ∨ IsCommentLine line ∧ IsCommentLine line')
      (textLines (source .standard (danglingTable "AB")))
      (textLines (source .standard (danglingTable "C"))) := by
  have hfirst : compile (.ofDocuments [danglingDocument "AB"]) "R" = danglingTable "AB" := by
    decide +kernel
  have hsecond : compile (.ofDocuments [danglingDocument "C"]) "R" = danglingTable "C" := by
    decide +kernel
  obtain ⟨-, hregistry, hsource⟩ := commentsContained_iff .standard
  have hcontained := hregistry (.ofDocuments [danglingDocument "AB"]) "R" (by decide +kernel)
    (by decide +kernel)
  have hcontained' := hregistry (.ofDocuments [danglingDocument "C"]) "R" (by decide +kernel)
    (by decide +kernel)
  rw [hfirst] at hcontained
  rw [hsecond] at hcontained'
  have hsame := sameTable_danglingTable "AB" "C"
  exact ⟨hfirst, hsecond, hsame, hcontained, hcontained', hsource _ _ hsame hcontained hcontained'⟩

end FixedWidth.Emit
