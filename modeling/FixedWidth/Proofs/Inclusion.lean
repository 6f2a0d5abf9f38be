import FixedWidth.Proofs.Bodies
import FixedWidth.Proofs.Identifiers

/-!
# Proofs/Inclusion — which references are cycles

    reference ──index──▸ path of a node ──▸ open already: a cycle
                                        ──▸ else: its children, with the path open

A reference is a cycle if it leads to a node whose inclusion is open. `Includes` says so of the
nodes of the forest, by their paths, while `Walks` compares identifiers. Where the index follows the
nodes, each path has one identifier, and the two come to the same (`Walks.iff_includes`), with one
exception: the identifier of a body may have gone to a later node, and a reference to that node is
taken for a cycle nonetheless. `Registry.lostId?` is that identifier, and `compile_includedBy` the
whole law with its exception; `reused_not_includedBy` shows a type that loses a field to it.
-/

namespace FixedWidth.Schema

namespace Registry

/-- The path of the node with an identifier. -/
def pathOf? (registry : Registry) (id : String) : Option Path := NameMap.get? registry.index.ids id

/-- The identifier of the node at a path, if it names another node. -/
def lostId? (registry : Registry) (path : Path) : Option String :=
  ((registry.resolve? path).bind (·.id)).filter fun id => registry.pathOf? id ≠ some path

variable {registry : Registry} {path : Path} {node : Node} {id : String}

theorem lostId?_eq_some_iff (h : registry.resolve? path = some node) :
    registry.lostId? path = some id ↔ node.id = some id ∧ registry.pathOf? id ≠ some path := by
  rw [lostId?, h, Option.bind_some, Option.filter_eq_some_iff, decide_eq_true_eq]

end Registry

variable {registry : Registry} {path : Path} {node : Node} {id other : String}

/-- The node at the path of an identifier carries it. -/
theorem IdIndex.Follows.id_of_pathOf? (h : registry.index.Follows registry.roots)
    (hpath : registry.pathOf? id = some path) (hresolve : registry.resolve? path = some node) :
    node.id = some id := by
  obtain ⟨carrier, hcarrier, hid⟩ := h.exists_of_get? hpath
  cases hcarrier.symm.trans hresolve
  exact hid

/-- **A path has one identifier.** -/
theorem IdIndex.Follows.pathOf?_inj (h : registry.index.Follows registry.roots)
    (hpath : registry.pathOf? id = some path) (hother : registry.pathOf? other = some path) :
    id = other := by
  obtain ⟨node, hresolve, hid⟩ := h.exists_of_get? hpath
  exact Option.some.inj (hid.symm.trans (h.id_of_pathOf? hother hresolve))

/-- An identifier that has a path leads to a node. -/
theorem IdIndex.Follows.lookup?_eq_none_iff (h : registry.index.Follows registry.roots) :
    registry.lookup? id = none ↔ registry.pathOf? id = none := by
  have hcontains : (registry.pathOf? id).isSome ↔ (registry.lookup? id).isSome :=
    (h.lastWins id).contains_iff
  rw [← Option.not_isSome_iff_eq_none, ← Option.not_isSome_iff_eq_none, hcontains]

/-- An identifier that a node carries has a path. -/
theorem IdIndex.Follows.isSome_pathOf? (h : registry.index.Follows registry.roots)
    (hresolve : registry.resolve? path = some node) (hid : node.id = some id) :
    (registry.pathOf? id).isSome :=
  (h.lastWins id).contains_iff.2 ((h.lastWins id).isSome_iff.2 ⟨path, node, hresolve, hid⟩)

end FixedWidth.Schema

namespace FixedWidth.Table

open Schema (Document Node Path Registry)

/-! ## The law of inclusion -/

/-- **The inclusion of siblings**, where `opened` holds the paths of the nodes whose inclusion is
open. A reference to one of them is a cycle, and any other one that leads somewhere includes the
children of the node it leads to. References to the identifier `lost` are cycles as well. -/
inductive Includes (registry : Registry) (lost : Option String) :
    List Path → Option Repetition → List Node → List Entry → Prop
  | nil {opened : List Path} {repetition : Option Repetition} :
    Includes registry lost opened repetition [] []
  | entries {opened : List Path} {repetition : Option Repetition} {node : Node}
      {rest : List Node} {list more : List Entry}
      (part : partOf registry repetition rest node = .entries list)
      (tail : Includes registry lost opened repetition rest more) :
    Includes registry lost opened repetition (node :: rest) (list ++ more)
  | opened {opened : List Path} {repetition inner : Option Repetition} {node : Node}
      {rest : List Node} {list more : List Entry}
      (part : partOf registry repetition rest node = .opened inner)
      (body : Includes registry lost opened inner node.children list)
      (tail : Includes registry lost opened repetition rest more) :
    Includes registry lost opened repetition (node :: rest) (list ++ more)
  | cycle {opened : List Path} {repetition : Option Repetition} {node : Node}
      {rest : List Node} {reference : String} {path : Path} {more : List Entry}
      (part : partOf registry repetition rest node = .spliced reference)
      (leads : registry.pathOf? reference = some path)
      (isOpen : path ∈ opened ∨ lost = some reference)
      (tail : Includes registry lost opened repetition rest more) :
    Includes registry lost opened repetition (node :: rest) (.cycle reference node.place :: more)
  | unresolved {opened : List Path} {repetition : Option Repetition} {node : Node}
      {rest : List Node} {reference : String} {more : List Entry}
      (part : partOf registry repetition rest node = .spliced reference)
      (missing : registry.pathOf? reference = none)
      (tail : Includes registry lost opened repetition rest more) :
    Includes registry lost opened repetition (node :: rest)
      (.unresolved reference node.place :: more)
  | spliced {opened : List Path} {repetition : Option Repetition} {node target : Node}
      {rest : List Node} {reference : String} {path : Path} {list more : List Entry}
      (part : partOf registry repetition rest node = .spliced reference)
      (leads : registry.pathOf? reference = some path)
      (found : registry.resolve? path = some target)
      (isNew : path ∉ opened) (kept : lost ≠ some reference)
      (body : Includes registry lost (path :: opened) (transparentRepetition target repetition)
        target.children list)
      (tail : Includes registry lost opened repetition rest more) :
    Includes registry lost opened repetition (node :: rest) (list ++ more)

variable {registry : Registry} {lost : Option String} {splicing : List String}
  {opened : List Path} {repetition : Option Repetition} {nodes : List Node} {path : Path}
  {node : Node} {entries : List Entry} {reference : String}

/-- **What is being replaced, by identifiers and by paths**: the identifiers are those of the open
paths, and the lost one. -/
structure Matches (registry : Registry) (lost : Option String) (splicing : List String)
    (opened : List Path) : Prop where
  mem_iff : ∀ reference, reference ∈ splicing ↔
    (∃ path ∈ opened, registry.pathOf? reference = some path) ∨ lost = some reference
  isSome : ∀ reference ∈ splicing, (registry.pathOf? reference).isSome

/-- An identifier is being replaced if its path is open, or if it is the lost one. -/
theorem Matches.mem_iff_of_pathOf? (h : Matches registry lost splicing opened)
    (hpath : registry.pathOf? reference = some path) :
    reference ∈ splicing ↔ path ∈ opened ∨ lost = some reference := by
  rw [h.mem_iff]
  simp only [hpath, Option.some.injEq, exists_eq_right']

/-- An identifier and its path are taken up together. -/
theorem Matches.cons (h : Matches registry lost splicing opened)
    (hfollows : registry.index.Follows registry.roots)
    (hpath : registry.pathOf? reference = some path) :
    Matches registry lost (reference :: splicing) (path :: opened) where
  mem_iff other := by
    have hsame : other = reference ↔ registry.pathOf? other = some path := by
      constructor
      · rintro rfl
        exact hpath
      · exact fun hother => hfollows.pathOf?_inj hother hpath
    rw [List.mem_cons, h.mem_iff, List.exists_mem_cons_iff, hsame, or_assoc]
  isSome := List.forall_mem_cons.2 ⟨by rw [hpath]; rfl, h.isSome⟩

/-- At the beginning the body is open, and its identifier is its own or lost. -/
theorem Matches.begin (hfollows : registry.index.Follows registry.roots)
    (hpath : registry.resolve? path = some node) :
    Matches registry (registry.lostId? path) node.id.toList [path] where
  mem_iff reference := by
    rw [Option.mem_toList, Registry.lostId?_eq_some_iff hpath,
      List.exists_mem_cons_iff]
    constructor
    · intro hid
      by_cases hown : registry.pathOf? reference = some path
      · exact Or.inl (Or.inl hown)
      · exact Or.inr ⟨hid, hown⟩
    · rintro ((hown | ⟨_, hmem, -⟩) | ⟨hid, -⟩)
      · exact hfollows.id_of_pathOf? hown hpath
      · cases hmem
      · exact hid
  isSome reference hmem := hfollows.isSome_pathOf? hpath (Option.mem_toList.1 hmem)

/-- **Comparing identifiers finds the same inclusions open as comparing nodes.** -/
theorem Walks.iff_includes (hfollows : registry.index.Follows registry.roots)
    (h : Matches registry lost splicing opened) :
    Walks registry splicing repetition nodes entries ↔
      Includes registry lost opened repetition nodes entries := by
  constructor
  · intro walk
    induction walk generalizing opened with
    | nil => exact .nil
    | entries part _ ih => exact .entries part (ih h)
    | opened part _ _ ihBody ih => exact .opened part (ihBody h) (ih h)
    | cycle part isOpen _ ih =>
      obtain ⟨path, hpath⟩ := Option.isSome_iff_exists.1 (h.isSome _ isOpen)
      exact .cycle part hpath ((h.mem_iff_of_pathOf? hpath).1 isOpen) (ih h)
    | unresolved part _ missing _ ih =>
      exact .unresolved part (hfollows.lookup?_eq_none_iff.1 missing) (ih h)
    | spliced part isNew found _ _ ihBody ih =>
      obtain ⟨path, hpath, hfound⟩ := Option.bind_eq_some_iff.1 found
      rw [h.mem_iff_of_pathOf? hpath, not_or] at isNew
      exact .spliced part hpath hfound isNew.1 isNew.2 (ihBody (h.cons hfollows hpath)) (ih h)
  · intro inclusion
    induction inclusion generalizing splicing with
    | nil => exact .nil
    | entries part _ ih => exact .entries part (ih h)
    | opened part _ _ ihBody ih => exact .opened part (ihBody h) (ih h)
    | cycle part leads isOpen _ ih =>
      exact .cycle part ((h.mem_iff_of_pathOf? leads).2 isOpen) (ih h)
    | unresolved part missing _ ih =>
      have isNew := fun hmem => Option.isSome_iff_ne_none.1 (h.isSome _ hmem) missing
      exact .unresolved part isNew (hfollows.lookup?_eq_none_iff.2 missing) (ih h)
    | spliced part leads found isNew kept _ _ ihBody ih =>
      have hnew := (not_congr (h.mem_iff_of_pathOf? leads)).2 (not_or.2 ⟨isNew, kept⟩)
      have hlookup := (Option.bind_eq_some_iff).2 ⟨_, leads, found⟩
      exact .spliced part hnew hlookup (ihBody (h.cons hfollows leads)) (ih h)

/-! ## Types and the inclusions in them -/

/-- **A type that includes what a node of the forest does**, with the path of the node open at the
beginning. Where it is given, `lost` is the identifier that the node lost. -/
def IncludedBy (registry : Registry) (lost : Path → Option String) (type : RecordType) : Prop :=
  ∃ path node entries, registry.resolve? path = some node ∧ type.place = node.place ∧
    type.MadeOf entries ∧
    ∀ other, Includes registry (lost path) [path] none node.children other ↔ other = entries

/-- What the children of a node include is what the node expands to. -/
theorem includes_iff_eq_expand (hfollows : registry.index.Follows registry.roots)
    (hpath : registry.resolve? path = some node) :
    Includes registry (registry.lostId? path) [path] none node.children entries ↔
      entries = expand registry node := by
  rw [← Walks.iff_includes hfollows (.begin hfollows hpath)]
  constructor
  · exact fun walk => walk.unique (walks_expand registry node)
  · rintro rfl
    exact walks_expand registry node

/-- **Which references are cycles.** Each type of a table includes what some node of the documents
does: a reference to a node whose inclusion is open is a cycle, as is one to the identifier that the
node of the type has lost to another, and every other reference that leads to a node includes its
children. -/
theorem compile_includedBy (documents : List Document) (id : String)
    (h : ∀ document ∈ documents, ∃ source text, Document.parse source text = .ok document) :
    ∀ type ∈ (compile (.ofDocuments documents) id).types,
      IncludedBy (.ofDocuments documents) (Registry.ofDocuments documents).lostId? type := by
  intro type hmem
  obtain ⟨node, ⟨path, hpath⟩, hplace, hmade⟩ := (compiles_compile _ id).hasBody type hmem
  exact ⟨path, node, _, hpath, hplace, hmade, fun other =>
    includes_iff_eq_expand (Registry.follows_ofDocuments h) hpath⟩

/-- A reference to the identifier of the record around it. -/
def selfReference : Node := { Node.ofTag "refFmt" ⟨"r.xml", 3⟩ with refId := some "A" }

/-- A definition that takes over the identifier of the record. -/
def successor : Node :=
  { Node.ofTag "fmtDef" ⟨"a.xml", 1⟩ with
    id := some "A"
    children := [
      { Node.ofTag "fString" ⟨"a.xml", 1⟩ with attributes := [("dataName", "X")] },
      { Node.ofTag "Decor" ⟨"a.xml", 1⟩ with attributes := [("length", "2")] }] }

/-- A format of a record that refers to its own identifier, and a later document which takes the
identifier over. -/
def reused : List Document :=
  [.ofRoots "r.xml" [{ Node.ofTag "fmtDef" ⟨"r.xml", 1⟩ with
      id := some "R"
      children := [{ Node.ofTag "record" ⟨"r.xml", 2⟩ with
        id := some "A"
        attributes := [("dataName", "T")]
        children := [selfReference] }] }],
    .ofRoots "a.xml" [successor]]

/-- The type of the record. -/
def reusedType : RecordType where
  name := "T"
  properties := []
  steps := [.cycle "A"]
  place := ⟨"r.xml", 2⟩

theorem reusedType_mem : reusedType ∈ (compile (.ofDocuments reused) "R").types := by
  decide +kernel

/-- Only one node stands where the type was declared. -/
theorem path_of_reusedType {path : Path} {node : Node}
    (hpath : (Registry.ofDocuments reused).resolve? path = some node)
    (hplace : reusedType.place = node.place) : path = ⟨0, [0]⟩ := by
  have honly : ∀ entry ∈ Schema.occurrences (Registry.ofDocuments reused).roots,
      reusedType.place = entry.2.place → entry.1 = ⟨0, [0]⟩ := by decide +kernel
  exact honly _ (Schema.mem_occurrences hpath) hplace

/-- The reference leads to the later definition, which is not open: its field is included. -/
theorem includes_reused :
    Includes (.ofDocuments reused) none [⟨0, [0]⟩] none [selfReference]
      [.field "X" (some (.text 2)) ⟨"a.xml", 1⟩] := by
  have part : partOf (.ofDocuments reused) none [] selfReference = .spliced "A" := rfl
  have leads : (Registry.ofDocuments reused).pathOf? "A" = some ⟨1, []⟩ := by decide +kernel
  have found : (Registry.ofDocuments reused).resolve? ⟨1, []⟩ = some successor := rfl
  have isNew : (⟨1, []⟩ : Path) ∉ [⟨0, [0]⟩] := by decide
  have kept : (none : Option String) ≠ some "A" := nofun
  have body : Includes (.ofDocuments reused) none [⟨1, []⟩, ⟨0, [0]⟩] none successor.children
      ([.field "X" (some (.text 2)) ⟨"a.xml", 1⟩] ++ ([] ++ [])) :=
    .entries rfl (.entries rfl .nil)
  have inclusion := Includes.spliced part leads found isNew kept body .nil
  rwa [List.append_nil] at inclusion

/-- **A type can lose a field.** Its only reference is taken for a cycle, and the definition that
the reference leads to is not open. -/
theorem reused_not_includedBy :
    ¬ ∀ type ∈ (compile (.ofDocuments reused) "R").types,
      IncludedBy (.ofDocuments reused) (fun _ => none) type := by
  intro h
  obtain ⟨path, node, entries, hpath, hplace, hmade, hincludes⟩ := h _ reusedType_mem
  cases path_of_reusedType hpath hplace
  cases hpath
  cases (hincludes _).1 includes_reused
  exact absurd hmade.filter_steps (by decide)

/-- With the identifier that the record lost, the cycle is what the law asks for. -/
theorem reused_includedBy :
    (∀ document ∈ reused, ∃ source text, Document.parse source text = .ok document) ∧
      (Registry.ofDocuments reused).lostId? ⟨0, [0]⟩ = some "A" ∧
      reusedType ∈ (compile (.ofDocuments reused) "R").types ∧
      IncludedBy (.ofDocuments reused) (Registry.ofDocuments reused).lostId? reusedType := by
  have h : ∀ document ∈ reused, ∃ source text, Document.parse source text = .ok document := by
    intro document hmem
    rcases List.mem_cons.1 hmem with rfl | hmem
    · exact ⟨"r.xml", ("<fmtDef id=\"R\">\n<record id=\"A\" dataName=\"T\">\n" ++
        "<refFmt refId=\"A\"/></record></fmtDef>").toList, by rfl⟩
    · obtain rfl := List.mem_singleton.1 hmem
      exact ⟨"a.xml", ("<fmtDef id=\"A\"><fString dataName=\"X\"/>" ++
        "<Decor length=\"2\"/></fmtDef>").toList, by rfl⟩
  exact ⟨h, by decide +kernel, reusedType_mem, compile_includedBy reused "R" h _ reusedType_mem⟩

end FixedWidth.Table
