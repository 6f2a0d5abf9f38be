import FixedWidth.Proofs.Forest
import FixedWidth.Table.Expansion
import Mathlib.Data.Finset.Card

/-!
# Proofs/Walk — the walk through a body, without fuel

    part of a node ──▸ entries | its children | the children of a reference

`Walks` is the walk through the siblings of a body as a relation: a rule for what each part of a
body does, and no bound on how often. A walk that never came to an end would have no derivation.
`walks_expand` derives the walk that `expand` computes, and `Walks.unique` says that there is no
other, so the number of identifiers was enough.
-/

namespace FixedWidth.Table

open Schema (Kind Node Provenance Registry)

/-! ## The part of a single node -/

/-- What a node among its siblings stands for. -/
inductive Part where
  /-- Entries of the body. -/
  | entries (list : List Entry)
  /-- The children of the node, inside a repetition. -/
  | opened (repetition : Option Repetition)
  /-- A reference. -/
  | spliced (reference : String)

/-- The part of a node inside a repetition, where `following` are the siblings behind it. -/
def partOf (registry : Registry) (repetition : Option Repetition) (following : List Node)
    (node : Node) : Part :=
  match node.kind with
  | .recordGroup =>
    match node.dataName? with
    | some name => .entries [.group name node repetition]
    | none => .opened (transparentRepetition node repetition)
  | .repeatedGroup =>
    match node.dataName? with
    | some name =>
      .entries [.list name (itemsOf registry name node) (.parse node.times?) node.place]
    | none => .opened (some (.parse node.times?))
  | .scalarField _ =>
    match node.dataName? with
    | some name => .entries [.field name (Schema.fieldLayout? following) node.place]
    | none => .entries []
  | .reference =>
    match node.refId with
    | some reference => .spliced reference
    | none => .entries []
  | .constant =>
    match Schema.constantWidth? following with
    | some width => .entries [.constant node.constantValue width]
    | none => .entries []
  | .padding => .entries (paddingEntries node)
  | .decorator => .entries []
  | .formatDef | .generic => .opened (transparentRepetition node repetition)

/-- **The entries of a node are those of its part.** -/
theorem nodeEntries_eq (registry : Registry) (splice : Splice) (repetition : Option Repetition)
    (following : List Node) (node : Node) :
    nodeEntries registry splice repetition following node =
      match partOf registry repetition following node with
      | .entries list => list
      | .opened inner => siblingEntries registry splice inner node.children
      | .spliced reference => splice repetition reference node.place := by
  obtain ⟨tag, id, refId, attributes, text, children, place⟩ := node
  simp only [nodeEntries, partOf]
  cases (Node.mk tag id refId attributes text children place).kind with
  | recordGroup | repeatedGroup | scalarField =>
    cases (Node.mk tag id refId attributes text children place).dataName? <;> rfl
  | reference => cases refId <;> rfl
  | constant => cases Schema.constantWidth? following <;> rfl
  | formatDef | padding | decorator | generic => rfl

/-- **What the entries of a single node can be.** -/
theorem mem_of_partOf {registry : Registry} {repetition : Option Repetition}
    {following : List Node} {node : Node} {list : List Entry} {entry : Entry}
    (hp : partOf registry repetition following node = .entries list) (he : entry ∈ list) :
    (∃ name, node.dataName? = some name ∧ entry = .group name node repetition) ∨
      (∃ name, node.kind = .repeatedGroup ∧ node.dataName? = some name ∧
        entry = .list name (itemsOf registry name node) (.parse node.times?) node.place) ∨
      (∃ name, entry = .field name (Schema.fieldLayout? following) node.place) ∨
      (∃ width, Schema.constantWidth? following = some width ∧
        entry = .constant node.constantValue width) ∨
      entry ∈ paddingEntries node := by
  rw [partOf] at hp
  cases hk : node.kind with
  | recordGroup =>
    cases hd : node.dataName? with
    | none => simp [hk, hd] at hp
    | some name =>
      simp only [hk, hd, Part.entries.injEq] at hp
      exact Or.inl ⟨name, rfl, List.mem_singleton.1 (hp ▸ he)⟩
  | repeatedGroup =>
    cases hd : node.dataName? with
    | none => simp [hk, hd] at hp
    | some name =>
      simp only [hk, hd, Part.entries.injEq] at hp
      exact Or.inr (Or.inl ⟨name, rfl, rfl, List.mem_singleton.1 (hp ▸ he)⟩)
  | scalarField =>
    cases hd : node.dataName? with
    | none => simp [hk, hd] at hp; simp [hp] at he
    | some name =>
      simp only [hk, hd, Part.entries.injEq] at hp
      exact Or.inr (Or.inr (Or.inl ⟨name, List.mem_singleton.1 (hp ▸ he)⟩))
  | reference => cases hr : node.refId <;> simp [hk, hr] at hp; simp [hp] at he
  | constant =>
    cases hw : Schema.constantWidth? following with
    | none => simp [hk, hw] at hp; simp [hp] at he
    | some width =>
      simp only [hk, hw, Part.entries.injEq] at hp
      exact Or.inr (Or.inr (Or.inr (Or.inl ⟨width, rfl, List.mem_singleton.1 (hp ▸ he)⟩)))
  | padding =>
    simp only [hk, Part.entries.injEq] at hp
    exact Or.inr (Or.inr (Or.inr (Or.inr (hp ▸ he))))
  | decorator => simp [hk] at hp; simp [hp] at he
  | formatDef | generic => simp [hk] at hp

theorem eq_of_mem_paddingEntries {node : Node} {entry : Entry} (h : entry ∈ paddingEntries node) :
    (∃ width, 0 < width ∧ entry = .padding width) ∨
      ∃ raw, entry = .badPadding raw node.place := by
  rw [paddingEntries] at h
  split at h
  · cases h
  · split at h
    · cases h
    · rename_i width hne _
      exact Or.inl ⟨width, Nat.pos_of_ne_zero hne, List.mem_singleton.1 h⟩
    · exact Or.inr ⟨_, List.mem_singleton.1 h⟩

/-! ## The walk -/

/-- The walk through siblings inside a repetition, where `splicing` holds the references that are
being replaced. -/
inductive Walks (registry : Registry) :
    List String → Option Repetition → List Node → List Entry → Prop
  | nil {splicing : List String} {repetition : Option Repetition} :
    Walks registry splicing repetition [] []
  | entries {splicing : List String} {repetition : Option Repetition} {node : Node}
      {rest : List Node} {list more : List Entry}
      (part : partOf registry repetition rest node = .entries list)
      (tail : Walks registry splicing repetition rest more) :
    Walks registry splicing repetition (node :: rest) (list ++ more)
  | opened {splicing : List String} {repetition inner : Option Repetition} {node : Node}
      {rest : List Node} {list more : List Entry}
      (part : partOf registry repetition rest node = .opened inner)
      (body : Walks registry splicing inner node.children list)
      (tail : Walks registry splicing repetition rest more) :
    Walks registry splicing repetition (node :: rest) (list ++ more)
  | cycle {splicing : List String} {repetition : Option Repetition} {node : Node}
      {rest : List Node} {reference : String} {more : List Entry}
      (part : partOf registry repetition rest node = .spliced reference)
      (isOpen : reference ∈ splicing)
      (tail : Walks registry splicing repetition rest more) :
    Walks registry splicing repetition (node :: rest) (.cycle reference node.place :: more)
  | unresolved {splicing : List String} {repetition : Option Repetition} {node : Node}
      {rest : List Node} {reference : String} {more : List Entry}
      (part : partOf registry repetition rest node = .spliced reference)
      (isNew : reference ∉ splicing) (missing : registry.lookup? reference = none)
      (tail : Walks registry splicing repetition rest more) :
    Walks registry splicing repetition (node :: rest) (.unresolved reference node.place :: more)
  | spliced {splicing : List String} {repetition : Option Repetition} {node target : Node}
      {rest : List Node} {reference : String} {list more : List Entry}
      (part : partOf registry repetition rest node = .spliced reference)
      (isNew : reference ∉ splicing) (found : registry.lookup? reference = some target)
      (body : Walks registry (reference :: splicing) (transparentRepetition target repetition)
        target.children list)
      (tail : Walks registry splicing repetition rest more) :
    Walks registry splicing repetition (node :: rest) (list ++ more)

variable {registry : Registry} {splicing : List String} {repetition : Option Repetition}
  {nodes : List Node} {entries entries' : List Entry}

/-- **A walk has one result.** -/
theorem Walks.unique (h : Walks registry splicing repetition nodes entries)
    (h' : Walks registry splicing repetition nodes entries') : entries = entries' := by
  induction h generalizing entries' with
  | nil =>
    cases h'
    rfl
  | entries part _ ih =>
    cases h' with
    | entries part' tail =>
      cases part.symm.trans part'
      rw [ih tail]
    | opened part' | cycle part' | unresolved part' | spliced part' =>
      cases part.symm.trans part'
  | opened part _ _ ihBody ih =>
    cases h' with
    | opened part' body tail =>
      cases part.symm.trans part'
      rw [ihBody body, ih tail]
    | entries part' | cycle part' | unresolved part' | spliced part' =>
      cases part.symm.trans part'
  | cycle part isOpen _ ih =>
    cases h' with
    | cycle part' _ tail =>
      cases part.symm.trans part'
      rw [ih tail]
    | unresolved part' isNew | spliced part' isNew =>
      cases part.symm.trans part'
      exact absurd isOpen isNew
    | entries part' | opened part' => cases part.symm.trans part'
  | unresolved part isNew missing _ ih =>
    cases h' with
    | unresolved part' _ _ tail =>
      cases part.symm.trans part'
      rw [ih tail]
    | cycle part' isOpen =>
      cases part.symm.trans part'
      exact absurd isOpen isNew
    | spliced part' _ found =>
      cases part.symm.trans part'
      cases missing.symm.trans found
    | entries part' | opened part' => cases part.symm.trans part'
  | spliced part isNew found _ _ ihBody ih =>
    cases h' with
    | spliced part' _ found' body tail =>
      cases part.symm.trans part'
      cases found.symm.trans found'
      rw [ihBody body, ih tail]
    | cycle part' isOpen =>
      cases part.symm.trans part'
      exact absurd isOpen isNew
    | unresolved part' _ missing =>
      cases part.symm.trans part'
      cases missing.symm.trans found
    | entries part' | opened part' => cases part.symm.trans part'

/-- A node that stands for a reference is one, and names it. -/
theorem reference_of_partOf {following : List Node} {node : Node} {reference : String}
    (h : partOf registry repetition following node = .spliced reference) :
    node.kind = .reference ∧ node.refId = some reference := by
  rw [partOf] at h
  split at h
  · split at h <;> cases h
  · split at h <;> cases h
  · split at h <;> cases h
  · split at h <;> cases h
    exact ⟨‹_›, ‹_›⟩
  · split at h <;> cases h
  all_goals cases h

/-- **What holds of the entries of single nodes and of references holds of all entries**, where the
nodes are those that the walk can reach. -/
theorem Walks.forall_of_parts {Q : Node → Prop} {P : Entry → Prop}
    (h : Walks registry splicing repetition nodes entries) (hnodes : ∀ node ∈ nodes, Q node)
    (hchild : ∀ node, Q node → ∀ child ∈ node.children, Q child)
    (hfound : ∀ reference node, registry.lookup? reference = some node → Q node)
    (hpart : ∀ repetition following node list, Q node →
      partOf registry repetition following node = .entries list → ∀ entry ∈ list, P entry)
    (hcycle : ∀ node reference, Q node → node.kind = .reference → node.refId = some reference →
      P (.cycle reference node.place))
    (hmissing : ∀ node reference, Q node → node.kind = .reference → node.refId = some reference →
      registry.lookup? reference = none → P (.unresolved reference node.place)) :
    ∀ entry ∈ entries, P entry := by
  induction h with
  | nil => simp
  | entries part _ ih =>
    rw [List.forall_mem_cons] at hnodes
    rw [List.forall_mem_append]
    exact ⟨hpart _ _ _ _ hnodes.1 part, ih hnodes.2⟩
  | opened _ _ _ ihBody ih =>
    rw [List.forall_mem_cons] at hnodes
    rw [List.forall_mem_append]
    exact ⟨ihBody (hchild _ hnodes.1), ih hnodes.2⟩
  | cycle part _ _ ih =>
    rw [List.forall_mem_cons] at hnodes ⊢
    obtain ⟨hkind, href⟩ := reference_of_partOf part
    exact ⟨hcycle _ _ hnodes.1 hkind href, ih hnodes.2⟩
  | unresolved part _ missing _ ih =>
    rw [List.forall_mem_cons] at hnodes ⊢
    obtain ⟨hkind, href⟩ := reference_of_partOf part
    exact ⟨hmissing _ _ hnodes.1 hkind href missing, ih hnodes.2⟩
  | spliced _ _ found _ _ ihBody ih =>
    rw [List.forall_mem_cons] at hnodes
    rw [List.forall_mem_append]
    exact ⟨ihBody (hchild _ (hfound _ _ found)), ih hnodes.2⟩

/-- **What holds of the entries of single nodes holds of all entries**, where the nodes are those
that the walk can reach. -/
theorem Walks.forall_entries {Q : Node → Prop} {P : Entry → Prop}
    (h : Walks registry splicing repetition nodes entries) (hnodes : ∀ node ∈ nodes, Q node)
    (hchild : ∀ node, Q node → ∀ child ∈ node.children, Q child)
    (hfound : ∀ reference node, registry.lookup? reference = some node → Q node)
    (hpart : ∀ repetition following node list, Q node →
      partOf registry repetition following node = .entries list → ∀ entry ∈ list, P entry)
    (hcycle : ∀ reference place, P (.cycle reference place))
    (hmissing : ∀ reference place, P (.unresolved reference place)) :
    ∀ entry ∈ entries, P entry :=
  h.forall_of_parts hnodes hchild hfound hpart
    (fun node reference _ _ _ => hcycle reference node.place)
    fun node reference _ _ _ _ => hmissing reference node.place

/-! ## Every walk comes to an end -/

/-- Siblings are walked through if references are: the induction is on the tree below them. -/
theorem walks_siblingEntries {splice : Splice}
    (hcycle : ∀ repetition reference place, reference ∈ splicing →
      splice repetition reference place = [.cycle reference place])
    (hmissing : ∀ repetition reference place, reference ∉ splicing →
      registry.lookup? reference = none →
      splice repetition reference place = [.unresolved reference place])
    (hfound : ∀ repetition reference place target, reference ∉ splicing →
      registry.lookup? reference = some target →
      Walks registry (reference :: splicing) (transparentRepetition target repetition)
        target.children (splice repetition reference place)) :
    ∀ (nodes : List Node) (repetition : Option Repetition),
      Walks registry splicing repetition nodes (siblingEntries registry splice repetition nodes)
  | [], _ => .nil
  | node :: rest, repetition => by
    have htail := walks_siblingEntries hcycle hmissing hfound rest repetition
    rw [siblingEntries, nodeEntries.siblingEntries, nodeEntries_eq]
    cases hp : partOf registry repetition rest node with
    | entries list => exact .entries hp htail
    | opened inner =>
      exact .opened hp (walks_siblingEntries hcycle hmissing hfound node.children inner) htail
    | spliced reference =>
      by_cases hopen : reference ∈ splicing
      · simpa [hcycle _ _ _ hopen] using Walks.cycle hp hopen htail
      · cases hl : registry.lookup? reference with
        | none => simpa [hmissing _ _ _ hopen hl] using Walks.unresolved hp hopen hl htail
        | some target => exact .spliced hp hopen hl (hfound _ _ node.place _ hopen hl) htail
termination_by nodes => sizeOf nodes
decreasing_by
  · rw [List.cons.sizeOf_spec]
    omega
  · obtain ⟨tag, id, refId, attributes, text, children, place⟩ := node
    change sizeOf children < sizeOf (_ :: rest)
    rw [List.cons.sizeOf_spec, Node.mk.sizeOf_spec]
    omega

/-- The identifiers that a walk may still replace. -/
def freshIdentifiers (registry : Registry) (splicing : List String) : Finset String :=
  registry.identifiers.toFinset \ splicing.toFinset

theorem card_freshIdentifiers_lt {reference : String} {target : Node}
    (hl : registry.lookup? reference = some target) (hn : reference ∉ splicing) :
    (freshIdentifiers registry (reference :: splicing)).card
      < (freshIdentifiers registry splicing).card := by
  have hmem : reference ∈ freshIdentifiers registry splicing :=
    Finset.mem_sdiff.2 ⟨List.mem_toFinset.2 (Registry.mem_identifiers_of_lookup? hl), by simpa⟩
  rw [freshIdentifiers, List.toFinset_cons, Finset.sdiff_insert]
  exact Finset.card_erase_lt_of_mem hmem

/-- **Fuel for each identifier that is not being replaced is enough.** -/
theorem walks_expandFrom (fuel : Nat) (splicing : List String) (repetition : Option Repetition)
    (nodes : List Node) (hfuel : (freshIdentifiers registry splicing).card < fuel) :
    Walks registry splicing repetition nodes
      (expandFrom registry fuel splicing repetition nodes) := by
  induction fuel generalizing splicing repetition nodes with
  | zero => omega
  | succ fuel ih =>
    rw [expandFrom]
    refine walks_siblingEntries ?_ ?_ ?_ nodes repetition
    · intro repetition reference place hopen
      simp [hopen]
    · intro repetition reference place hnew hl
      simp [hnew, hl]
    · intro repetition reference place target hnew hl
      have hlt := card_freshIdentifiers_lt hl hnew
      simpa [hnew, hl] using ih (reference :: splicing) _ target.children (by omega)

/-- **The body of a node is a walk through its children.** -/
theorem walks_expand (registry : Registry) (body : Node) :
    Walks registry body.id.toList none body.children (expand registry body) := by
  refine walks_expandFrom _ _ _ _ (Nat.lt_succ_of_le ?_)
  exact (Finset.card_le_card Finset.sdiff_subset).trans (List.toFinset_card_le _)

end FixedWidth.Table
