import FixedWidth.Proofs.Reports
import FixedWidth.Proofs.TypeNames

/-!
# Proofs/Inlining — references written out

    <refFmt refId="T"/>  ──▸  <any times="…"> the children of T </any>

A forest where references are written out in place is compiled to the same table. `Inlined` relates
a node to what becomes of it; two nodes that are `Alike` differ below only. Walking keeps the
relation between entries (`Walks.inlined`), as long as no reference leads into itself: a written out
copy is walked through where the reference would have been a cycle. Entries that are related add the
same to a body, so the fillings are equal (`Fills.inlined`).
-/

namespace FixedWidth.Schema

/-! ## Nodes with other children -/

namespace Node

variable (node : Node) (children : List Node)

/-- The node with other children. -/
def withChildren : Node := { node with children := children }

@[simp] theorem children_withChildren : (node.withChildren children).children = children := rfl

@[simp] theorem id_withChildren : (node.withChildren children).id = node.id := rfl

@[simp] theorem refId_withChildren : (node.withChildren children).refId = node.refId := rfl

@[simp] theorem place_withChildren : (node.withChildren children).place = node.place := rfl

@[simp] theorem kind_withChildren : (node.withChildren children).kind = node.kind := rfl

@[simp] theorem dataName?_withChildren :
    (node.withChildren children).dataName? = node.dataName? := rfl

@[simp] theorem times?_withChildren : (node.withChildren children).times? = node.times? := rfl

@[simp] theorem constantValue_withChildren :
    (node.withChildren children).constantValue = node.constantValue := rfl

@[simp] theorem declaresWidth_withChildren :
    (node.withChildren children).declaresWidth = node.declaresWidth := rfl

@[simp] theorem declaredLayout?_withChildren :
    (node.withChildren children).declaredLayout? = node.declaredLayout? := rfl

@[simp] theorem declaredWidth?_withChildren :
    (node.withChildren children).declaredWidth? = node.declaredWidth? := rfl

@[simp] theorem withChildren_self : node.withChildren node.children = node := by
  cases node
  rfl

/-- Whether a node is a list with a name, whose children are looked through for its items. -/
def IsNamedList : Prop := node.kind = .repeatedGroup ∧ node.dataName?.isSome

end Node

/-! ## Written out references -/

/-- A transparent node with the children of another one, and its repetition. -/
structure Node.CopyOf (target : Node) (place : Provenance) (copy : Node) : Prop where
  kind : copy.kind = .generic
  place : copy.place = place
  times : copy.times? = target.times?
  children : copy.children = target.children

/-- What becomes of a node when references of a registry are written out, though not those among
the children of a named list. -/
inductive Inlined (registry : Registry) : Node → Node → Prop
  | same (node : Node) : Inlined registry node node
  | inside {node : Node} {children : List Node}
      (inlined : List.Forall₂ (Inlined registry) node.children children)
      (kinds : node.IsNamedList →
        List.Forall₂ (fun child child' => child'.kind = child.kind) node.children children) :
    Inlined registry node (node.withChildren children)
  | copy {node target copy : Node} {reference : String} (kind : node.kind = .reference)
      (refers : node.refId = some reference) (found : registry.lookup? reference = some target)
      (copies : target.CopyOf node.place copy) :
    Inlined registry node copy

/-- The relation of nodes that differ below only. -/
def Alike (registry : Registry) (node node' : Node) : Prop :=
  ∃ children, node' = node.withChildren children ∧
    List.Forall₂ (Inlined registry) node.children children ∧
    (node.IsNamedList →
      List.Forall₂ (fun child child' => child'.kind = child.kind) node.children children)

variable {registry : Registry} {node node' : Node} {nodes nodes' following following' : List Node}

theorem Alike.inlined (h : Alike registry node node') : Inlined registry node node' := by
  obtain ⟨children, rfl, hchildren, hkinds⟩ := h
  exact .inside hchildren hkinds

theorem Alike.refl (registry : Registry) (node : Node) : Alike registry node node :=
  ⟨node.children, node.withChildren_self.symm, List.forall₂_same.2 fun child _ => .same child,
    fun _ => List.forall₂_same.2 fun _ _ => rfl⟩

/-- **A node is written out below or is a reference written out itself.** -/
theorem Inlined.alike_or_copy (h : Inlined registry node node') :
    Alike registry node node' ∨ ∃ reference target, node.kind = .reference ∧
      node.refId = some reference ∧ registry.lookup? reference = some target ∧
      target.CopyOf node.place node' := by
  cases h with
  | same => exact Or.inl (.refl registry node)
  | inside inlined kinds => exact Or.inl ⟨_, rfl, inlined, kinds⟩
  | copy kind refers found copies => exact Or.inr ⟨_, _, kind, refers, found, copies⟩

/-- A node that keeps its kind is written out below. -/
theorem Inlined.alike (h : Inlined registry node node') (hkind : node'.kind = node.kind) :
    Alike registry node node' := by
  obtain halike | ⟨_, _, href, -, -, hcopy⟩ := h.alike_or_copy
  · exact halike
  · rw [hcopy.kind, href] at hkind
    cases hkind

/-- The children of a named list are written out below. -/
theorem Alike.children (h : Alike registry node node') (hlist : node.IsNamedList) :
    List.Forall₂ (Alike registry) node.children node'.children := by
  obtain ⟨children, rfl, hchildren, hkinds⟩ := h
  have hboth := List.forall₂_iff_get.1 (hkinds hlist)
  refine List.forall₂_iff_get.2 ⟨hboth.1, fun i hi hi' => ?_⟩
  exact ((List.forall₂_iff_get.1 hchildren).2 i hi hi').alike (hboth.2 i hi hi')

/-! ## Widths -/

/-- **What follows a node gives it the same width**: written out references are neither structural
nor decorators, as references are. -/
theorem bind_widthDecorator? {α : Type} {f : Node → Option α}
    (hf : ∀ node children, f (node.withChildren children) = f node)
    (h : List.Forall₂ (Inlined registry) following following') :
    (widthDecorator? following').bind f = (widthDecorator? following).bind f := by
  induction h with
  | nil => rfl
  | @cons node _ _ _ hnode _ ih =>
    rw [widthDecorator?, widthDecorator?]
    obtain ⟨children, rfl, -, -⟩ | ⟨_, _, hkind, -, -, hcopy⟩ := hnode.alike_or_copy
    · rw [Node.declaresWidth_withChildren, Node.kind_withChildren]
      split
      · exact hf node children
      · split
        · rfl
        · exact ih
    · simpa [Node.declaresWidth, Kind.isStructural, hkind, hcopy.kind] using ih

theorem fieldLayout?_inlined (h : List.Forall₂ (Inlined registry) following following') :
    fieldLayout? following' = fieldLayout? following :=
  bind_widthDecorator? Node.declaredLayout?_withChildren h

theorem constantWidth?_inlined (h : List.Forall₂ (Inlined registry) following following') :
    constantWidth? following' = constantWidth? following :=
  bind_widthDecorator? Node.declaredWidth?_withChildren h

theorem itemLayout?_alike (h : List.Forall₂ (Alike registry) nodes nodes') :
    itemLayout? nodes' = itemLayout? nodes := by
  rw [itemLayout?, itemLayout?]
  induction h with
  | nil => rfl
  | @cons node _ _ _ hnode _ ih =>
    obtain ⟨children, rfl, -, -⟩ := hnode
    rw [List.find?_cons, List.find?_cons, Node.declaresWidth_withChildren]
    cases node.declaresWidth with
    | true => exact node.declaredLayout?_withChildren children
    | false => exact ih

/-- **An identifier is found in both registries or in none**, and what is found differs below
only. -/
structure Registry.Inlines (registry registry' : Registry) : Prop where
  missing : ∀ reference, registry.lookup? reference = none → registry'.lookup? reference = none
  found : ∀ reference target, registry.lookup? reference = some target →
    ∃ target', registry'.lookup? reference = some target' ∧ Alike registry target target'

end FixedWidth.Schema

namespace FixedWidth.Table

open Naming (sanitize)
open Schema (Alike Inlined Node Registry)

variable {registry registry' : Registry} {splicing splicing' : List String}
  {repetition : Option Repetition} {node node' : Node}
  {nodes nodes' following following' : List Node} {entry entry' : Entry}
  {entries entries' : List Entry}

/-! ## Entries -/

/-- Entries that differ in what is below their nodes. -/
inductive Entry.Alike (registry : Registry) : Entry → Entry → Prop
  | same (entry : Entry) : Entry.Alike registry entry entry
  | group (name : String) {node node' : Node} (repetition : Option Repetition)
      (alike : Schema.Alike registry node node') :
    Entry.Alike registry (.group name node repetition) (.group name node' repetition)
  | list (name typeName : String) {node node' : Node} (repetition : Repetition)
      (place : Schema.Provenance) (alike : Schema.Alike registry node node') :
    Entry.Alike registry (.list name (.records typeName node) repetition place)
      (.list name (.records typeName node') repetition place)

theorem Entry.Alike.request?_eq_none (h : entry.Alike registry entry')
    (hrequest : entry.request? = none) : entry'.request? = none := by
  cases h with
  | same => exact hrequest
  | group | list => cases hrequest

/-- Such entries ask for types of one name, made from nodes that differ below only. -/
theorem Entry.Alike.request?_eq_some {name : String} (h : entry.Alike registry entry')
    (hrequest : entry.request? = some (name, node)) :
    ∃ node', entry'.request? = some (name, node') ∧ Schema.Alike registry node node' := by
  cases h with
  | same => exact ⟨node, hrequest, .refl registry node⟩
  | group _ _ alike | list _ _ _ _ alike =>
    cases hrequest
    exact ⟨_, rfl, alike⟩

/-- **Such entries add the same**, given the same type. -/
theorem Entry.Alike.addWith (h : entry.Alike registry entry') (type : TypeRef) (inType : String)
    (body : Body) : body.addWith type inType entry' = body.addWith type inType entry := by
  cases h with
  | same | list => rfl
  | group _ _ alike =>
    obtain ⟨children, rfl, -, -⟩ := alike
    rfl

/-! ## The parts of single nodes -/

/-- The item of a list is the same, or differs below only. -/
theorem itemNode_alike (hr : registry.Inlines registry')
    (h : List.Forall₂ (Alike registry) nodes nodes') :
    itemNode registry' nodes' = itemNode registry nodes ∨
      ∃ item item', itemNode registry nodes = .ok (some item) ∧
        itemNode registry' nodes' = .ok (some item') ∧ Alike registry item item' := by
  induction h with
  | nil => exact Or.inl rfl
  | @cons node node' _ _ hnode _ ih =>
    have hhead : node'.kind = node.kind ∧ node'.refId = node.refId ∧
        node'.place = node.place := by
      obtain ⟨children, rfl, -, -⟩ := hnode
      exact ⟨rfl, rfl, rfl⟩
    rw [itemNode, itemNode, hhead.1, hhead.2.1, hhead.2.2]
    split
    · exact Or.inr ⟨node, node', rfl, rfl, hnode⟩
    · split
      · split
        · exact ih
        · rename_i reference _
          cases hl : registry.lookup? reference with
          | none => simp [hr.missing reference hl]
          | some target =>
            obtain ⟨target', hl', halike⟩ := hr.found reference target hl
            exact Or.inr ⟨target, target', rfl, by rw [hl'], halike⟩
      · exact ih

/-- A named list that is written out below has the same items, or such that differ below only. -/
theorem list_alike (hr : registry.Inlines registry') (h : Alike registry node node')
    (hlist : node.IsNamedList) (name : String) (repetition : Repetition)
    (place : Schema.Provenance) :
    Entry.Alike registry (.list name (itemsOf registry name node) repetition place)
      (.list name (itemsOf registry' name node') repetition place) := by
  have hchildren := h.children hlist
  rw [itemsOf, itemsOf]
  obtain heq | ⟨item, item', hitem, hitem', halike⟩ := itemNode_alike hr hchildren
  · rw [heq, Schema.itemLayout?_alike hchildren]
    exact .same _
  · have hname : item'.dataName? = item.dataName? := by
      obtain ⟨children, rfl, -, -⟩ := halike
      rfl
    rw [hitem, hitem']
    simp only [hname]
    cases item.dataName? <;> exact .list _ _ _ _ halike

/-- What parts become when references are written out. -/
inductive Part.Alike (registry : Registry) : Part → Part → Prop
  | entries {list list' : List Entry} (alike : List.Forall₂ (Entry.Alike registry) list list') :
    Part.Alike registry (.entries list) (.entries list')
  | opened (repetition : Option Repetition) :
    Part.Alike registry (.opened repetition) (.opened repetition)
  | spliced (reference : String) : Part.Alike registry (.spliced reference) (.spliced reference)

theorem Part.Alike.refl (part : Part) : part.Alike registry part := by
  cases part with
  | entries list => exact .entries (List.forall₂_same.2 fun entry _ => .same entry)
  | opened => exact .opened _
  | spliced => exact .spliced _

theorem Part.Alike.of_entries {list : List Entry} {part : Part}
    (h : (Part.entries list).Alike registry part) :
    ∃ list', part = .entries list' ∧ List.Forall₂ (Entry.Alike registry) list list' := by
  cases h with
  | entries halike => exact ⟨_, rfl, halike⟩

theorem Part.Alike.of_opened {part : Part} (h : (Part.opened repetition).Alike registry part) :
    part = .opened repetition := by
  cases h
  rfl

theorem Part.Alike.of_spliced {reference : String} {part : Part}
    (h : (Part.spliced reference).Alike registry part) : part = .spliced reference := by
  cases h
  rfl

/-- **A node that is written out below has the same part**, up to what is below its entries. -/
theorem partOf_alike (hr : registry.Inlines registry') (h : Alike registry node node')
    (hfollowing : List.Forall₂ (Inlined registry) following following') :
    (partOf registry repetition following node).Alike registry
      (partOf registry' repetition following' node') := by
  have hlist := list_alike hr h
  have halike := h
  obtain ⟨children, rfl, -, -⟩ := h
  rw [partOf, partOf, Node.kind_withChildren, Node.dataName?_withChildren,
    Schema.fieldLayout?_inlined hfollowing, Schema.constantWidth?_inlined hfollowing]
  cases hkind : node.kind with
  | recordGroup =>
    cases node.dataName? with
    | none => exact .opened _
    | some name => exact .entries (.cons (.group name repetition halike) .nil)
  | repeatedGroup =>
    cases hname : node.dataName? with
    | none => exact .opened _
    | some name =>
      exact .entries (.cons (hlist ⟨hkind, by rw [hname]; rfl⟩ name _ node.place) .nil)
  | scalarField | reference | constant | padding | decorator | formatDef | generic =>
    exact .refl _

/-- A reference that is written out was one, and becomes transparent. -/
theorem partOf_copy {target : Node} {reference : String} (hkind : node.kind = .reference)
    (href : node.refId = some reference) (hcopy : target.CopyOf node.place node') :
    partOf registry repetition following node = .spliced reference ∧
      partOf registry' repetition following' node' =
        .opened (transparentRepetition target repetition) := by
  rw [partOf, partOf, hkind, href, hcopy.kind, transparentRepetition, transparentRepetition,
    hcopy.times]
  exact ⟨rfl, rfl⟩

/-- **A node has the same part afterwards**, or is a reference that has become transparent. -/
theorem part_alike_or_copy (hr : registry.Inlines registry') (h : Inlined registry node node')
    (hfollowing : List.Forall₂ (Inlined registry) following following')
    (repetition : Option Repetition) :
    (Alike registry node node' ∧ (partOf registry repetition following node).Alike registry
        (partOf registry' repetition following' node')) ∨
      ∃ reference target, partOf registry repetition following node = .spliced reference ∧
        registry.lookup? reference = some target ∧
        partOf registry' repetition following' node' =
          .opened (transparentRepetition target repetition) ∧
        node'.children = target.children := by
  obtain halike | ⟨reference, target, hkind, href, hfound, hcopy⟩ := h.alike_or_copy
  · exact Or.inl ⟨halike, partOf_alike hr halike hfollowing⟩
  · obtain ⟨hpart, hpart'⟩ := partOf_copy hkind href hcopy
    exact Or.inr ⟨reference, target, hpart, hfound, hpart', hcopy.children⟩

/-! ## Walks -/

/-- An entry that is no reference into itself. -/
def Entry.IsAcyclic (entry : Entry) : Prop :=
  ∀ reference place, entry ≠ .cycle reference place

/-- **Walking on with references written out** gives the entries that were there, up to what is
below their nodes, if none of them is a cycle. A copy is walked through with less references open
than there were. -/
theorem Walks.inlined (hr : registry.Inlines registry')
    (h : Walks registry splicing repetition nodes entries)
    (hnodes : List.Forall₂ (Inlined registry) nodes nodes') (hsub : splicing' ⊆ splicing)
    (hacyclic : ∀ entry ∈ entries, entry.IsAcyclic) :
    ∃ entries', Walks registry' splicing' repetition nodes' entries' ∧
      List.Forall₂ (Entry.Alike registry) entries entries' := by
  induction h generalizing splicing' nodes' with
  | nil =>
    cases hnodes
    exact ⟨[], .nil, .nil⟩
  | @entries _ repetition _ _ _ _ part _ ih =>
    obtain _ | ⟨hnode, hrest⟩ := hnodes
    rw [List.forall_mem_append] at hacyclic
    obtain ⟨more', htail, hmore⟩ := ih hrest hsub hacyclic.2
    obtain ⟨-, hpart⟩ | ⟨_, _, hspliced, -⟩ := part_alike_or_copy hr hnode hrest repetition
    · obtain ⟨list', part', hlist⟩ := (part ▸ hpart).of_entries
      exact ⟨list' ++ more', .entries part' htail, List.rel_append hlist hmore⟩
    · cases part.symm.trans hspliced
  | @opened _ repetition _ _ _ _ _ part _ _ ihBody ih =>
    obtain _ | ⟨hnode, hrest⟩ := hnodes
    rw [List.forall_mem_append] at hacyclic
    obtain ⟨more', htail, hmore⟩ := ih hrest hsub hacyclic.2
    obtain ⟨halike, hpart⟩ | ⟨_, _, hspliced, -⟩ :=
      part_alike_or_copy hr hnode hrest repetition
    · obtain ⟨children, rfl, hchildren, -⟩ := halike
      obtain ⟨list', hbody, hlist⟩ := ihBody hchildren hsub hacyclic.1
      exact ⟨list' ++ more', .opened (part ▸ hpart).of_opened hbody htail,
        List.rel_append hlist hmore⟩
    · cases part.symm.trans hspliced
  | cycle => exact absurd rfl (hacyclic _ List.mem_cons_self _ _)
  | @unresolved _ repetition _ _ _ _ part isNew missing _ ih =>
    obtain _ | ⟨hnode, hrest⟩ := hnodes
    rw [List.forall_mem_cons] at hacyclic
    obtain ⟨more', htail, hmore⟩ := ih hrest hsub hacyclic.2
    obtain ⟨halike, hpart⟩ | ⟨_, _, hspliced, hfound, -⟩ :=
      part_alike_or_copy hr hnode hrest repetition
    · obtain ⟨children, rfl, -, -⟩ := halike
      exact ⟨_, .unresolved (part ▸ hpart).of_spliced (mt (@hsub _) isNew)
        (hr.missing _ missing) htail, .cons (.same _) hmore⟩
    · cases part.symm.trans hspliced
      cases missing.symm.trans hfound
  | @spliced _ repetition _ _ _ reference _ _ part isNew found _ _ ihBody ih =>
    obtain _ | ⟨hnode, hrest⟩ := hnodes
    rw [List.forall_mem_append] at hacyclic
    obtain ⟨more', htail, hmore⟩ := ih hrest hsub hacyclic.2
    obtain ⟨-, hpart⟩ | ⟨_, _, hspliced, hfound, hpart, hcopied⟩ :=
      part_alike_or_copy hr hnode hrest repetition
    · obtain ⟨target', found', children, rfl, hchildren, -⟩ := hr.found _ _ found
      obtain ⟨list', hbody, hlist⟩ :=
        ihBody hchildren (List.cons_subset_cons reference hsub) hacyclic.1
      exact ⟨list' ++ more', .spliced (part ▸ hpart).of_spliced (mt (@hsub _) isNew) found'
        hbody htail, List.rel_append hlist hmore⟩
    · cases part.symm.trans hspliced
      cases found.symm.trans hfound
      -- the copy has the children that the reference stood for
      obtain ⟨list', hbody, hlist⟩ := ihBody (List.forall₂_same.2 fun child _ => .same child)
        (List.subset_cons_of_subset reference hsub) hacyclic.1
      exact ⟨list' ++ more', .opened hpart (hcopied ▸ hbody) htail, List.rel_append hlist hmore⟩

/-! ## Fillings -/

variable {unfinished : List Nat} {id inType : String} {body last : Body} {table : TypeTable}

/-- A filling that reports no reference into itself has no such entries. -/
theorem Fills.isAcyclic (h : Fills registry unfinished inType body entries last)
    (hacyclic : ∀ reference inType place,
      .referenceCycle reference inType place ∉ last.draft.diagnostics) :
    ∀ entry ∈ entries, entry.IsAcyclic := by
  rintro entry hentry reference place rfl
  exact hacyclic _ _ _ (h.mem_diagnostics hentry rfl)

/-- **Filling with references written out** gives the same members and the same table. -/
theorem Fills.inlined (hr : registry.Inlines registry')
    (h : Fills registry unfinished inType body entries last)
    (hentries : List.Forall₂ (Entry.Alike registry) entries entries')
    (hacyclic : ∀ reference inType place,
      .referenceCycle reference inType place ∉ last.draft.diagnostics) :
    Fills registry' unfinished inType body entries' last := by
  induction h generalizing entries' with
  | nil =>
    cases hentries
    exact .nil
  | plain request _ ih =>
    obtain _ | ⟨halike, hrest⟩ := hentries
    have htail := ih hrest hacyclic
    rw [← halike.addWith] at htail
    exact .plain (halike.request?_eq_none request) htail
  | known request found _ ih =>
    obtain _ | ⟨halike, hrest⟩ := hentries
    obtain ⟨node', request', -⟩ := halike.request?_eq_some request
    have htail := ih hrest hacyclic
    rw [← halike.addWith] at htail
    exact .known request' found htail
  | @fresh _ _ _ _ body inner _ _ _ _ request absent walk fill tail ihFill ih =>
    obtain _ | ⟨halike, hrest⟩ := hentries
    obtain ⟨_, request', children, rfl, hchildren, -⟩ := halike.request?_eq_some request
    have htail := ih hrest hacyclic
    rw [← halike.addWith] at htail
    -- the problems of the type that is begun here are among those of the whole table
    have hearlier := (Body.prefix_diagnostics_addWith _ _ (body.resume inner) _).trans
      tail.prefix_diagnostics
    have hinner : ∀ reference inType place,
        .referenceCycle reference inType place ∉ inner.draft.diagnostics :=
      fun _ _ _ hmem => hacyclic _ _ _ (hearlier.subset hmem)
    obtain ⟨inside', walk', hinside⟩ :=
      walk.inlined hr hchildren (List.Subset.refl _) (fill.isAcyclic hinner)
    exact .fresh request' absent walk' (ihFill hinside hinner) htail

/-- **A root compiles to the same table** when references are written out, unless one of them leads
into itself. -/
theorem Compiles.inlined (hr : registry.Inlines registry') (h : Compiles registry id table)
    (hacyclic : ∀ reference inType place,
      .referenceCycle reference inType place ∉ table.diagnostics) :
    Compiles registry' id table := by
  cases h with
  | missing absent => exact .missing (hr.missing id absent)
  | found root walk fill =>
    obtain ⟨_, root', children, rfl, hchildren, -⟩ := hr.found id _ root
    obtain ⟨entries', walk', hentries⟩ :=
      walk.inlined hr hchildren (List.Subset.refl _) (fill.isAcyclic hacyclic)
    exact .found root' walk' (fill.inlined hr hentries hacyclic)

theorem compile_eq_of_inlines (hr : registry.Inlines registry')
    (hacyclic : ∀ reference inType place,
      .referenceCycle reference inType place ∉ (compile registry id).diagnostics) :
    compile registry' id = compile registry id :=
  (compiles_compile registry' id).unique ((compiles_compile registry id).inlined hr hacyclic)

end FixedWidth.Table
