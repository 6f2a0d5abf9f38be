import FixedWidth.Proofs.Maps
import FixedWidth.Proofs.Paths
import Mathlib.Data.List.Induction
import Mathlib.Logic.Relation

/-!
# Proofs/Identifiers — an identifier belongs to its last node

    document ──its own identifiers──▸ index
    documents ──one after the other──▸ registry

For one identifier, an index is the last of the paths that got it, and its replacements are the
`links` between them (`changesOf_addAll`). Registering a document links the last path of the
registry to that of the document (`Follows.registerDocument`), so that every path but the last is
replaced once and all replacements lead on to the last (`ofDocuments_lastWins`).
-/

namespace FixedWidth.Schema

open Relation (ReflTransGen)

variable {index : IdIndex} {roots : List Node} {pairs : List (String × Path)} {id : String}
  {path : Path} {node : Node}

/-! ## One identifier in an index -/

/-- The paths that get an identifier in a list of pairs, in order. -/
def pathsOf (pairs : List (String × Path)) (id : String) : List Path :=
  (pairs.filter (·.1 = id)).map Prod.snd

/-- Each path behind the one before it, which is `previous` for the first. -/
def links : (previous : Option Path) → List Path → List (Path × Path)
  | _, [] => []
  | previous, path :: rest => previous.toList.map (·, path) ++ links (some path) rest

/-- The replacements of an identifier: the path that had it, and the one that got it. -/
def IdIndex.changesOf (index : IdIndex) (id : String) : List (Path × Path) :=
  (index.overrides.filter (·.id = id)).map fun change => (change.replaced, change.replacement)

theorem IdIndex.get?_add (index : IdIndex) (id other : String) (path : Path) :
    NameMap.get? (index.add id path).ids other =
      if id = other then some path else NameMap.get? index.ids other := by
  split
  · subst id
    exact NameMap.get?_insert_self index.ids other path
  · exact NameMap.get?_insert_of_ne index.ids ‹_› path

theorem IdIndex.changesOf_add (index : IdIndex) (id other : String) (path : Path) :
    (index.add id path).changesOf other = index.changesOf other ++
      if id = other then (NameMap.get? index.ids other).toList.map (·, path) else [] := by
  rw [changesOf, changesOf, add]
  by_cases hid : id = other
  · subst hid
    cases NameMap.get? index.ids id <;> simp
  · cases NameMap.get? index.ids id <;> simp [hid]

theorem pathsOf_cons (pair : String × Path) (pairs : List (String × Path)) (id : String) :
    pathsOf (pair :: pairs) id =
      if pair.1 = id then pair.2 :: pathsOf pairs id else pathsOf pairs id := by
  by_cases h : pair.1 = id <;> simp [pathsOf, h]

/-- **The last path has the identifier.** -/
theorem IdIndex.get?_addAll (index : IdIndex) (pairs : List (String × Path)) (id : String) :
    NameMap.get? (index.addAll pairs).ids id =
      (pathsOf pairs id).getLast?.or (NameMap.get? index.ids id) := by
  induction pairs generalizing index with
  | nil => rfl
  | cons pair rest ih =>
    rw [addAll, List.foldl_cons, ← addAll, ih, get?_add, pathsOf_cons]
    split
    · cases h : (pathsOf rest id).getLast? <;> simp [List.getLast?_cons, h]
    · rfl

/-- **The replacements of an identifier link its paths.** -/
theorem IdIndex.changesOf_addAll (index : IdIndex) (pairs : List (String × Path)) (id : String) :
    (index.addAll pairs).changesOf id =
      index.changesOf id ++ links (NameMap.get? index.ids id) (pathsOf pairs id) := by
  induction pairs generalizing index with
  | nil => simp [addAll, pathsOf, links]
  | cons pair rest ih =>
    rw [addAll, List.foldl_cons, ← addAll, ih, changesOf_add, get?_add, pathsOf_cons]
    split
    · rw [links, List.append_assoc]
    · rw [List.append_nil]

theorem IdIndex.ordered_addAll (h : NameMap.Ordered index.ids) (pairs : List (String × Path)) :
    NameMap.Ordered (index.addAll pairs).ids := by
  induction pairs generalizing index with
  | nil => exact h
  | cons pair rest ih => exact ih (h.insert pair.1 pair.2)

/-- Each pair makes an identifier or a replacement. -/
theorem IdIndex.length_addAll (h : NameMap.Ordered index.ids) (pairs : List (String × Path)) :
    (index.addAll pairs).overrides.length + (index.addAll pairs).ids.length =
      index.overrides.length + index.ids.length + pairs.length := by
  induction pairs generalizing index with
  | nil => rfl
  | cons pair rest ih =>
    have hone : (index.add pair.1 pair.2).overrides.length + (index.add pair.1 pair.2).ids.length
        = index.overrides.length + index.ids.length + 1 := by
      have := NameMap.length_insert h pair.1 pair.2
      rw [add]
      cases hget : NameMap.get? index.ids pair.1 <;> simp [hget] at this ⊢ <;> omega
    rw [addAll, List.foldl_cons, ← addAll, ih (h.insert pair.1 pair.2), hone, List.length_cons]
    omega

/-! ## Replacements that lead to the last path -/

/-- The one path leads to the other by way of replacements. -/
def LeadsTo (changes : List (Path × Path)) : Path → Path → Prop :=
  ReflTransGen fun old new => (old, new) ∈ changes

variable {paths more : List Path} {changes inside : List (Path × Path)}

theorem LeadsTo.mono {old new : Path} (h : LeadsTo changes old new) (hsub : changes ⊆ inside) :
    LeadsTo inside old new := h.lift id fun _ _ hc => hsub hc

/-- **Every path but the last is replaced once**, by another one, and the replacements lead from
each of them to the last. -/
structure Chained (paths : List Path) (changes : List (Path × Path)) : Prop where
  replaced : (changes.map Prod.fst).Perm paths.dropLast
  replacement_mem : ∀ change ∈ changes, change.2 ∈ paths
  leads : ∀ change ∈ changes, ∀ last, paths.getLast? = some last → LeadsTo changes change.1 last

theorem Chained.nil : Chained [] [] := ⟨.nil, nofun, nofun⟩

theorem Chained.eq_nil (h : Chained [] changes) : changes = [] :=
  List.map_eq_nil_iff.1 h.replaced.eq_nil

/-- **Two chains are joined by a link between their last paths.** -/
theorem Chained.append (h : Chained paths changes) (h' : Chained more inside) :
    Chained (paths ++ more)
      (changes ++ inside ++ links paths.getLast? more.getLast?.toList) := by
  rcases List.eq_nil_or_concat more with rfl | ⟨more, last, rfl⟩
  · obtain rfl := h'.eq_nil
    simpa [links] using h
  rcases List.eq_nil_or_concat paths with rfl | ⟨paths, middle, rfl⟩
  · obtain rfl := h.eq_nil
    simpa [links] using h'
  have hlinks : links (paths ++ [middle]).getLast? (more ++ [last]).getLast?.toList
      = [(middle, last)] := by simp [links]
  rw [List.concat_eq_append, List.concat_eq_append] at *
  rw [hlinks]
  have hdrop := h.replaced
  have hdrop' := h'.replaced
  rw [List.dropLast_concat] at hdrop hdrop'
  refine ⟨?_, ?_, ?_⟩
  · rw [← List.append_assoc, List.dropLast_concat, List.map_append, List.map_append]
    refine ((hdrop.append hdrop').append_right _).trans ?_
    rw [List.append_assoc, List.append_assoc]
    exact List.perm_append_comm.append_left paths
  · intro change hmem
    rw [List.mem_append, List.mem_append, List.mem_singleton] at hmem
    rcases hmem with (hold | hnew) | rfl
    · exact List.mem_append_left _ (h.replacement_mem change hold)
    · exact List.mem_append_right _ (h'.replacement_mem change hnew)
    · simp
  · intro change hmem last' hlast
    rw [← List.append_assoc, List.getLast?_concat, Option.some.injEq] at hlast
    obtain rfl := hlast
    have hstep : (middle, last) ∈ changes ++ inside ++ [(middle, last)] := by simp
    rw [List.mem_append, List.mem_append, List.mem_singleton] at hmem
    rcases hmem with (hold | hnew) | rfl
    · have hway := h.leads change hold middle (by simp)
      exact (hway.mono (by simp)).tail hstep
    · have hway := h'.leads change hnew last (by simp)
      exact hway.mono (by simp)
    · exact .single hstep

theorem links_append (previous : Option Path) (paths more : List Path) :
    links previous (paths ++ more) =
      links previous paths ++ links (paths.getLast?.or previous) more := by
  induction paths generalizing previous with
  | nil => rfl
  | cons path rest ih =>
    rw [List.cons_append, links, links, ih, List.append_assoc, List.getLast?_cons]
    cases rest.getLast? <;> rfl

/-- **The links of a list are a chain.** -/
theorem Chained.links (paths : List Path) : Chained paths (links none paths) := by
  induction paths using List.reverseRecOn with
  | nil => exact .nil
  | append_singleton paths path ih =>
    have hone : Chained [path] [] := ⟨.nil, nofun, nofun⟩
    have := ih.append hone
    rw [List.append_nil] at this
    rwa [links_append, Option.or_none]

theorem Chained.map (h : Chained paths changes) (f : Path → Path) :
    Chained (paths.map f) (changes.map fun change => (f change.1, f change.2)) := by
  refine ⟨?_, ?_, ?_⟩
  · have := h.replaced.map f
    rwa [List.map_map, List.map_dropLast] at *
  · intro change hmem
    obtain ⟨change, hold, rfl⟩ := List.mem_map.1 hmem
    exact List.mem_map_of_mem (h.replacement_mem change hold)
  · intro change hmem last hlast
    obtain ⟨change, hold, rfl⟩ := List.mem_map.1 hmem
    rw [List.getLast?_map, Option.map_eq_some_iff] at hlast
    obtain ⟨last, hlast, rfl⟩ := hlast
    exact (h.leads change hold last hlast).lift f fun old new hc =>
      List.mem_map.2 ⟨(old, new), hc, rfl⟩

/-! ## Documents and registries -/

/-- The paths of the nodes that carry an identifier, in the order of the nodes. -/
def carriers (roots : List Node) (id : String) : List Path :=
  ((occurrences roots).filter fun entry => entry.2.id = some id).map Prod.fst

theorem mem_carriers_iff :
    path ∈ carriers roots id ↔ ∃ node, path.resolve? roots = some node ∧ node.id = some id := by
  rw [carriers, List.mem_map]
  constructor
  · rintro ⟨⟨path, node⟩, hmem, rfl⟩
    rw [List.mem_filter, mem_occurrences_iff] at hmem
    exact ⟨node, hmem.1, of_decide_eq_true hmem.2⟩
  · rintro ⟨node, hresolve, hid⟩
    exact ⟨(path, node), List.mem_filter.2 ⟨mem_occurrences hresolve, decide_eq_true hid⟩, rfl⟩

theorem nodup_carriers (roots : List Node) (id : String) : (carriers roots id).Nodup :=
  (nodup_occurrences roots).sublist (List.filter_sublist.map _)

theorem pathsOf_identifiersOf (roots : List Node) (id : String) :
    pathsOf (identifiersOf roots) id = carriers roots id := by
  rw [pathsOf, identifiersOf, carriers]
  induction occurrences roots with
  | nil => rfl
  | cons entry rest ih =>
    obtain ⟨path, node⟩ := entry
    rcases hid : node.id with _ | other
    · simpa [hid] using ih
    · by_cases heq : other = id <;> simpa [hid, heq] using ih

theorem carriers_append (roots more : List Node) (id : String) :
    carriers (roots ++ more) id =
      carriers roots id ++ (carriers more id).map (·.offset roots.length) := by
  rw [carriers, occurrences_append, List.filter_append, List.map_append, List.filter_map,
    List.map_map, carriers, carriers, List.map_map]
  rfl

theorem length_identifiersOf (roots : List Node) :
    (identifiersOf roots).length = (occurrences roots).countP (·.2.id.isSome) := by
  rw [identifiersOf]
  induction occurrences roots with
  | nil => rfl
  | cons entry rest ih => cases hid : entry.2.id <;> simp [hid, ih]

theorem length_identifiersOf_append (roots more : List Node) :
    (identifiersOf (roots ++ more)).length =
      (identifiersOf roots).length + (identifiersOf more).length := by
  rw [length_identifiersOf, occurrences_append, List.countP_append, List.countP_map,
    length_identifiersOf, length_identifiersOf]
  rfl

/-- **An index follows the nodes of a forest.** -/
structure IdIndex.Follows (index : IdIndex) (roots : List Node) : Prop where
  ordered : NameMap.Ordered index.ids
  get?_eq : ∀ id, NameMap.get? index.ids id = (carriers roots id).getLast?
  chained : ∀ id, Chained (carriers roots id) (index.changesOf id)
  length_eq : index.overrides.length + index.ids.length = (identifiersOf roots).length

theorem IdIndex.ordered_empty : NameMap.Ordered empty.ids := List.Pairwise.nil

theorem IdIndex.Follows.empty : IdIndex.empty.Follows [] where
  ordered := ordered_empty
  get?_eq _ := rfl
  chained _ := .nil
  length_eq := rfl

/-- **The index of a document follows its nodes.** -/
theorem Document.follows_ofRoots (source : String) (roots : List Node) :
    (ofRoots source roots).index.Follows roots where
  ordered := IdIndex.ordered_addAll IdIndex.ordered_empty _
  get?_eq id := by
    rw [ofRoots, IdIndex.get?_addAll, pathsOf_identifiersOf]
    exact Option.or_none
  chained id := by
    rw [ofRoots, IdIndex.changesOf_addAll, pathsOf_identifiersOf]
    exact .links _
  length_eq := (IdIndex.length_addAll IdIndex.ordered_empty _).trans (Nat.zero_add _)

/-- The index of a registry before it gets the identifiers of a document: it has the replacements
inside the document already. -/
def IdIndex.withInside (index : IdIndex) (document : Document) (offset : Nat) : IdIndex :=
  { index with overrides := index.overrides ++ document.index.overrides.map (·.offset offset) }

theorem Registry.index_registerDocument (registry : Registry) (document : Document) :
    (registry.registerDocument document).index =
      (registry.index.withInside document registry.roots.length).addAll
        (document.index.ids.map fun pair => (pair.1, pair.2.offset registry.roots.length)) := rfl

theorem Registry.roots_registerDocument (registry : Registry) (document : Document) :
    (registry.registerDocument document).roots = registry.roots ++ document.roots := rfl

theorem IdIndex.changesOf_withInside (index : IdIndex) (document : Document) (offset : Nat)
    (id : String) :
    (index.withInside document offset).changesOf id = index.changesOf id ++
      (document.index.changesOf id).map fun change =>
        (change.1.offset offset, change.2.offset offset) := by
  rw [changesOf, withInside, List.filter_append, List.map_append, List.filter_map, List.map_map,
    changesOf, changesOf, List.map_map]
  rfl

/-- The identifiers of a document give an identifier its last path there. -/
theorem pathsOf_offset {map : NameMap Path} (h : NameMap.Ordered map) (offset : Nat)
    (id : String) :
    pathsOf (map.map fun pair => (pair.1, pair.2.offset offset)) id =
      ((NameMap.get? map id).map (·.offset offset)).toList := by
  rw [Option.toList_map, ← NameMap.filter_eq_of_ordered h, pathsOf, List.filter_map,
    List.map_map, List.map_map]
  rfl

theorem getLast?_toList {α : Type} (a : Option α) : a.toList.getLast? = a := by cases a <;> rfl

/-- **Registering a document keeps an index that follows the nodes.** -/
theorem IdIndex.Follows.registerDocument {registry : Registry} {document : Document}
    (h : registry.index.Follows registry.roots) (h' : document.index.Follows document.roots) :
    (registry.registerDocument document).index.Follows
      (registry.registerDocument document).roots := by
  rw [Registry.index_registerDocument, Registry.roots_registerDocument]
  have hordered : NameMap.Ordered
      (registry.index.withInside document registry.roots.length).ids := h.ordered
  refine ⟨ordered_addAll hordered _, fun id => ?_, fun id => ?_, ?_⟩
  · rw [get?_addAll, pathsOf_offset h'.ordered, getLast?_toList, h'.get?_eq, carriers_append,
      List.getLast?_append, List.getLast?_map, ← h.get?_eq]
    rfl
  · have hjoin := (h.chained id).append ((h'.chained id).map (·.offset registry.roots.length))
    rw [List.getLast?_map, ← h.get?_eq, ← h'.get?_eq] at hjoin
    rw [changesOf_addAll, changesOf_withInside, pathsOf_offset h'.ordered, carriers_append]
    exact hjoin
  · have h₁ := h.length_eq
    have h₂ := h'.length_eq
    rw [length_addAll hordered, length_identifiersOf_append, List.length_map]
    simp only [withInside, List.length_append, List.length_map]
    omega

/-- The nodes of a registry are those of its documents, in their order. -/
theorem Registry.roots_ofDocuments (documents : List Document) :
    (ofDocuments documents).roots = documents.flatMap (·.roots) := by
  have hfold : ∀ registry : Registry, (documents.foldl registerDocument registry).roots =
      registry.roots ++ documents.flatMap (·.roots) := by
    induction documents with
    | nil => simp
    | cons document rest ih =>
      intro registry
      rw [List.foldl_cons, ih, roots_registerDocument, List.flatMap_cons, List.append_assoc]
  exact hfold empty

/-- A document that was read has the index of its nodes. -/
theorem Document.eq_ofRoots_of_parse {source : String} {text : List Char} {document : Document}
    (h : parse source text = .ok document) : document = ofRoots source document.roots := by
  rw [parse] at h
  split at h
  · cases h
  · split at h
    · cases h
    · split at h <;> cases h
      rfl

/-- **The index of a registry follows the nodes of its documents.** -/
theorem Registry.follows_ofDocuments {documents : List Document}
    (h : ∀ document ∈ documents, ∃ source text, Document.parse source text = .ok document) :
    (ofDocuments documents).index.Follows (ofDocuments documents).roots := by
  rw [ofDocuments]
  have hempty : empty.index.Follows empty.roots := .empty
  refine List.foldlRecOn (motive := fun registry => registry.index.Follows registry.roots)
    documents registerDocument hempty fun registry hregistry document hmem => ?_
  obtain ⟨source, text, hparse⟩ := h document hmem
  have hdocument := Document.follows_ofRoots source document.roots
  rw [← Document.eq_ofRoots_of_parse hparse] at hdocument
  exact hregistry.registerDocument hdocument

/-- Where the index follows the nodes, the path of an identifier leads to a node that carries it. -/
theorem IdIndex.Follows.exists_of_get? {registry : Registry}
    (h : registry.index.Follows registry.roots)
    (hpath : NameMap.get? registry.index.ids id = some path) :
    ∃ node, registry.resolve? path = some node ∧ node.id = some id := by
  rw [h.get?_eq] at hpath
  exact mem_carriers_iff.1 (List.mem_of_getLast? hpath)

/-! ## The last definition wins -/

/-- One more registration, of a forest with identifiers or of a document. -/
inductive Registry.Registers (registry : Registry) : Registry → Prop
  | forest (roots : List Node) (ids : NameMap Path) :
    registry.Registers (registry.register roots ids)
  | document (document : Document) : registry.Registers (registry.registerDocument document)

/-- **A path leads to the same node after any number of registrations.** -/
theorem Registry.resolve?_of_registers {registry later : Registry}
    (h : ReflTransGen Registers registry later) (hresolve : registry.resolve? path = some node) :
    later.resolve? path = some node := by
  induction h with
  | refl => exact hresolve
  | tail _ hstep ih => cases hstep <;> exact Path.resolve?_append ih _

/-- **An identifier belongs to the last node that carries it**, and every other one is replaced. -/
structure Registry.LastWins (registry : Registry) (id : String) : Prop where
  /-- The path of the identifier is that of its last carrier, in the order of the nodes. -/
  path_eq : NameMap.get? registry.index.ids id = (carriers registry.roots id).getLast?
  lookup?_eq : registry.lookup? id = (carriers registry.roots id).getLast?.bind registry.resolve?
  contains_iff : registry.contains id = true ↔ (registry.lookup? id).isSome
  isSome_iff : (registry.lookup? id).isSome ↔
    ∃ path node, registry.resolve? path = some node ∧ node.id = some id
  /-- Each carrier but the last is replaced once. -/
  replaced_once : ∀ path ∈ (carriers registry.roots id).dropLast,
    (registry.overrides.map (·.replaced)).count path = 1
  /-- The last carrier is not replaced. -/
  last_notMem : ∀ last, (carriers registry.roots id).getLast? = some last →
    last ∉ registry.overrides.map (·.replaced)
  /-- Only carriers are replaced, by others, and their paths stay theirs. -/
  resolves : ∀ change ∈ registry.overrides, change.id = id →
    ∃ old new, old.id = some id ∧ new.id = some id ∧
      ∀ later, ReflTransGen Registers registry later →
        later.resolve? change.replaced = some old ∧ later.resolve? change.replacement = some new
  /-- Going on from a replaced node to its replacement leads to the last carrier. -/
  leads : ∀ change ∈ registry.overrides, change.id = id →
    ∃ last, (carriers registry.roots id).getLast? = some last ∧
      LeadsTo (registry.overrides.map fun change => (change.replaced, change.replacement))
        change.replaced last

variable {registry : Registry} {change : Override}

theorem mem_changesOf (h : change ∈ index.overrides) :
    (change.replaced, change.replacement) ∈ index.changesOf change.id :=
  List.mem_map.2 ⟨change, List.mem_filter.2 ⟨h, by simp⟩, rfl⟩

theorem IdIndex.changesOf_subset (index : IdIndex) (id : String) : index.changesOf id ⊆
    index.overrides.map fun change => (change.replaced, change.replacement) :=
  List.map_subset _ (List.filter_sublist).subset

theorem IdIndex.Follows.replaced_mem (h : index.Follows roots) (hc : change ∈ index.overrides) :
    change.replaced ∈ (carriers roots change.id).dropLast :=
  (h.chained change.id).replaced.subset (List.mem_map_of_mem (mem_changesOf hc))

theorem IdIndex.Follows.replacement_mem (h : index.Follows roots)
    (hc : change ∈ index.overrides) : change.replacement ∈ carriers roots change.id :=
  (h.chained change.id).replacement_mem _ (mem_changesOf hc)

/-- A path carries one identifier at most. -/
theorem eq_of_mem_carriers {other : String} (h : path ∈ carriers roots id)
    (h' : path ∈ carriers roots other) : id = other := by
  obtain ⟨node, hresolve, hid⟩ := mem_carriers_iff.1 h
  obtain ⟨node', hresolve', hid'⟩ := mem_carriers_iff.1 h'
  cases hresolve.symm.trans hresolve'
  exact Option.some.inj (hid.symm.trans hid')

/-- Among all replacements, those of a path that carries an identifier are replacements of the
identifier. -/
theorem IdIndex.Follows.count_replaced (h : index.Follows roots) (hp : path ∈ carriers roots id) :
    (index.overrides.map (·.replaced)).count path = (carriers roots id).dropLast.count path := by
  rw [← (h.chained id).replaced.count_eq, changesOf, List.map_map, List.count_eq_countP,
    List.count_eq_countP, List.countP_map, List.countP_map, List.countP_filter]
  refine List.countP_congr fun change hc => ?_
  constructor
  · intro heq
    have hpath : change.replaced = path := by simpa using heq
    have hmem := List.dropLast_subset _ (h.replaced_mem hc)
    rw [hpath] at hmem
    simpa [hpath] using eq_of_mem_carriers hmem hp
  · intro heq
    rw [Bool.and_eq_true] at heq
    exact heq.1

theorem getLast?_notMem_dropLast {last : Path} (h : paths.Nodup)
    (hlast : paths.getLast? = some last) : last ∉ paths.dropLast := by
  rw [← List.dropLast_append_getLast? last hlast, List.nodup_append'] at h
  exact fun hmem => h.2.2 hmem (List.mem_singleton_self last)

/-- **Where the index follows the nodes, the last definition wins.** -/
theorem IdIndex.Follows.lastWins (h : registry.index.Follows registry.roots) (id : String) :
    registry.LastWins id := by
  have hlookup : registry.lookup? id =
      (carriers registry.roots id).getLast?.bind registry.resolve? := by
    rw [Registry.lookup?, h.get?_eq]
  have hisSome : (registry.lookup? id).isSome ↔ (carriers registry.roots id).getLast?.isSome := by
    rw [hlookup]
    cases hlast : (carriers registry.roots id).getLast? with
    | none => rfl
    | some last =>
      obtain ⟨node, hresolve, -⟩ := mem_carriers_iff.1 (List.mem_of_getLast? hlast)
      have : registry.resolve? last = some node := hresolve
      simp [this]
  refine ⟨h.get?_eq id, hlookup, ?_, ?_, fun path hmem => ?_, fun last hlast hmem => ?_,
    fun change hc hid => ?_, fun change hc hid => ?_⟩
  · rw [Registry.contains, NameMap.contains, h.get?_eq, hisSome]
  · rw [hisSome, List.getLast?_isSome]
    constructor
    · intro hne
      obtain ⟨path, hmem⟩ := List.exists_mem_of_ne_nil _ hne
      exact ⟨path, mem_carriers_iff.1 hmem⟩
    · rintro ⟨path, hcarries⟩
      exact List.ne_nil_of_mem (mem_carriers_iff.2 hcarries)
  · rw [Registry.overrides, h.count_replaced (List.dropLast_subset _ hmem)]
    exact List.count_eq_one_of_mem ((nodup_carriers _ _).sublist (List.dropLast_sublist _)) hmem
  · rw [← List.count_pos_iff, Registry.overrides,
      h.count_replaced (List.mem_of_getLast? hlast), List.count_pos_iff] at hmem
    exact getLast?_notMem_dropLast (nodup_carriers _ _) hlast hmem
  · subst hid
    obtain ⟨old, hold, hid⟩ := mem_carriers_iff.1 (List.dropLast_subset _ (h.replaced_mem hc))
    obtain ⟨new, hnew, hid'⟩ := mem_carriers_iff.1 (h.replacement_mem hc)
    exact ⟨old, new, hid, hid', fun later hlater =>
      ⟨Registry.resolve?_of_registers hlater hold, Registry.resolve?_of_registers hlater hnew⟩⟩
  · subst hid
    have hne := List.ne_nil_of_mem (h.replacement_mem hc)
    obtain ⟨last, hlast⟩ := Option.isSome_iff_exists.1 (List.getLast?_isSome.2 hne)
    have hway := (h.chained change.id).leads _ (mem_changesOf hc) last hlast
    exact ⟨last, hlast, hway.mono (registry.index.changesOf_subset change.id)⟩

/-- **In a registry of documents every identifier belongs to its last node**, and each node with an
identifier has either an entry of its own or one replacement. -/
theorem ofDocuments_lastWins (documents : List Document)
    (h : ∀ document ∈ documents, ∃ source text, Document.parse source text = .ok document) :
    (Registry.ofDocuments documents).roots = documents.flatMap (·.roots) ∧
      (∀ id, (Registry.ofDocuments documents).LastWins id) ∧
      (Registry.ofDocuments documents).overrides.length +
          (Registry.ofDocuments documents).identifiers.length =
        (occurrences (Registry.ofDocuments documents).roots).countP (·.2.id.isSome) := by
  have hfollows := Registry.follows_ofDocuments h
  refine ⟨Registry.roots_ofDocuments documents, hfollows.lastWins, ?_⟩
  rw [← length_identifiersOf, ← hfollows.length_eq, Registry.identifiers, NameMap.names,
    List.length_map]
  rfl

/-- Two documents. The second one gives the identifier of the first to two nodes more. -/
def repeated : List Document :=
  [.ofRoots "one.xml" [{ Node.ofTag "fmtDef" ⟨"one.xml", 1⟩ with id := some "A" }],
    .ofRoots "two.xml" [{ Node.ofTag "kColl" ⟨"two.xml", 1⟩ with
      children := [{ Node.ofTag "record" ⟨"two.xml", 1⟩ with id := some "A" },
        { Node.ofTag "fmtDef" ⟨"two.xml", 1⟩ with id := some "A" }] }]]

/-- The last of three nodes has the identifier, and both others are replaced by it. -/
theorem repeated_lastWins :
    (∀ document ∈ repeated, ∃ source text, Document.parse source text = .ok document) ∧
      (Registry.ofDocuments repeated).LastWins "A" ∧
      carriers (Registry.ofDocuments repeated).roots "A" = [⟨0, []⟩, ⟨1, [0]⟩, ⟨1, [1]⟩] ∧
      (Registry.ofDocuments repeated).overrides =
        [⟨"A", ⟨1, [0]⟩, ⟨1, [1]⟩⟩, ⟨"A", ⟨0, []⟩, ⟨1, [1]⟩⟩] := by
  have h : ∀ document ∈ repeated, ∃ source text, Document.parse source text = .ok document := by
    intro document hmem
    rcases List.mem_cons.1 hmem with rfl | hmem
    · exact ⟨"one.xml", "<fmtDef id=\"A\"/>".toList, by rfl⟩
    · obtain rfl := List.mem_singleton.1 hmem
      exact ⟨"two.xml", "<kColl><record id=\"A\"/><fmtDef id=\"A\"/></kColl>".toList, by rfl⟩
  exact ⟨h, (ofDocuments_lastWins repeated h).2.1 "A", by decide +kernel, by decide +kernel⟩

end FixedWidth.Schema
