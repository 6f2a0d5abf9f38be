import FixedWidth.Proofs.References
import FixedWidth.Proofs.Replacement
import Mathlib.Data.List.Sort

/-!
# Proofs/DocumentOrder — the order of documents does not matter

    documents ──register──▸ forest and paths ──look up──▸ nodes ──compile──▸ table

The order of documents decides every path, but a look-up finds what the last document with the
identifier finds in itself (`lookup?_ofDocuments`). Where no two documents share an identifier there
is one such document at most, in any order. Compiling looks nodes up and uses a registry for nothing
else (`compile_congr`), so that the tables are the same (`ofDocuments_perm`).
-/

namespace FixedWidth.Schema

variable {registry : Registry} {document : Document} {documents documents' : List Document}
  {id : String} {roots : List Node} {path : Path} {node : Node}

/-! ## Looking up in documents -/

/-- The identifiers of a document. -/
def Document.identifiers (document : Document) : List String := NameMap.names document.index.ids

theorem Document.mem_identifiers_of_lookup? (h : document.lookup? id = some node) :
    id ∈ document.identifiers := by
  obtain ⟨path, hpath, -⟩ := Option.bind_eq_some_iff.1 h
  exact NameMap.mem_names_of_get? hpath

/-- A path of a document leads to its node behind other roots as well. -/
theorem Path.resolve?_offset (path : Path) (roots more : List Node) :
    (path.offset roots.length).resolve? (roots ++ more) = path.resolve? more := by
  rw [resolve?, resolve?, offset, List.getElem?_append_right (Nat.le_add_left _ _),
    Nat.add_sub_cancel]

/-- **A document that is registered is looked up first.** -/
theorem Registry.lookup?_registerDocument (h : registry.index.Follows registry.roots)
    (h' : document.index.Follows document.roots) (id : String) :
    (registry.registerDocument document).lookup? id =
      (document.lookup? id).or (registry.lookup? id) := by
  have hfound : ∀ path, NameMap.get? registry.index.ids id = some path →
      path.resolve? (registry.roots ++ document.roots) = path.resolve? registry.roots := by
    intro path hpath
    obtain ⟨node, hnode, -⟩ := h.exists_of_get? hpath
    exact (Path.resolve?_append hnode _).trans hnode.symm
  rw [lookup?, (h.registerDocument h').get?_eq, roots_registerDocument, carriers_append,
    List.getLast?_append, List.getLast?_map, ← h.get?_eq, ← h'.get?_eq, Document.lookup?, lookup?]
  cases hget : NameMap.get? document.index.ids id with
  | some path =>
    -- the path leads somewhere, so that the registry is not asked
    rw [h'.get?_eq] at hget
    obtain ⟨node, hnode, -⟩ := mem_carriers_iff.1 (List.mem_of_getLast? hget)
    rw [Option.map_some, Option.some_or, Option.bind_some, Option.bind_some, hnode, Option.some_or,
      resolve?, roots_registerDocument, Path.resolve?_offset, hnode]
  | none =>
    rw [Option.map_none, Option.none_or, Option.bind_none, Option.none_or]
    cases hold : NameMap.get? registry.index.ids id with
    | none => rfl
    | some path => exact hfound path hold

/-- **An identifier names what it names in the last document that has it.** -/
theorem Registry.lookup?_ofDocuments
    (h : ∀ document ∈ documents, ∃ source text, Document.parse source text = .ok document)
    (id : String) :
    (ofDocuments documents).lookup? id = documents.reverse.findSome? (·.lookup? id) := by
  induction documents using List.reverseRecOn with
  | nil => rfl
  | append_singleton documents last ih =>
    rw [List.forall_mem_append, List.forall_mem_singleton] at h
    obtain ⟨source, text, hlast⟩ := h.2
    have hfollows := Document.follows_ofRoots source last.roots
    rw [← Document.eq_ofRoots_of_parse hlast] at hfollows
    rw [ofDocuments, List.foldl_append, ← ofDocuments, List.foldl_cons, List.foldl_nil,
      lookup?_registerDocument (follows_ofDocuments h.1) hfollows, ih h.1, List.reverse_append,
      List.reverse_singleton, List.singleton_append, List.findSome?_cons]
    cases last.lookup? id <;> rfl

/-! ## Documents in another order -/

/-- Where at most one item has an answer, the order of the items does not matter. -/
theorem findSome?_perm {α β : Type} {f : α → Option β} {list list' : List α}
    (hperm : list.Perm list') (h : list.Pairwise fun a b => f a = none ∨ f b = none) :
    list.findSome? f = list'.findSome? f := by
  induction hperm with
  | nil => rfl
  | cons a _ ih => rw [List.findSome?_cons, List.findSome?_cons, ih (List.pairwise_cons.1 h).2]
  | swap a b rest =>
    have hone := (List.pairwise_cons.1 h).1 a List.mem_cons_self
    rw [List.findSome?_cons, List.findSome?_cons, List.findSome?_cons, List.findSome?_cons]
    obtain hb | ha := hone
    · rw [hb]
    · rw [ha]
  | trans hperm _ ih ih' =>
    exact (ih h).trans (ih' ((hperm.pairwise_iff fun hone => hone.symm).1 h))

/-- **Documents without common identifiers are looked up alike in any order.** -/
theorem Registry.lookup?_perm
    (h : ∀ document ∈ documents, ∃ source text, Document.parse source text = .ok document)
    (hdisjoint : documents.Pairwise fun a b => a.identifiers.Disjoint b.identifiers)
    (hperm : documents.Perm documents') (id : String) :
    (ofDocuments documents).lookup? id = (ofDocuments documents').lookup? id := by
  have hone : documents.Pairwise fun a b => a.lookup? id = none ∨ b.lookup? id = none := by
    refine hdisjoint.imp fun {a b} hab => ?_
    cases ha : a.lookup? id with
    | none => exact Or.inl rfl
    | some node =>
      cases hb : b.lookup? id with
      | none => exact Or.inr rfl
      | some other =>
        exact absurd (Document.mem_identifiers_of_lookup? hb)
          (hab (Document.mem_identifiers_of_lookup? ha))
  have hperm' : documents.reverse.Perm documents'.reverse :=
    (List.reverse_perm _).trans (hperm.trans (List.reverse_perm _).symm)
  rw [lookup?_ofDocuments h, lookup?_ofDocuments fun document hmem => h document
    (hperm.mem_iff.2 hmem)]
  exact findSome?_perm hperm' (List.pairwise_reverse.2 (hone.imp Or.symm))

/-- The identifiers of a registry are those that are found, in order. -/
theorem IdIndex.Follows.mem_identifiers_iff (h : registry.index.Follows registry.roots) :
    id ∈ registry.identifiers ↔ (registry.lookup? id).isSome := by
  rw [← (h.lastWins id).contains_iff]
  refine ⟨NameMap.isSome_get?_of_mem_names, fun hcontains => ?_⟩
  obtain ⟨path, hpath⟩ := Option.isSome_iff_exists.1 hcontains
  exact NameMap.mem_names_of_get? hpath

/-- Registries with the same look-ups have the same identifiers. -/
theorem IdIndex.Follows.identifiers_eq {registry' : Registry}
    (h : registry.index.Follows registry.roots) (h' : registry'.index.Follows registry'.roots)
    (hlookup : ∀ id, registry.lookup? id = registry'.lookup? id) :
    registry.identifiers = registry'.identifiers := by
  refine List.Pairwise.eq_of_mem_iff (h.ordered.map _ fun _ _ => id)
    (h'.ordered.map _ fun _ _ => id) fun other => ?_
  rw [h.mem_identifiers_iff, h'.mem_identifiers_iff, hlookup]

end FixedWidth.Schema

namespace FixedWidth.Table

open Schema (Document Registry)

/-- A table depends on what is looked up. -/
theorem compile_congr {registry registry' : Registry}
    (h : ∀ id, registry.lookup? id = registry'.lookup? id) (id : String) :
    compile registry id = compile registry' id :=
  compile_eq_of_sameTargets (fun reference _ => h reference) (h id)

/-- **The order of documents does not matter**, if no two of them share an identifier: the
identifiers are the same, they name the same nodes, and every root has the same table. -/
theorem ofDocuments_perm {documents documents' : List Document}
    (hparse : ∀ document ∈ documents, ∃ source text, Document.parse source text = .ok document)
    (hdisjoint : documents.Pairwise fun a b => a.identifiers.Disjoint b.identifiers)
    (hperm : documents.Perm documents') :
    (Registry.ofDocuments documents).identifiers = (Registry.ofDocuments documents').identifiers ∧
      (∀ id, (Registry.ofDocuments documents).lookup? id =
        (Registry.ofDocuments documents').lookup? id) ∧
      ∀ id, compile (Registry.ofDocuments documents) id =
        compile (Registry.ofDocuments documents') id := by
  have hlookup := Registry.lookup?_perm hparse hdisjoint hperm
  have hfollows := Registry.follows_ofDocuments hparse
  have hfollows' := Registry.follows_ofDocuments fun document hmem =>
    hparse document (hperm.mem_iff.2 hmem)
  exact ⟨hfollows.identifiers_eq hfollows' hlookup, hlookup, compile_congr hlookup⟩

/-- A receipt has one table, whether its lines are registered behind it or before it. -/
theorem receipts_perm :
    (∀ document ∈ receipts, ∃ source text, Document.parse source text = .ok document) ∧
      receipts.Pairwise (fun a b => a.identifiers.Disjoint b.identifiers) ∧
      (compile (Registry.ofDocuments receipts) "O").names = ["O", "R"] ∧
      compile (Registry.ofDocuments receipts) "O" =
        compile (Registry.ofDocuments receipts.reverse) "O" := by
  have hparse : ∀ document ∈ receipts, ∃ source text,
      Document.parse source text = .ok document := by
    rw [receipts, List.forall_mem_cons, List.forall_mem_singleton]
    exact ⟨⟨"r.xml", "<fmtDef id=\"O\"><refFmt refId=\"L\"/></fmtDef>".toList, by rfl⟩,
      "r.xml", ("<any id=\"L\" times=\"3\"><record dataName=\"R\">" ++
        "<fString dataName=\"F\"/><Decor length=\"4\"/></record></any>").toList, by rfl⟩
  have hdisjoint : receipts.Pairwise fun a b => a.identifiers.Disjoint b.identifiers := by
    simp [receipts, show (Document.ofRoots "r.xml" [receipt]).identifiers = ["O"] from rfl,
      show (Document.ofRoots "r.xml" [receiptLines]).identifiers = ["L"] from rfl]
  exact ⟨hparse, hdisjoint, by decide +kernel,
    (ofDocuments_perm hparse hdisjoint receipts.reverse_perm.symm).2.2 "O"⟩

end FixedWidth.Table
