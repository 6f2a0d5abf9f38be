import FixedWidth.Proofs.TypeNames

/-!
# Proofs/References — what a registry is asked for

    nodes of the forest ──references──▸ identifiers ──look-up──▸ nodes of the forest

Compiling asks a registry for the root and for what the reference nodes of its forest name, however
far it gets: every node that it comes to is held by the forest (`Walks.fromForest`). So two
registries that give the same answers to these questions give the same table
(`compile_eq_of_sameTargets`), whatever else they hold.
-/

namespace FixedWidth.Schema.Registry

/-- A reference node of the forest names the identifier. -/
def Refers (registry : Registry) (reference : String) : Prop :=
  ∃ node, registry.Holds node ∧ node.kind = .reference ∧ node.refId = some reference

/-- The references of one registry lead to the same nodes in the other. -/
def SameTargets (registry registry' : Registry) : Prop :=
  ∀ reference, registry.Refers reference → registry.lookup? reference = registry'.lookup? reference

end FixedWidth.Schema.Registry

namespace FixedWidth.Table

open Schema (Node Registry)

variable {registry registry' : Registry} {id : String}

/-! ## Single nodes -/

theorem itemNode_eq_of_sameTargets (h : registry.SameTargets registry') {nodes : List Node}
    (hn : ∀ node ∈ nodes, registry.Holds node) :
    itemNode registry nodes = itemNode registry' nodes := by
  induction nodes with
  | nil => rfl
  | cons node rest ih =>
    rw [List.forall_mem_cons] at hn
    have hrest := ih hn.2
    simp only [itemNode, hrest]
    split
    · rfl
    · split
      · rename_i hkind
        cases href : node.refId with
        | none => rfl
        | some reference => simp only [h reference ⟨node, hn.1, hkind, href⟩]
      · rfl

/-- The part of a node depends on what the references among its children lead to. -/
theorem partOf_eq_of_sameTargets (h : registry.SameTargets registry') {node : Node}
    (hn : registry.Holds node) (repetition : Option Repetition) (following : List Node) :
    partOf registry' repetition following node = partOf registry repetition following node := by
  simp only [partOf, itemsOf, itemNode_eq_of_sameTargets h fun _ hc => hn.child hc]

theorem refers_of_partOf {node : Node} (hn : registry.Holds node) {repetition : Option Repetition}
    {following : List Node} {reference : String}
    (part : partOf registry repetition following node = .spliced reference) :
    registry.Refers reference :=
  ⟨node, hn, reference_of_partOf part⟩

/-! ## Walks, fillings and runs -/

/-- **A walk through held nodes** is one in every registry whose references lead to the same
nodes. -/
theorem Walks.of_sameTargets (h : registry.SameTargets registry') {splicing : List String}
    {repetition : Option Repetition} {nodes : List Node} {entries : List Entry}
    (walk : Walks registry splicing repetition nodes entries)
    (hn : ∀ node ∈ nodes, registry.Holds node) :
    Walks registry' splicing repetition nodes entries := by
  induction walk with
  | nil => exact .nil
  | entries part _ ih =>
    rw [List.forall_mem_cons] at hn
    exact .entries ((partOf_eq_of_sameTargets h hn.1 ..).trans part) (ih hn.2)
  | opened part _ _ ihBody ih =>
    rw [List.forall_mem_cons] at hn
    have hbody := ihBody fun _ hc => hn.1.child hc
    exact .opened ((partOf_eq_of_sameTargets h hn.1 ..).trans part) hbody (ih hn.2)
  | cycle part isOpen _ ih =>
    rw [List.forall_mem_cons] at hn
    exact .cycle ((partOf_eq_of_sameTargets h hn.1 ..).trans part) isOpen (ih hn.2)
  | unresolved part isNew missing _ ih =>
    rw [List.forall_mem_cons] at hn
    have hsame := h _ (refers_of_partOf hn.1 part)
    exact .unresolved ((partOf_eq_of_sameTargets h hn.1 ..).trans part) isNew
      (hsame.symm.trans missing) (ih hn.2)
  | spliced part isNew found _ _ ihBody ih =>
    rw [List.forall_mem_cons] at hn
    have hsame := h _ (refers_of_partOf hn.1 part)
    have hbody := ihBody fun _ hc => (Registry.holds_of_lookup? found).child hc
    exact .spliced ((partOf_eq_of_sameTargets h hn.1 ..).trans part) isNew
      (hsame.symm.trans found) hbody (ih hn.2)

theorem Fills.of_sameTargets (h : registry.SameTargets registry') {unfinished : List Nat}
    {inType : String} {body last : Body} {entries : List Entry}
    (fill : Fills registry unfinished inType body entries last)
    (hentries : ∀ entry ∈ entries, entry.FromForest registry id) :
    Fills registry' unfinished inType body entries last := by
  induction fill with
  | nil => exact .nil
  | plain request _ ih =>
    rw [List.forall_mem_cons] at hentries
    exact .plain request (ih hentries.2)
  | known request found _ ih =>
    rw [List.forall_mem_cons] at hentries
    exact .known request found (ih hentries.2)
  | @fresh _ _ _ node _ _ _ _ _ _ request absent walk _ _ ihFill ih =>
    rw [List.forall_mem_cons] at hentries
    have hchildren := fun child (hc : child ∈ node.children) => (hentries.1 _ _ request).2.child hc
    exact .fresh request absent (walk.of_sameTargets h hchildren)
      (ihFill (walk.fromForest hchildren)) (ih hentries.2)

theorem Compiles.of_sameTargets (h : registry.SameTargets registry')
    (hroot : registry.lookup? id = registry'.lookup? id) {table : TypeTable}
    (run : Compiles registry id table) : Compiles registry' id table := by
  cases run with
  | missing absent => exact .missing (hroot.symm.trans absent)
  | @found node entries _ root walk fill =>
    have hchildren := fun child (hc : child ∈ node.children) =>
      (Registry.holds_of_lookup? root).child hc
    have hentries : ∀ entry ∈ entries, entry.FromForest registry id := walk.fromForest hchildren
    exact .found (hroot.symm.trans root) (walk.of_sameTargets h hchildren)
      (fill.of_sameTargets h hentries)

/-- **A table depends on what the root and the references lead to**: not on where nodes stand, nor
on which ones nothing refers to. -/
theorem compile_eq_of_sameTargets (h : registry.SameTargets registry')
    (hroot : registry.lookup? id = registry'.lookup? id) :
    compile registry id = compile registry' id :=
  ((compiles_compile registry id).of_sameTargets h hroot).unique (compiles_compile registry' id)

end FixedWidth.Table
