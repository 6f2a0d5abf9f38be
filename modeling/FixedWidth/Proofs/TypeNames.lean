import FixedWidth.Proofs.Filling

/-!
# Proofs/TypeNames — every compilation ends, with names from the forest

A type is made from a node of the forest and gets its name from the root identifier, from the
`dataName` of that node, or from that of the list whose items it describes (`IsTypeName`). There
are finitely many such names and an unfinished type has one that no other type has, so the nesting
of fillings is bounded: `compiles_compile` derives the run that `compile` computes.
-/

namespace FixedWidth.Table

open Naming (sanitize)
open Schema (Kind Node Provenance Registry)

variable {registry : Registry} {id name : String} {node item : Node}

/-! ## Names and nodes that entries ask for -/

/-- A type name of a table for the root `id`: the identifier, the `dataName` of a node, or that of
a repeated group with `Item` behind it. -/
def IsTypeName (registry : Registry) (id name : String) : Prop :=
  name = sanitize id ∨
  (∃ node dataName, registry.Holds node ∧ node.dataName? = some dataName ∧
    name = sanitize dataName) ∨
  ∃ node dataName, registry.Holds node ∧ node.kind = .repeatedGroup ∧
    node.dataName? = some dataName ∧ name = sanitize dataName ++ "Item"

/-- What the entry asks for, if anything, is a node of the forest under a type name. -/
def Entry.FromForest (registry : Registry) (id : String) (entry : Entry) : Prop :=
  ∀ name node, entry.request? = some (name, node) →
    IsTypeName registry id name ∧ registry.Holds node

theorem fromForest_of_request?_none {entry : Entry} (h : entry.request? = none) :
    entry.FromForest registry id := by
  intro name node hr
  simp [h] at hr

/-- Items are made from a child of the list or from a registered node. -/
theorem holds_of_itemNode {children : List Node} (hc : ∀ child ∈ children, registry.Holds child)
    (h : itemNode registry children = .ok (some item)) : registry.Holds item := by
  fun_induction itemNode registry children with
  | case1 => cases h
  | case2 child rest =>
    cases h
    exact hc item List.mem_cons_self
  | case3 child rest _ _ _ ih => exact ih (fun n hn => hc n (List.mem_cons_of_mem _ hn)) h
  | case4 child rest _ _ reference _ target hl =>
    cases h
    exact Registry.holds_of_lookup? hl
  | case5 => cases h
  | case6 child rest _ _ ih => exact ih (fun n hn => hc n (List.mem_cons_of_mem _ hn)) h

theorem fromForest_list (hn : registry.Holds node) (hk : node.kind = .repeatedGroup)
    (hd : node.dataName? = some name) (repetition : Repetition) (place : Provenance) :
    (Entry.list name (itemsOf registry name node) repetition place).FromForest registry id := by
  intro typeName body hr
  rw [itemsOf] at hr
  cases hi : itemNode registry node.children with
  | error e => simp [hi, Entry.request?] at hr
  | ok item? =>
    cases item? with
    | none => simp [hi, Entry.request?] at hr
    | some item =>
      have hitem := holds_of_itemNode (fun child hc => hn.child hc) hi
      cases hname : item.dataName? with
      | some itemName =>
        simp only [hi, hname, Entry.request?, Option.some.injEq, Prod.mk.injEq] at hr
        obtain ⟨rfl, rfl⟩ := hr
        exact ⟨Or.inr (Or.inl ⟨item, itemName, hitem, hname, rfl⟩), hitem⟩
      | none =>
        simp only [hi, hname, Entry.request?, Option.some.injEq, Prod.mk.injEq] at hr
        obtain ⟨rfl, rfl⟩ := hr
        exact ⟨Or.inr (Or.inr ⟨node, name, hn, hk, hd, rfl⟩), hitem⟩

/-- **The entries of a held node ask for held nodes.** -/
theorem fromForest_of_partOf {repetition : Option Repetition} {following : List Node}
    {list : List Entry} (hn : registry.Holds node)
    (hp : partOf registry repetition following node = .entries list) :
    ∀ entry ∈ list, entry.FromForest registry id := by
  intro entry hentry
  obtain ⟨name, hd, rfl⟩ | ⟨name, hk, hd, rfl⟩ | ⟨name, rfl⟩ | ⟨width, -, rfl⟩ | hpad :=
    mem_of_partOf hp hentry
  · rintro typeName body hr
    cases hr
    exact ⟨Or.inr (Or.inl ⟨node, name, hn, hd, rfl⟩), hn⟩
  · exact fromForest_list hn hk hd _ _
  · exact fromForest_of_request?_none rfl
  · exact fromForest_of_request?_none rfl
  · obtain ⟨width, -, rfl⟩ | ⟨raw, rfl⟩ := eq_of_mem_paddingEntries hpad <;>
      exact fromForest_of_request?_none rfl

/-- **A walk through held nodes asks for held nodes.** -/
theorem Walks.fromForest {splicing : List String} {repetition : Option Repetition}
    {nodes : List Node} {entries : List Entry}
    (h : Walks registry splicing repetition nodes entries)
    (hn : ∀ node ∈ nodes, registry.Holds node) :
    ∀ entry ∈ entries, entry.FromForest registry id :=
  h.forall_entries hn (fun _ hnode _ hc => hnode.child hc)
    (fun _ _ hl => Registry.holds_of_lookup? hl)
    (fun _ _ _ _ hnode hp => fromForest_of_partOf hnode hp)
    (fun _ _ => fromForest_of_request?_none rfl) (fun _ _ => fromForest_of_request?_none rfl)

/-! ## Names are used up -/

/-- The type names that a node of the forest can give. -/
def namesFrom (node : Node) : List String :=
  match node.dataName? with
  | some dataName => [sanitize dataName, sanitize dataName ++ "Item"]
  | none => []

/-- All type names of tables for the root `id`. -/
def typeNames (registry : Registry) (id : String) : Finset String :=
  (sanitize id :: ((Schema.occurrences registry.roots).map Prod.snd).flatMap namesFrom).toFinset

theorem IsTypeName.mem_typeNames (h : IsTypeName registry id name) :
    name ∈ typeNames registry id := by
  rw [typeNames, List.mem_toFinset, List.mem_cons]
  obtain rfl | ⟨node, dataName, hn, hd, rfl⟩ | ⟨node, dataName, hn, -, hd, rfl⟩ := h
  · exact Or.inl rfl
  · exact Or.inr (List.mem_flatMap.2 ⟨node, hn.mem_occurrences, by simp [namesFrom, hd]⟩)
  · exact Or.inr (List.mem_flatMap.2 ⟨node, hn.mem_occurrences, by simp [namesFrom, hd]⟩)

theorem card_typeNames_lt (registry : Registry) (id : String) :
    (typeNames registry id).card < typeNameBound registry := by
  have htwo : ∀ nodes : List Node, (nodes.flatMap namesFrom).length ≤ 2 * nodes.length := by
    intro nodes
    induction nodes with
    | nil => simp
    | cons node rest ih =>
      have hnode : (namesFrom node).length ≤ 2 := by rw [namesFrom]; split <;> simp
      rw [List.flatMap_cons, List.length_append, List.length_cons]
      omega
  have hall := htwo ((Schema.occurrences registry.roots).map Prod.snd)
  have hcard := List.toFinset_card_le
    (sanitize id :: ((Schema.occurrences registry.roots).map Prod.snd).flatMap namesFrom)
  rw [List.length_cons] at hcard
  rw [List.length_map] at hall
  rw [typeNames, typeNameBound]
  omega

/-- The names that no type of the table has yet. -/
def freshNames (registry : Registry) (id : String) (types : List RecordType) : Finset String :=
  typeNames registry id \ (types.map (·.name)).toFinset

theorem card_freshNames_le {types types' : List RecordType} (h : types <+: types') :
    (freshNames registry id types').card ≤ (freshNames registry id types).card := by
  refine Finset.card_le_card (Finset.sdiff_subset_sdiff subset_rfl fun name hname => ?_)
  rw [List.mem_toFinset] at hname ⊢
  exact (h.map (·.name)).subset hname

theorem Draft.find?_eq_none_iff {draft : Draft} :
    draft.find? name = none ↔ name ∉ draft.types.map (·.name) := by
  simp [find?, List.findIdx?_eq_none_iff]

theorem card_freshNames_reserve_lt {draft : Draft} (hname : IsTypeName registry id name)
    (absent : draft.find? name = none) (place : Provenance) :
    (freshNames registry id (draft.reserve name place).types).card
      < (freshNames registry id draft.types).card := by
  have hmem : name ∈ freshNames registry id draft.types := by
    rw [freshNames, Finset.mem_sdiff, List.mem_toFinset]
    exact ⟨hname.mem_typeNames, Draft.find?_eq_none_iff.1 absent⟩
  have hadd : ((draft.reserve name place).types.map (·.name)).toFinset
      = insert name (draft.types.map (·.name)).toFinset := by
    ext other
    simp [Draft.reserve]
  rw [freshNames, hadd, Finset.sdiff_insert]
  exact Finset.card_erase_lt_of_mem hmem

/-! ## Every compilation comes to an end -/

/-- **Fuel for each name that is not used up is enough.** The outer induction is on the nesting of
types, the inner one on the entries of a body. -/
theorem fills_foldl (id : String) (fuel : Nat) (unfinished : List Nat) (inType : String)
    (entries : List Entry) (body : Body)
    (hentries : ∀ entry ∈ entries, entry.FromForest registry id)
    (hfuel : (freshNames registry id body.draft.types).card < fuel) :
    Fills registry unfinished inType body entries
      (entries.foldl (Body.addEntry (compileType registry fuel unfinished) inType) body) := by
  induction fuel generalizing unfinished inType entries body with
  | zero => omega
  | succ fuel ihFuel =>
    induction entries generalizing body with
    | nil => exact .nil
    | cons entry rest ih =>
      rw [List.forall_mem_cons] at hentries
      rw [List.foldl_cons]
      cases hr : entry.request? with
      | none =>
        rw [Body.addEntry_of_request?_none hr ⟨0, false⟩]
        exact .plain hr (ih _ hentries.2 (by rwa [Body.types_addWith]))
      | some request =>
        obtain ⟨name, node⟩ := request
        obtain ⟨hname, hnode⟩ := hentries.1 name node hr
        rw [Body.addEntry_of_request? hr, compileType]
        cases hf : body.draft.find? name with
        | some index => exact .known hr hf (ih _ hentries.2 (by rwa [Body.types_addWith]))
        | none =>
          have hwalk := walks_expand registry node
          have hreserve := card_freshNames_reserve_lt hname hf node.place
          have hinner := ihFuel (body.draft.types.length :: unfinished) name
            (expand registry node) (Body.begin (body.draft.reserve name node.place))
            (hwalk.fromForest fun child hc => hnode.child hc)
            (hreserve.trans_le (Nat.le_of_lt_succ hfuel))
          refine .fresh hr hf hwalk hinner (ih _ hentries.2 ?_)
          obtain ⟨more, -, hresume⟩ := Body.types_resume _ _ hinner.prefix_types
          rw [Body.types_addWith, hresume]
          exact (card_freshNames_le (List.prefix_append _ _)).trans_lt hfuel

/-- **The table of a root is the result of a run that comes to an end.** -/
theorem compiles_compile (registry : Registry) (id : String) :
    Compiles registry id (compile registry id) := by
  rw [compile]
  cases hl : registry.lookup? id with
  | none => exact .missing hl
  | some node =>
    obtain ⟨fuel, hfuel⟩ : ∃ fuel, typeNameBound registry = fuel + 1 := ⟨_, rfl⟩
    have hwalk := walks_expand registry node
    have hname : IsTypeName registry id (sanitize id) := Or.inl rfl
    have hreserve := card_freshNames_reserve_lt hname
      (Draft.find?_eq_none_iff.2 List.not_mem_nil : Draft.empty.find? _ = none) node.place
    have hempty : (freshNames registry id Draft.empty.types).card ≤ fuel :=
      (Finset.card_le_card Finset.sdiff_subset).trans
        (Nat.le_of_lt_succ ((card_typeNames_lt registry id).trans_eq hfuel))
    have hfill := fills_foldl id fuel [0] (sanitize id) (expand registry node)
      (Body.begin (Draft.empty.reserve (sanitize id) node.place))
      (hwalk.fromForest fun child hc => (Registry.holds_of_lookup? hl).child hc)
      (hreserve.trans_le hempty)
    rw [hfuel]
    exact .found hl hwalk hfill

/-! ## Where type names come from -/

/-- **Tables have type names only.** -/
theorem Compiles.isTypeName {table : TypeTable} (h : Compiles registry id table) :
    ∀ type ∈ table.types, IsTypeName registry id type.name := by
  have inv : Invariant registry (fun name node => IsTypeName registry id name ∧ registry.Holds node)
      (Entry.FromForest registry id) (fun _ _ _ => True)
      (fun type => IsTypeName registry id type.name) := {
    request := fun _ name node hentry hr => hentry name node hr
    walk := fun _ _ _ hnode walk => walk.fromForest fun child hc => hnode.2.child hc
    empty := trivial
    add := fun _ _ _ _ _ _ => trivial
    type := fun _ _ _ _ _ hnode _ => hnode.1 }
  exact h.forall_types inv fun node hl => ⟨Or.inl rfl, Registry.holds_of_lookup? hl⟩

/-- **Compiling ends, and names types by the forest.** For every registry and root there is exactly
one run that comes to an end, with the table that `compile` gives; each type of it is named by the
root identifier, by the `dataName` of a node, or by that of a repeated group followed by `Item`. -/
theorem compile_ends (registry : Registry) (id : String) :
    (∀ table, Compiles registry id table ↔ table = compile registry id) ∧
      ∀ type ∈ (compile registry id).types, IsTypeName registry id type.name := by
  have hrun := compiles_compile registry id
  refine ⟨fun table => ⟨fun h => h.unique hrun, ?_⟩, hrun.isTypeName⟩
  rintro rfl
  exact hrun

end FixedWidth.Table
