import FixedWidth.Proofs.Chains
import FixedWidth.Proofs.Defects

/-!
# Proofs/Repetitions — which properties repeat, and how often

    chain to a group                     opens            property
    []                                   –                nested
    [record]                             –                nested
    [iCollF times=3, record]             3                list, 3 items
    [iCollF times=3, record times=*]     3, then *        list, any number of items

A type is compiled from the root, from a named group or from the item of a named list
(`MakesType`). Its properties are, one for one and in their order, those of the members that are
reached from the children of that node, and a group is a list if and only if a link of its chain
opens a repetition, with the repetition of the innermost one (`compile_properties`). Other types may
be filled between two members, and entries of other kinds may stand there: neither shows.
-/

namespace FixedWidth.Table

open Naming (sanitize)
open Schema (Node Registry)

/-! ## Nodes that types are made from -/

/-- **What a type with a name is compiled from**: the root, a named group, or what the items of a
named list are. -/
inductive MakesType (registry : Registry) (id : String) : String → Node → Prop where
  | root {node : Node} (found : registry.lookup? id = some node) :
      MakesType registry id (sanitize id) node
  | group {node : Node} {name : String} (held : registry.Holds node)
      (isGroup : node.kind = .recordGroup) (named : node.dataName? = some name) :
      MakesType registry id (sanitize name) node
  | item {list node : Node} {name : String} (held : registry.Holds list)
      (isList : list.kind = .repeatedGroup) (named : list.dataName? = some name)
      (first : itemNode registry list.children = .ok (some node)) :
      MakesType registry id (node.dataName?.elim (sanitize name ++ "Item") sanitize) node

variable {registry : Registry} {id name inType : String} {unfinished : List Nat} {node : Node}
  {body last : Body} {entry : Entry} {entries : List Entry} {type : TypeRef}
  {names names' : List String}

theorem MakesType.holds (h : MakesType registry id name node) : registry.Holds node := by
  cases h with
  | root found => exact Registry.holds_of_lookup? found
  | group held => exact held
  | item held _ _ first => exact holds_of_itemNode (fun child hc => held.child hc) first

/-- An entry that asks for types under their names only. -/
def Entry.Asks (registry : Registry) (id : String) (entry : Entry) : Prop :=
  ∀ name node, entry.request? = some (name, node) → MakesType registry id name node

theorem Entry.isMember_eq (entry : Entry) (type : TypeRef) :
    entry.isMember = (entry.member? type).isSome := by
  cases entry with
  | group _ _ repetition => cases repetition <;> rfl
  | list _ items => cases items <;> rfl
  | _ => rfl

theorem Entry.isMember_of_request? {request : String × Node} (h : entry.request? = some request) :
    entry.isMember := by
  cases entry with
  | group | list => rfl
  | _ => cases h

/-- The entry of a member that is held asks for its type. -/
theorem Declares.asks {outer : Option Repetition} {chain : List Link}
    (h : Declares registry outer (chain, node) entry) (hn : registry.Holds node) :
    entry.Asks registry id := by
  intro typeName body hrequest
  obtain ⟨name, hname, hentry⟩ := h
  cases hkind : node.kind with
  | recordGroup =>
    rw [hkind] at hentry
    subst hentry
    cases hrequest
    exact .group hn hkind hname
  | repeatedGroup =>
    rw [hkind] at hentry
    subst hentry
    rw [itemsOf] at hrequest
    split at hrequest
    · rename_i item hitem
      have hmakes : MakesType registry id _ item := .item hn hkind hname hitem
      split at hrequest <;> cases hrequest
      all_goals
        rename_i hdata
        rwa [hdata] at hmakes
    · cases hrequest
    · cases hrequest
  | _ =>
    rw [hkind] at hentry
    obtain ⟨layout, rfl⟩ := hentry
    cases hrequest

/-- **A walk through held nodes asks for types under their names.** -/
theorem Walks.asks {splicing : List String} {repetition : Option Repetition} {nodes : List Node}
    (h : Walks registry splicing repetition nodes entries)
    (hnodes : ∀ node ∈ nodes, registry.Holds node) : ∀ entry ∈ entries, entry.Asks registry id := by
  refine h.forall_entries hnodes (fun _ hn _ hc => hn.child hc)
    (fun _ _ hl => Registry.holds_of_lookup? hl) (fun repetition following node list hn part => ?_)
    (fun _ _ => nofun) (fun _ _ => nofun)
  intro entry hmem name asked hrequest
  have hfilter := List.mem_filter.2 ⟨hmem, Entry.isMember_of_request? hrequest⟩
  obtain ⟨-, declared, heq, hdeclares⟩ | ⟨-, heq⟩ := roleOf_of_entries part
  · rw [heq, List.mem_singleton] at hfilter
    exact (hfilter ▸ hdeclares).asks hn name asked hrequest
  · rw [heq] at hfilter
    cases hfilter

/-! ## Properties that entries add -/

/-- A property that an entry adds, where types have these names. -/
def Adds (names : List String) (entry : Entry) (property : Property) : Prop :=
  ∃ type m, entry.member? type = some m ∧ property.kind = m.kind ∧ property.place = m.place ∧
    ∀ name node, entry.request? = some (name, node) → names[type.index]? = some name

theorem getElem?_of_prefix {index : Nat} (h : names <+: names')
    (hname : names[index]? = some name) : names'[index]? = some name := by
  obtain ⟨more, rfl⟩ := h
  rwa [List.getElem?_append_left (List.getElem?_eq_some_iff.1 hname).1]

theorem Adds.mono {property : Property} (h : Adds names entry property)
    (hnames : names <+: names') : Adds names' entry property := by
  obtain ⟨type, m, hm, hkind, hplace, hname⟩ := h
  exact ⟨type, m, hm, hkind, hplace, fun name node hrequest =>
    getElem?_of_prefix hnames (hname name node hrequest)⟩

/-- An entry adds its property before those of the entries behind it. -/
theorem Body.exists_adds_cons {rest : List Entry} {properties : List Property}
    (hname : ∀ name node, entry.request? = some (name, node) → names[type.index]? = some name)
    (h : ∃ added, properties = (body.addWith type inType entry).properties ++ added ∧
      List.Forall₂ (Adds names) (rest.filter Entry.isMember) added) :
    ∃ added, properties = body.properties ++ added ∧
      List.Forall₂ (Adds names) ((entry :: rest).filter Entry.isMember) added := by
  obtain ⟨added, hadded, hrest⟩ := h
  rw [properties_addWith, List.append_assoc] at hadded
  refine ⟨_, hadded, ?_⟩
  cases hm : entry.member? type with
  | none =>
    rw [List.filter_cons_of_neg (by simp [entry.isMember_eq type, hm])]
    exact hrest
  | some m =>
    rw [List.filter_cons_of_pos (by simp [entry.isMember_eq type, hm])]
    exact .cons ⟨type, m, hm, rfl, rfl, hname⟩ hrest

/-- The index under which a table finds a name is that of the name. -/
theorem Draft.getElem?_names_of_find? {draft : Draft} {index : Nat}
    (h : draft.find? name = some index) : draft.names[index]? = some name := by
  obtain ⟨hlt, heq, -⟩ := List.findIdx?_eq_some_iff_getElem.1 h
  rw [Draft.names, List.getElem?_map, List.getElem?_eq_getElem hlt, Option.map_some,
    eq_of_beq heq]

/-- **Filling a type adds the properties of its entries**, each with the type that has the name it
asks for. -/
theorem Fills.exists_adds (h : Fills registry unfinished inType body entries last) :
    ∃ added, last.properties = body.properties ++ added ∧
      List.Forall₂ (Adds last.draft.names) (entries.filter Entry.isMember) added := by
  induction h with
  | nil => exact ⟨[], (List.append_nil _).symm, .nil⟩
  | plain request _ ih =>
    exact Body.exists_adds_cons (fun name node hrequest => by cases request.symm.trans hrequest) ih
  | known request found tail ih =>
    refine Body.exists_adds_cons (fun name node hrequest => ?_) ih
    cases request.symm.trans hrequest
    have hnames := tail.names_prefix
    rw [Body.names_addWith] at hnames
    exact getElem?_of_prefix hnames (Draft.getElem?_names_of_find? found)
  | @fresh _ _ begun begunNode body inner last entry rest _ request _ _ fill tail _ ih =>
    have hbegun : (body.draft.reserve begun begunNode.place).names[body.draft.types.length]? =
        some begun := by
      rw [Draft.names_reserve, Draft.names, ← List.length_map, List.getElem?_concat_length]
    have hindex := getElem?_of_prefix
      (fill.names_prefix.trans (fill.names_prefix_of_resumed tail)) hbegun
    have hresumed : ∃ added, last.properties = (body.resume inner).properties ++ added ∧
        List.Forall₂ (Adds last.draft.names) ((entry :: rest).filter Entry.isMember) added :=
      Body.exists_adds_cons (fun name node hrequest => by
        cases request.symm.trans hrequest
        exact hindex) ih
    exact hresumed

/-! ## Properties and members -/

/-- **The property of a member**, given the chain that leads to it and the names of the types. A
group is a list of records of its type, with the repetition of the innermost link that opens one, or
else a nested record. -/
def PropertyOf (names : List String) (reached : List Link × Node) (property : Property) : Prop :=
  property.place = reached.2.place ∧ ∃ name, reached.2.dataName? = some name ∧
    match reached.2.kind with
    | .recordGroup => ∃ target, names[target]? = some (sanitize name) ∧
        property.kind = match innermost? reached.1 with
          | some repetition => .list (.record target) repetition
          | none => .nested target
    | .repeatedGroup => ∃ item, property.kind = .list item (.parse reached.2.times?)
    | _ => ∃ layout, property.kind = .text layout

/-- What the entry of a member adds is the property of the member. -/
theorem Declares.propertyOf {reached : List Link × Node} {property : Property}
    (h : Declares registry none reached entry) (hadds : Adds names entry property) :
    PropertyOf names reached property := by
  obtain ⟨chain, member⟩ := reached
  obtain ⟨name, hname, hentry⟩ := h
  obtain ⟨type, m, hm, hkind, hplace, hindex⟩ := hadds
  dsimp only at hname hentry
  cases hnode : member.kind with
  | recordGroup =>
    simp only [hnode, Option.or_none] at hentry
    subst hentry
    have htarget := hindex (sanitize name) member rfl
    cases hchain : innermost? chain <;> rw [hchain] at hm <;> cases hm <;>
      simp only [PropertyOf, hnode, hchain] <;>
      exact ⟨hplace, name, hname, type.index, htarget, hkind⟩
  | repeatedGroup =>
    simp only [hnode] at hentry
    subst hentry
    simp only [PropertyOf, hnode]
    cases hitems : itemsOf registry name member <;> rw [hitems] at hm <;> cases hm <;>
      exact ⟨hplace, name, hname, _, hkind⟩
  | _ =>
    simp only [hnode] at hentry
    obtain ⟨layout, rfl⟩ := hentry
    cases hm
    simp only [PropertyOf, hnode]
    exact ⟨hplace, name, hname, layout, hkind⟩

/-- Relations that hold item by item hold so one after the other. -/
theorem forall₂_comp {α β γ : Type} {R : α → β → Prop} {S : β → γ → Prop} {T : α → γ → Prop}
    (hcomp : ∀ a b c, R a b → S b c → T a c) {as : List α} {bs : List β} {cs : List γ}
    (h : List.Forall₂ R as bs) (h' : List.Forall₂ S bs cs) : List.Forall₂ T as cs := by
  induction h generalizing cs with
  | nil =>
    cases h'
    exact .nil
  | cons hfirst _ ih =>
    cases h' with
    | cons hfirst' hrest' => exact .cons (hcomp _ _ _ hfirst hfirst') (ih hrest')

/-- **A type with the properties of the members of a body.** -/
def RecordType.HasMembers (registry : Registry) (id : String) (names : List String)
    (type : RecordType) : Prop :=
  ∃ body members, MakesType registry id type.name body ∧ type.place = body.place ∧
    Reaches registry body.id.toList body.children members ∧
    List.Forall₂ (PropertyOf names) members type.properties

/-- The type that is filled with the entries of a node has the properties of its members. -/
theorem hasMembers_of_fills {draft : Draft} (hmakes : MakesType registry id name node)
    (walk : Walks registry node.id.toList none node.children entries)
    (fill : Fills registry unfinished inType (Body.begin draft) entries last)
    (hnames : last.draft.names <+: names) :
    RecordType.HasMembers registry id names ⟨name, last.properties, last.steps, node.place⟩ := by
  obtain ⟨members, hreaches, hdeclares⟩ := walk.exists_reaches
  obtain ⟨added, hadded, hadds⟩ := fill.exists_adds
  have hproperties : last.properties = added := hadded
  refine ⟨node, members, hmakes, rfl, hreaches, ?_⟩
  rw [hproperties]
  exact forall₂_comp (fun _ _ _ hentry hproperty => hentry.propertyOf hproperty) hdeclares
    (hadds.imp fun _ _ hproperty => hproperty.mono hnames)

/-- **The types that a filling adds have the properties of their members.** -/
theorem Fills.exists_hasMembers (h : Fills registry unfinished inType body entries last)
    (hentries : ∀ entry ∈ entries, entry.Asks registry id) (hnames : last.draft.names <+: names) :
    ∃ more, last.draft.types = body.draft.types ++ more ∧
      ∀ type ∈ more, type.HasMembers registry id names := by
  induction h with
  | nil => exact ⟨[], (List.append_nil _).symm, nofun⟩
  | plain _ _ ih | known _ _ _ ih =>
    rw [List.forall_mem_cons] at hentries
    obtain ⟨more, hmore, hmembers⟩ := ih hentries.2 hnames
    exact ⟨more, by rwa [Body.types_addWith] at hmore, hmembers⟩
  | @fresh _ _ name node body inner last entry _ _ request _ walk fill tail ihFill ih =>
    rw [List.forall_mem_cons] at hentries
    have hmakes := hentries.1 name node request
    have hinner := (fill.names_prefix_of_resumed tail).trans hnames
    obtain ⟨inside, hinside, hin⟩ :=
      ihFill (walk.asks fun child hc => hmakes.holds.child hc) hinner
    obtain ⟨behind, hbehind, hout⟩ := ih hentries.2 hnames
    have hresume := body.types_resume_of_eq inner hinside
    have hnew : RecordType.HasMembers registry id names
        ⟨name, inner.properties, inner.steps, node.place⟩ :=
      hasMembers_of_fills hmakes walk fill hinner
    rw [Body.types_addWith, hresume, List.append_assoc] at hbehind
    refine ⟨_, hbehind, ?_⟩
    rw [List.cons_append, List.forall_mem_cons, List.forall_mem_append]
    exact ⟨hnew, hin, hout⟩

/-! ## Tables -/

/-- **Every type of a table has the properties of the members of its body.** -/
theorem Compiles.hasMembers {table : TypeTable} (h : Compiles registry id table) :
    ∀ type ∈ table.types, type.HasMembers registry id table.names := by
  cases h with
  | missing => exact nofun
  | @found node entries body root walk fill =>
    have hmakes : MakesType registry id _ node := .root root
    obtain ⟨more, hbody, hfinish⟩ := fill.types_root
    have hnames : body.draft.names <+: TypeTable.names ⟨(body.finish 0).types, some 0,
        (body.finish 0).diagnostics⟩ := by
      rw [TypeTable.names, hfinish, Draft.names, hbody]
      exact List.prefix_rfl
    obtain ⟨inside, hinside, hin⟩ := fill.exists_hasMembers
      (walk.asks fun child hc => hmakes.holds.child hc) hnames
    have htypes : (body.finish 0).types = _ :=
      (Body.begin Draft.empty).types_resume_of_eq body hinside
    intro type hmem
    rw [htypes, List.mem_append, List.mem_cons] at hmem
    obtain hmem | rfl | hmem := hmem
    · cases hmem
    · exact hasMembers_of_fills hmakes walk fill hnames
    · exact hin type hmem

/-- **The properties of a type are those of the members that are reached from its body.** For every
registry and root, each type of the table is made from a node, and from the children of that node a
list of members with their chains is reached, and no other; a member is in it with a chain if and
only if the chain leads from one of the children to it. The properties of the type are one for one
those of the members: a group is a list of records of its type, with the repetition of the innermost
link of its chain that opens one, and a nested record if there is no such link. -/
theorem compile_properties (registry : Registry) (id : String) :
    ∀ type ∈ (compile registry id).types, ∃ body members,
      MakesType registry id type.name body ∧ type.place = body.place ∧
      (∀ others, Reaches registry body.id.toList body.children others ↔ others = members) ∧
      (∀ chain member, (chain, member) ∈ members ↔
        ∃ child ∈ body.children, Reached registry body.id.toList child chain member) ∧
      List.Forall₂ (PropertyOf (compile registry id).names) members type.properties := by
  intro type hmem
  obtain ⟨body, members, hmakes, hplace, hreaches, hproperties⟩ :=
    (compiles_compile registry id).hasMembers type hmem
  refine ⟨body, members, hmakes, hplace, fun others => ⟨fun h => h.unique hreaches, ?_⟩,
    fun chain member => hreaches.mem_iff, hproperties⟩
  rintro rfl
  exact hreaches

/-! ## A list of rows -/

/-- A row. -/
def row : Node :=
  { Node.ofTag "record" ⟨"r.xml", 3⟩ with attributes := [("dataName", "Row")] }

/-- A group without a name around the row. -/
def rowGroup : Node := { Node.ofTag "record" ⟨"r.xml", 2⟩ with children := [row] }

/-- A list without a name around the group. -/
def rowList : Node :=
  { Node.ofTag "iCollF" ⟨"r.xml", 2⟩ with attributes := [("times", "3")], children := [rowGroup] }

/-- A row behind the list. -/
def lastRow : Node :=
  { Node.ofTag "record" ⟨"r.xml", 4⟩ with attributes := [("dataName", "Last")] }

/-- The definition of both. -/
def rowsRoot : Node :=
  { Node.ofTag "fmtDef" ⟨"r.xml", 1⟩ with id := some "R", children := [rowList, lastRow] }

/-- The registry of the definition. -/
def rows : Registry := .ofDocuments [.ofRoots "r.xml" [rowsRoot]]

/-- The type of the definition. -/
def rowsType : RecordType where
  name := "R"
  properties :=
    [⟨"Row", .list (.record 1) (.fixed 3), false, ⟨"r.xml", 3⟩⟩,
      ⟨"Last", .nested 2, false, ⟨"r.xml", 4⟩⟩]
  steps := [.list 0, .nested 1]
  place := ⟨"r.xml", 1⟩

/-- The row repeats as the list says, and the last one does not. -/
theorem rows_compile_properties :
    rowsType ∈ (compile rows "R").types ∧
      innermost? [.inside rowList, .inside rowGroup] = some (.fixed 3) ∧
      List.Forall₂ (PropertyOf (compile rows "R").names)
        [([.inside rowList, .inside rowGroup], row), ([], lastRow)] rowsType.properties := by
  have hmem : rowsType ∈ (compile rows "R").types := by decide +kernel
  obtain ⟨body, members, hmakes, hplace, hreaches, -, hproperties⟩ :=
    compile_properties rows "R" rowsType hmem
  obtain ⟨path, hpath⟩ := hmakes.holds
  have honly : ∀ entry ∈ Schema.occurrences rows.roots,
      rowsType.place = entry.2.place → entry.1 = ⟨0, []⟩ := by decide +kernel
  cases honly _ (Schema.mem_occurrences hpath) hplace
  cases hpath
  have hrow : Reaches rows ["R"] rowGroup.children [([], row)] := .member rfl .nil
  have hinside : Reaches rows ["R"] rowList.children [([.inside rowGroup], row)] :=
    .inside rfl hrow .nil
  have hall : Reaches rows ["R"] rowsRoot.children
      [([.inside rowList, .inside rowGroup], row), ([], lastRow)] :=
    .inside rfl hinside (.member rfl .nil)
  cases (hreaches _).1 hall
  exact ⟨hmem, by rfl, hproperties⟩

end FixedWidth.Table
