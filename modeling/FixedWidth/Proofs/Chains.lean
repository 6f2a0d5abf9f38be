import FixedWidth.Proofs.Walk
import Mathlib.Data.List.Forall2

/-!
# Proofs/Chains — the members of a body, each with the chain that leads to it

    iCollF times=3                               ──▸ Row   by [inside iCollF, inside record]
      record
        record dataName=Row
    refFmt refId=B, where B is a fmtDef times=*  ──▸ Tail  by [spliced B]
      record dataName=Tail

A member of a body is a named group, list or field. It is reached through containers and through the
targets of references (`Reached`), and the members of a body in their order are those that are
reached (`Reaches`, `Reaches.mem_iff`). A walk hands a repetition down from node to node; what it
makes of each member is decided by the innermost link of the chain that opens one
(`Walks.exists_reaches`).
-/

namespace FixedWidth.Table

open Schema (Kind Node Registry)

/-! ## Links -/

/-- What a node among the siblings of a body is for the members of the body. -/
inductive Role where
  /-- A member. -/
  | member
  /-- A container of other nodes. -/
  | container
  /-- A reference. -/
  | reference (id : String)
  /-- Nothing. -/
  | none
  deriving DecidableEq, Repr

/-- The role of a node: groups, lists and fields with a name are members. -/
def roleOf (node : Node) : Role :=
  match node.kind with
  | .recordGroup | .repeatedGroup => if node.dataName?.isSome then .member else .container
  | .scalarField _ => if node.dataName?.isSome then .member else .none
  | .formatDef | .generic => .container
  | .reference => node.refId.elim .none .reference
  | .constant | .padding | .decorator => .none

/-- One step on the way to a member. -/
inductive Link where
  /-- Into a container. -/
  | inside (container : Node)
  /-- To the target of a reference. -/
  | spliced (target : Node)
  deriving Repr

/-- The repetition that a link opens. A repeated group that is a container always opens one, and any
other node only if it declares one. -/
def Link.opens : Link → Option Repetition
  | inside container =>
    if container.kind = .repeatedGroup then some (.parse container.times?)
    else container.times?.map fun times => .parse (some times)
  | spliced target => target.times?.map fun times => .parse (some times)

/-- **The repetition at the end of a chain**: that of the innermost link that opens one. -/
def innermost? (chain : List Link) : Option Repetition := chain.reverse.findSome? Link.opens

theorem innermost?_cons (link : Link) (chain : List Link) :
    innermost? (link :: chain) = (innermost? chain).or link.opens := by
  rw [innermost?, List.reverse_cons, List.findSome?_append, List.findSome?_singleton, ← innermost?]

/-- A repetition is handed down into a node that declares none. -/
theorem transparentRepetition_eq (node : Node) (outer : Option Repetition) :
    transparentRepetition node outer =
      (node.times?.map fun times => Repetition.parse (some times)).or outer := by
  rw [transparentRepetition]
  cases node.times? <;> rfl

/-! ## Members that are reached -/

/-- **A member that is reached** from a node of a body through a chain of links, where `splicing`
holds the references that are being replaced. -/
inductive Reached (registry : Registry) : List String → Node → List Link → Node → Prop where
  | member {splicing : List String} {node : Node} (role : roleOf node = .member) :
      Reached registry splicing node [] node
  | inside {splicing : List String} {node child member : Node} {chain : List Link}
      (role : roleOf node = .container) (among : child ∈ node.children)
      (further : Reached registry splicing child chain member) :
      Reached registry splicing node (.inside node :: chain) member
  | spliced {splicing : List String} {node target child member : Node} {id : String}
      {chain : List Link} (role : roleOf node = .reference id) (isNew : id ∉ splicing)
      (found : registry.lookup? id = some target) (among : child ∈ target.children)
      (further : Reached registry (id :: splicing) child chain member) :
      Reached registry splicing node (.spliced target :: chain) member

/-- Members that are reached through one more link. -/
def behind (link : Link) (members : List (List Link × Node)) : List (List Link × Node) :=
  members.map fun (chain, member) => (link :: chain, member)

/-- **The members of a body in their order**, with the chains that lead to them. -/
inductive Reaches (registry : Registry) :
    List String → List Node → List (List Link × Node) → Prop where
  | nil {splicing : List String} : Reaches registry splicing [] []
  | member {splicing : List String} {node : Node} {rest : List Node}
      {more : List (List Link × Node)} (role : roleOf node = .member)
      (tail : Reaches registry splicing rest more) :
      Reaches registry splicing (node :: rest) (([], node) :: more)
  | inside {splicing : List String} {node : Node} {rest : List Node}
      {members more : List (List Link × Node)} (role : roleOf node = .container)
      (body : Reaches registry splicing node.children members)
      (tail : Reaches registry splicing rest more) :
      Reaches registry splicing (node :: rest) (behind (.inside node) members ++ more)
  | spliced {splicing : List String} {node target : Node} {rest : List Node} {id : String}
      {members more : List (List Link × Node)} (role : roleOf node = .reference id)
      (isNew : id ∉ splicing) (found : registry.lookup? id = some target)
      (body : Reaches registry (id :: splicing) target.children members)
      (tail : Reaches registry splicing rest more) :
      Reaches registry splicing (node :: rest) (behind (.spliced target) members ++ more)
  | closed {splicing : List String} {node : Node} {rest : List Node} {id : String}
      {more : List (List Link × Node)} (role : roleOf node = .reference id)
      (isClosed : id ∈ splicing ∨ registry.lookup? id = none)
      (tail : Reaches registry splicing rest more) : Reaches registry splicing (node :: rest) more
  | none {splicing : List String} {node : Node} {rest : List Node}
      {more : List (List Link × Node)} (role : roleOf node = .none)
      (tail : Reaches registry splicing rest more) : Reaches registry splicing (node :: rest) more

variable {registry : Registry} {splicing : List String} {repetition : Option Repetition}
  {nodes : List Node} {entries : List Entry} {members : List (List Link × Node)}

theorem mem_behind {link : Link} {chain : List Link} {member : Node} :
    (chain, member) ∈ behind link members ↔
      ∃ further, chain = link :: further ∧ (further, member) ∈ members := by
  simp [behind, eq_comm, and_comm]

/-- **The members of a body are those that are reached.** -/
theorem Reaches.mem_iff (h : Reaches registry splicing nodes members) {chain : List Link}
    {member : Node} :
    (chain, member) ∈ members ↔ ∃ node ∈ nodes, Reached registry splicing node chain member := by
  induction h generalizing chain with
  | nil => simp
  | member role _ ih =>
    rw [List.mem_cons, List.exists_mem_cons_iff, ih, Prod.mk.injEq]
    refine or_congr_left ⟨?_, fun hreached => ?_⟩
    · rintro ⟨rfl, rfl⟩
      exact .member role
    · cases hreached with
      | member => exact ⟨rfl, rfl⟩
      | inside role' | spliced role' => cases role.symm.trans role'
  | inside role _ _ ihBody ih =>
    rw [List.mem_append, List.exists_mem_cons_iff, ih, mem_behind]
    refine or_congr_left ⟨?_, fun hreached => ?_⟩
    · rintro ⟨further, rfl, hmem⟩
      obtain ⟨child, hchild, hfurther⟩ := ihBody.1 hmem
      exact .inside role hchild hfurther
    · cases hreached with
      | inside _ among further => exact ⟨_, rfl, ihBody.2 ⟨_, among, further⟩⟩
      | member role' | spliced role' => cases role.symm.trans role'
  | spliced role isNew found _ _ ihBody ih =>
    rw [List.mem_append, List.exists_mem_cons_iff, ih, mem_behind]
    refine or_congr_left ⟨?_, fun hreached => ?_⟩
    · rintro ⟨further, rfl, hmem⟩
      obtain ⟨child, hchild, hfurther⟩ := ihBody.1 hmem
      exact .spliced role isNew found hchild hfurther
    · cases hreached with
      | spliced role' _ found' among further =>
        cases role.symm.trans role'
        cases found.symm.trans found'
        exact ⟨_, rfl, ihBody.2 ⟨_, among, further⟩⟩
      | member role' | inside role' => cases role.symm.trans role'
  | closed role isClosed _ ih =>
    rw [List.exists_mem_cons_iff, ih]
    refine (or_iff_right fun hreached => ?_).symm
    cases hreached with
    | spliced role' isNew found =>
      cases role.symm.trans role'
      exact isClosed.elim isNew fun hnone => by cases hnone.symm.trans found
    | member role' | inside role' => cases role.symm.trans role'
  | none role _ ih =>
    rw [List.exists_mem_cons_iff, ih]
    refine (or_iff_right fun hreached => ?_).symm
    cases hreached with
    | member role' | inside role' | spliced role' => cases role.symm.trans role'

/-! ## What a walk makes of members -/

/-- Whether an entry adds a property. -/
def Entry.isMember : Entry → Bool
  | .field _ _ _ | .group _ _ _ | .list _ _ _ _ => true
  | .constant _ _ | .padding _ | .badPadding _ _ | .unresolved _ _ | .cycle _ _ => false

/-- **The entry of a member**, given the chain that leads to it and the repetition around that. -/
def Declares (registry : Registry) (outer : Option Repetition) (reached : List Link × Node)
    (entry : Entry) : Prop :=
  ∃ name, reached.2.dataName? = some name ∧
    match reached.2.kind with
    | .recordGroup => entry = .group name reached.2 ((innermost? reached.1).or outer)
    | .repeatedGroup =>
      entry = .list name (itemsOf registry name reached.2) (.parse reached.2.times?) reached.2.place
    | _ => ∃ layout, entry = .field name layout reached.2.place

theorem filter_isMember_paddingEntries (node : Node) :
    (paddingEntries node).filter Entry.isMember = [] := by
  refine List.filter_eq_nil_iff.2 fun entry hmem => ?_
  obtain ⟨width, -, rfl⟩ | ⟨raw, rfl⟩ := eq_of_mem_paddingEntries hmem <;> exact Bool.false_ne_true

variable {following : List Node} {node : Node}

/-- **The part of a node follows from its role.** -/
theorem partOf_spec (registry : Registry) (repetition : Option Repetition) (following : List Node)
    (node : Node) :
    match roleOf node with
    | .member => ∃ entry, partOf registry repetition following node = .entries [entry] ∧
        entry.isMember ∧ Declares registry repetition ([], node) entry
    | .container => partOf registry repetition following node =
        .opened ((Link.inside node).opens.or repetition)
    | .reference id => partOf registry repetition following node = .spliced id
    | .none => ∃ list, partOf registry repetition following node = .entries list ∧
        list.filter Entry.isMember = [] := by
  cases hkind : node.kind with
  | recordGroup | repeatedGroup | scalarField =>
    cases hname : node.dataName? <;>
      simp [roleOf, partOf, hkind, hname, Declares, Entry.isMember, Link.opens, innermost?,
        transparentRepetition_eq]
  | formatDef | generic => simp [roleOf, partOf, hkind, Link.opens, transparentRepetition_eq]
  | reference => cases href : node.refId <;> simp [roleOf, partOf, hkind, href]
  | constant =>
    cases hwidth : Schema.constantWidth? following <;>
      simp [roleOf, partOf, hkind, hwidth, Entry.isMember]
  | padding =>
    simp only [roleOf, partOf, hkind]
    exact ⟨_, rfl, filter_isMember_paddingEntries node⟩
  | decorator => simp [roleOf, partOf, hkind]

variable {list : List Entry} {inner : Option Repetition} {id : String}

/-- A node that stands for entries is a member with its entry, or nothing. -/
theorem roleOf_of_entries (part : partOf registry repetition following node = .entries list) :
    (roleOf node = .member ∧ ∃ entry, list.filter Entry.isMember = [entry] ∧
        Declares registry repetition ([], node) entry) ∨
      roleOf node = .none ∧ list.filter Entry.isMember = [] := by
  have hspec := partOf_spec registry repetition following node
  rw [part] at hspec
  cases hrole : roleOf node with
  | member =>
    rw [hrole] at hspec
    obtain ⟨entry, heq, hmember, hentry⟩ := hspec
    cases heq
    exact .inl ⟨rfl, entry, List.filter_cons_of_pos hmember, hentry⟩
  | none =>
    rw [hrole] at hspec
    obtain ⟨_, heq, hnone⟩ := hspec
    cases heq
    exact .inr ⟨rfl, hnone⟩
  | container | reference =>
    rw [hrole] at hspec
    cases hspec

/-- A node whose children are walked is a container. -/
theorem roleOf_of_opened (part : partOf registry repetition following node = .opened inner) :
    roleOf node = .container ∧ inner = (Link.inside node).opens.or repetition := by
  have hspec := partOf_spec registry repetition following node
  rw [part] at hspec
  cases hrole : roleOf node with
  | container =>
    rw [hrole] at hspec
    cases hspec
    exact ⟨rfl, rfl⟩
  | member | none =>
    rw [hrole] at hspec
    obtain ⟨_, heq, -⟩ := hspec
    cases heq
  | reference =>
    rw [hrole] at hspec
    cases hspec

theorem roleOf_of_spliced (part : partOf registry repetition following node = .spliced id) :
    roleOf node = .reference id := by
  obtain ⟨hkind, href⟩ := reference_of_partOf part
  simp [roleOf, hkind, href]

/-- An entry of a member that is reached through one more link. -/
theorem declares_behind {link : Link}
    (h : List.Forall₂ (Declares registry (link.opens.or repetition)) members list) :
    List.Forall₂ (Declares registry repetition) (behind link members) list := by
  rw [behind, List.forall₂_map_left_iff]
  refine h.imp fun reached entry hdeclares => ?_
  rw [Declares, innermost?_cons, Option.or_assoc]
  exact hdeclares

/-- **A walk declares the members that are reached**, each under the repetition that the innermost
link of its chain opens, and under the one around the walk if there is no such link. -/
theorem Walks.exists_reaches (h : Walks registry splicing repetition nodes entries) :
    ∃ members, Reaches registry splicing nodes members ∧
      List.Forall₂ (Declares registry repetition) members (entries.filter Entry.isMember) := by
  induction h with
  | nil => exact ⟨[], .nil, .nil⟩
  | entries part _ ih =>
    obtain ⟨members, hreaches, hdeclares⟩ := ih
    rw [List.filter_append]
    obtain ⟨hrole, entry, heq, hentry⟩ | ⟨hrole, heq⟩ := roleOf_of_entries part
    · rw [heq]
      exact ⟨_, .member hrole hreaches, .cons hentry hdeclares⟩
    · rw [heq]
      exact ⟨members, .none hrole hreaches, hdeclares⟩
  | opened part _ _ ihBody ih =>
    obtain ⟨hrole, rfl⟩ := roleOf_of_opened part
    obtain ⟨members, hreaches, hdeclares⟩ := ihBody
    obtain ⟨more, hmore, hdeclares'⟩ := ih
    rw [List.filter_append]
    exact ⟨_, .inside hrole hreaches hmore, List.rel_append (declares_behind hdeclares) hdeclares'⟩
  | cycle part isOpen _ ih =>
    obtain ⟨members, hreaches, hdeclares⟩ := ih
    exact ⟨members, .closed (roleOf_of_spliced part) (.inl isOpen) hreaches, hdeclares⟩
  | unresolved part _ missing _ ih =>
    obtain ⟨members, hreaches, hdeclares⟩ := ih
    exact ⟨members, .closed (roleOf_of_spliced part) (.inr missing) hreaches, hdeclares⟩
  | @spliced _ repetition _ target _ _ _ _ part isNew found _ _ ihBody ih =>
    rw [transparentRepetition_eq target repetition] at ihBody
    obtain ⟨members, hreaches, hdeclares⟩ := ihBody
    obtain ⟨more, hmore, hdeclares'⟩ := ih
    rw [List.filter_append]
    exact ⟨_, .spliced (roleOf_of_spliced part) isNew found hreaches hmore,
      List.rel_append (declares_behind hdeclares) hdeclares'⟩

/-- **A body has one list of members.** -/
theorem Reaches.unique {others : List (List Link × Node)}
    (h : Reaches registry splicing nodes members) (h' : Reaches registry splicing nodes others) :
    members = others := by
  induction h generalizing others with
  | nil =>
    cases h'
    rfl
  | member role _ ih =>
    cases h' with
    | member _ tail' => rw [ih tail']
    | inside role' | spliced role' | closed role' | none role' => cases role.symm.trans role'
  | inside role _ _ ihBody ih =>
    cases h' with
    | inside _ body' tail' => rw [ihBody body', ih tail']
    | member role' | spliced role' | closed role' | none role' => cases role.symm.trans role'
  | spliced role isNew found _ _ ihBody ih =>
    cases h' with
    | spliced role' _ found' body' tail' =>
      cases role.symm.trans role'
      cases found.symm.trans found'
      rw [ihBody body', ih tail']
    | closed role' isClosed =>
      cases role.symm.trans role'
      exact absurd isClosed (not_or.2 ⟨isNew, by simp [found]⟩)
    | member role' | inside role' | none role' => cases role.symm.trans role'
  | closed role isClosed _ ih =>
    cases h' with
    | closed _ _ tail' => rw [ih tail']
    | spliced role' isNew found =>
      cases role.symm.trans role'
      exact absurd isClosed (not_or.2 ⟨isNew, by simp [found]⟩)
    | member role' | inside role' | none role' => cases role.symm.trans role'
  | none role _ ih =>
    cases h' with
    | none _ tail' => rw [ih tail']
    | member role' | inside role' | spliced role' | closed role' => cases role.symm.trans role'

end FixedWidth.Table
