import FixedWidth.Proofs.TypeNames
import Mathlib.Logic.Relation

/-!
# Proofs/Edges — which types refer to which

A property with records of a type is an edge to that type, a direct one unless it is recursive.
Types are finished one after the other, and a direct edge leads to a type that was finished before
its owner: the order of finishing (`Topological`) is what a filling keeps, and it gives each type a
rank that falls along direct edges (`Compiles.exists_ranked`). A recursive edge leads to a type
that was unfinished, hence to one whose filling led to the owner.
-/

namespace FixedWidth.Table

open Naming (sanitize)
open Schema (Node Provenance Registry)

/-! ## Edges -/

/-- The type of the records that a property holds. -/
def PropertyKind.target? : PropertyKind → Option Nat
  | nested target | list (.record target) _ => some target
  | text _ | list (.text _) _ => none

/-- Some property of the one type holds records of the other. -/
def Edge (types : List RecordType) (owner target : Nat) : Prop :=
  ∃ type property, types[owner]? = some type ∧ property ∈ type.properties ∧
    property.kind.target? = some target

/-- Some property of the one type that is not recursive holds records of the other. -/
def DirectEdge (types : List RecordType) (owner target : Nat) : Prop :=
  ∃ type property, types[owner]? = some type ∧ property ∈ type.properties ∧
    property.recursive = false ∧ property.kind.target? = some target

variable {registry : Registry} {unfinished done : List Nat} {id inType : String}
  {body last : Body} {entry : Entry} {entries : List Entry} {type : TypeRef} {property : Property}
  {types : List RecordType}

/-! ## The edge of an added property -/

theorem Entry.member?_of_request?_none {m : Member} (h : entry.request? = none)
    (hm : entry.member? type = some m) : m.recursive = false ∧ m.kind.target? = none := by
  cases entry with
  | group => simp [request?] at h
  | list _ items =>
    cases items with
    | records => simp [request?] at h
    | texts | missing => cases hm; exact ⟨rfl, rfl⟩
  | field => cases hm; exact ⟨rfl, rfl⟩
  | _ => cases hm

theorem Entry.member?_of_request? {request : String × Node} (h : entry.request? = some request)
    (type : TypeRef) :
    ∃ m, entry.member? type = some m ∧ m.recursive = type.recursive ∧
      m.kind.target? = some type.index := by
  cases entry with
  | group _ _ repetition => cases repetition <;> exact ⟨_, rfl, rfl, rfl⟩
  | list _ items =>
    cases items with
    | records => exact ⟨_, rfl, rfl, rfl⟩
    | texts | missing => simp [request?] at h
  | _ => simp [request?] at h

/-- **A property added without a type has no edge.** -/
theorem Body.mem_addWith_of_request?_none (h : entry.request? = none)
    (hp : property ∈ (body.addWith type inType entry).properties) :
    property ∈ body.properties ∨ property.recursive = false ∧ property.kind.target? = none := by
  rw [properties_addWith, List.mem_append, Option.mem_toList, Option.map_eq_some_iff] at hp
  obtain hp | ⟨m, hm, rfl⟩ := hp
  · exact Or.inl hp
  · exact Or.inr (Entry.member?_of_request?_none h hm)

/-- **A property added with a type has an edge to it.** -/
theorem Body.mem_addWith_of_request? {request : String × Node} (h : entry.request? = some request)
    (hp : property ∈ (body.addWith type inType entry).properties) :
    property ∈ body.properties ∨
      property.recursive = type.recursive ∧ property.kind.target? = some type.index := by
  obtain ⟨m, hm, hrec, htarget⟩ := Entry.member?_of_request? h type
  rw [properties_addWith, hm, List.mem_append, Option.map_some, Option.toList_some,
    List.mem_singleton] at hp
  obtain hp | rfl := hp
  · exact Or.inl hp
  · exact Or.inr ⟨hrec, htarget⟩

theorem Body.exists_mem_addWith_of_request? {request : String × Node}
    (h : entry.request? = some request) (type : TypeRef) (inType : String) (body : Body) :
    ∃ property ∈ (body.addWith type inType entry).properties,
      property.kind.target? = some type.index := by
  obtain ⟨m, hm, -, htarget⟩ := Entry.member?_of_request? h type
  refine ⟨⟨body.scope.grant m.base, m.kind, m.recursive, m.place⟩, ?_, htarget⟩
  rw [properties_addWith, hm]
  simp

/-! ## Tables in which one type changes -/

section Change

variable {more : List RecordType} {owner : Nat} {name : String} {place : Provenance}
  {owned : RecordType}

theorem getElem?_append_cons_of_ne {a b : RecordType} (h : owner ≠ types.length) :
    (types ++ a :: more)[owner]? = (types ++ b :: more)[owner]? := by
  rw [List.getElem?_append, List.getElem?_append]
  split
  · rfl
  · rw [List.getElem?_cons, List.getElem?_cons, if_neg (by omega), if_neg (by omega)]

theorem getElem?_append_cons_self (owned : RecordType) :
    (types ++ owned :: more)[types.length]? = some owned := by simp

/-- A type that is begun has no properties yet. -/
theorem ne_length_of_mem_properties
    (ht : (types ++ ⟨name, [], [], place⟩ :: more)[owner]? = some owned)
    (hp : property ∈ owned.properties) : owner ≠ types.length := by
  rintro rfl
  cases (getElem?_append_cons_self _).symm.trans ht
  cases hp

/-- The properties are those that were there before a type was begun. -/
theorem getElem?_of_reserve (ht : (types ++ [⟨name, [], [], place⟩])[owner]? = some owned)
    (hp : property ∈ owned.properties) : types[owner]? = some owned := by
  have hne := ne_length_of_mem_properties ht hp
  have hlt := (List.getElem?_eq_some_iff.1 ht).1
  rw [List.length_append, List.length_singleton] at hlt
  rwa [List.getElem?_append_left (by omega)] at ht

end Change

/-! ## The order in which types are finished -/

/-- Each type of the list, the one finished last first, refers directly only to types behind it. -/
def Topological (types : List RecordType) : List Nat → Prop
  | [] => True
  | index :: rest =>
    (∀ target, DirectEdge types index target → target ∈ rest) ∧ Topological types rest

/-- Types that agree on the listed indices have the same order. -/
theorem Topological.congr {types' : List RecordType} (h : Topological types done)
    (hsame : ∀ index ∈ done, types'[index]? = types[index]?) : Topological types' done := by
  induction done with
  | nil => trivial
  | cons index rest ih =>
    rw [List.forall_mem_cons] at hsame
    refine ⟨fun target ⟨type, property, ht, hp⟩ => ?_, ih h.2 hsame.2⟩
    exact h.1 target ⟨type, property, hsame.1 ▸ ht, hp⟩

/-- In the list, an owner stands before the targets of its direct edges. -/
theorem Topological.idxOf_lt {owner target : Nat} (h : Topological types done)
    (hd : done.Nodup) (ho : owner ∈ done) (he : DirectEdge types owner target) :
    done.idxOf owner < done.idxOf target ∧ target ∈ done := by
  induction done with
  | nil => cases ho
  | cons index rest ih =>
    rw [List.nodup_cons] at hd
    obtain rfl | hrest := List.mem_cons.1 ho
    · have ht := h.1 target he
      have hne : owner ≠ target := fun heq => hd.1 (heq ▸ ht)
      rw [List.idxOf_cons_self, List.idxOf_cons_ne _ hne]
      exact ⟨Nat.succ_pos _, List.mem_cons_of_mem _ ht⟩
    · obtain ⟨hlt, ht⟩ := ih h.2 hd.2 hrest
      have hno : index ≠ owner := fun heq => hd.1 (heq ▸ hrest)
      have hnt : index ≠ target := fun heq => hd.1 (heq ▸ ht)
      rw [List.idxOf_cons_ne _ hno, List.idxOf_cons_ne _ hnt]
      exact ⟨Nat.succ_lt_succ hlt, List.mem_cons_of_mem _ ht⟩

/-- **How far a table is.** The types are those that are unfinished and those that are done, the
last one first, and no edge leads out of the table. -/
structure Settled (types : List RecordType) (unfinished done : List Nat) : Prop where
  nodup : done.Nodup
  mem_done_iff : ∀ index, index ∈ done ↔ index < types.length ∧ index ∉ unfinished
  lt_length : ∀ index ∈ unfinished, index < types.length
  topological : Topological types done
  target_lt : ∀ owner target, Edge types owner target → target < types.length

/-- The direct edges of an unfinished type with these properties lead to types that are done. -/
def RefersToDone (done : List Nat) (properties : List Property) : Prop :=
  ∀ property ∈ properties, property.recursive = false →
    ∀ target, property.kind.target? = some target → target ∈ done

/-- Its recursive properties have edges, which lead to unfinished types. -/
def RefersToUnfinished (unfinished : List Nat) (properties : List Property) : Prop :=
  ∀ property ∈ properties, property.recursive = true →
    ∃ target ∈ unfinished, property.kind.target? = some target

theorem Settled.length_notMem (h : Settled types unfinished done) : types.length ∉ unfinished :=
  fun hmem => lt_irrefl _ (h.lt_length _ hmem)

theorem Settled.empty : Settled [] [] [] where
  nodup := List.nodup_nil
  mem_done_iff := by simp
  lt_length := by simp
  topological := trivial
  target_lt := by
    rintro owner target ⟨type, property, ht, -⟩
    simp at ht

/-- A type that is begun has no edges yet. -/
theorem Settled.reserve (h : Settled types unfinished done) (name : String) (place : Provenance) :
    Settled (types ++ [⟨name, [], [], place⟩]) (types.length :: unfinished) done where
  nodup := h.nodup
  mem_done_iff index := by
    have := h.mem_done_iff index
    simp only [List.length_append, List.length_singleton, List.mem_cons, not_or]
    constructor
    · intro hi
      obtain ⟨hlt, hu⟩ := this.1 hi
      exact ⟨by omega, by omega, hu⟩
    · rintro ⟨hlt, hne, hu⟩
      exact this.2 ⟨by omega, hu⟩
  lt_length index hi := by
    rw [List.length_append, List.length_singleton]
    obtain rfl | hi := List.mem_cons.1 hi
    · exact Nat.lt_succ_self _
    · exact Nat.lt_succ_of_lt (h.lt_length index hi)
  topological := h.topological.congr fun index hi =>
    List.getElem?_append_left ((h.mem_done_iff index).1 hi).1
  target_lt owner target he := by
    obtain ⟨type, property, ht, hp, htarget⟩ := he
    have hlt := h.target_lt owner target ⟨type, property, getElem?_of_reserve ht hp, hp, htarget⟩
    rw [List.length_append]
    omega

/-- The edges of a finished type stay in the table. -/
theorem Settled.lt_of_refersTo {properties : List Property} {target : Nat}
    (h : Settled types unfinished done) (hd : RefersToDone done properties)
    (hu : RefersToUnfinished unfinished properties) (hp : property ∈ properties)
    (htarget : property.kind.target? = some target) : target < types.length := by
  cases hrec : property.recursive with
  | false => exact ((h.mem_done_iff _).1 (hd property hp hrec target htarget)).1
  | true =>
    obtain ⟨target', hmem, htarget'⟩ := hu property hp hrec
    cases htarget.symm.trans htarget'
    exact h.lt_length target hmem

/-- **A finished type goes to the front of the types that are done.** -/
theorem Settled.finish {name : String} {place : Provenance} {more : List RecordType}
    {properties : List Property}
    (h : Settled (types ++ ⟨name, [], [], place⟩ :: more) (types.length :: unfinished) done)
    (hd : RefersToDone done properties)
    (hu : RefersToUnfinished (types.length :: unfinished) properties)
    (hn : types.length ∉ unfinished) (steps : List Step) :
    Settled (types ++ ⟨name, properties, steps, place⟩ :: more) unfinished
      (types.length :: done) := by
  have hlen : (types ++ RecordType.mk name properties steps place :: more).length
      = (types ++ RecordType.mk name [] [] place :: more).length := by simp
  have hnd : types.length ∉ done := fun hmem =>
    ((h.mem_done_iff _).1 hmem).2 List.mem_cons_self
  refine ⟨List.nodup_cons.2 ⟨hnd, h.nodup⟩, fun index => ?_, fun index hi => ?_, ⟨?_, ?_⟩, ?_⟩
  · have := h.mem_done_iff index
    rw [List.mem_cons, hlen, this, List.mem_cons, not_or]
    constructor
    · rintro (rfl | ⟨hlt, -, hi⟩)
      · exact ⟨by simp, hn⟩
      · exact ⟨hlt, hi⟩
    · rintro ⟨hlt, hi⟩
      obtain rfl | hne := eq_or_ne index types.length
      · exact Or.inl rfl
      · exact Or.inr ⟨hlt, hne, hi⟩
  · rw [hlen]
    exact h.lt_length index (List.mem_cons_of_mem _ hi)
  · rintro target ⟨type, property, ht, hmem, hrec, htarget⟩
    cases (getElem?_append_cons_self _).symm.trans ht
    exact hd property hmem hrec target htarget
  · exact h.topological.congr fun index hi =>
      getElem?_append_cons_of_ne fun heq => hnd (heq ▸ hi)
  · rintro owner target ⟨type, property, ht, hmem, htarget⟩
    rw [hlen]
    obtain rfl | hne := eq_or_ne owner types.length
    · cases (getElem?_append_cons_self _).symm.trans ht
      exact h.lt_of_refersTo hd hu hmem htarget
    · rw [getElem?_append_cons_of_ne hne] at ht
      exact h.target_lt owner target ⟨type, property, ht, hmem, htarget⟩

theorem RefersToDone.addWith_of_request?_none (h : RefersToDone done body.properties)
    (hr : entry.request? = none) :
    RefersToDone done (body.addWith type inType entry).properties := by
  intro property hp hrec target ht
  obtain hold | ⟨-, hnone⟩ := Body.mem_addWith_of_request?_none hr hp
  · exact h property hold hrec target ht
  · simp [hnone] at ht

theorem RefersToDone.addWith_of_request? {request : String × Node}
    (h : RefersToDone done body.properties) (hr : entry.request? = some request)
    (hd : type.recursive = false → type.index ∈ done) :
    RefersToDone done (body.addWith type inType entry).properties := by
  intro property hp hrec target ht
  obtain hold | ⟨hsame, htarget⟩ := Body.mem_addWith_of_request? hr hp
  · exact h property hold hrec target ht
  · cases ht.symm.trans htarget
    exact hd (hsame ▸ hrec)

theorem RefersToUnfinished.addWith_of_request?_none
    (h : RefersToUnfinished unfinished body.properties) (hr : entry.request? = none) :
    RefersToUnfinished unfinished (body.addWith type inType entry).properties := by
  intro property hp hrec
  obtain hold | ⟨hfalse, -⟩ := Body.mem_addWith_of_request?_none hr hp
  · exact h property hold hrec
  · simp [hfalse] at hrec

theorem RefersToUnfinished.addWith_of_request? {request : String × Node}
    (h : RefersToUnfinished unfinished body.properties) (hr : entry.request? = some request)
    (hu : type.recursive = true → type.index ∈ unfinished) :
    RefersToUnfinished unfinished (body.addWith type inType entry).properties := by
  intro property hp hrec
  obtain hold | ⟨hsame, htarget⟩ := Body.mem_addWith_of_request? hr hp
  · exact h property hold hrec
  · exact ⟨type.index, hu (hsame ▸ hrec), htarget⟩

theorem Draft.find?_lt_length {draft : Draft} {name : String} {index : Nat}
    (h : draft.find? name = some index) : index < draft.types.length := by
  obtain ⟨hlt, -⟩ := List.findIdx?_eq_some_iff_getElem.1 h
  exact hlt

/-- **Recursive properties refer to unfinished types**, which the type itself is one of. -/
theorem Fills.refersToUnfinished (h : Fills registry unfinished inType body entries last)
    (hu : RefersToUnfinished unfinished body.properties) :
    RefersToUnfinished unfinished last.properties := by
  induction h with
  | nil => exact hu
  | plain request _ ih => exact ih (hu.addWith_of_request?_none request)
  | known request _ _ ih =>
    exact ih (hu.addWith_of_request? request fun hrec => by simpa using hrec)
  | @fresh unfinished inType _ _ body inner _ entry _ _ request _ _ _ _ _ ih =>
    have hresume : RefersToUnfinished unfinished (body.resume inner).properties := hu
    exact ih (hresume.addWith_of_request? request nofun)

/-- **Filling keeps the table settled.** Types that become done stay done, and every direct edge
of the filled type leads to one of them. -/
theorem Fills.settled (h : Fills registry unfinished inType body entries last)
    (hs : Settled body.draft.types unfinished done) (hd : RefersToDone done body.properties) :
    ∃ done', done ⊆ done' ∧ Settled last.draft.types unfinished done' ∧
      RefersToDone done' last.properties := by
  induction h generalizing done with
  | nil => exact ⟨done, List.Subset.refl _, hs, hd⟩
  | plain request _ ih =>
    exact ih (by rwa [Body.types_addWith]) (hd.addWith_of_request?_none request)
  | @known _ _ _ _ index _ _ _ _ request found _ ih =>
    refine ih (by rwa [Body.types_addWith]) (hd.addWith_of_request? request fun hrec => ?_)
    exact (hs.mem_done_iff index).2 ⟨Draft.find?_lt_length found, by simpa using hrec⟩
  | @fresh unfinished inType name node body inner _ entry _ _ request _ _ fill _ ihFill ih =>
    obtain ⟨more, hinner, hresume⟩ := Body.types_resume _ _ fill.prefix_types
    obtain ⟨done', hsub, hs', hd'⟩ := ihFill (hs.reserve name node.place) (by simp [RefersToDone,
      Body.begin])
    have hu' := fill.refersToUnfinished (by simp [RefersToUnfinished, Body.begin])
    rw [hinner] at hs'
    have hfinish := hs'.finish hd' hu' hs.length_notMem inner.steps
    have hsub' : done ⊆ body.draft.types.length :: done' := List.subset_cons_of_subset _ hsub
    have hold : RefersToDone (body.draft.types.length :: done') (body.resume inner).properties :=
      fun property hp hrec target ht => hsub' (hd property hp hrec target ht)
    obtain ⟨done'', hsub'', hlast⟩ := ih (by rwa [Body.types_addWith, hresume])
      (hold.addWith_of_request? request fun _ => List.mem_cons_self)
    exact ⟨done'', List.Subset.trans hsub' hsub'', hlast⟩

/-- Every type of a finished table is done, in an order that direct edges follow. -/
theorem Compiles.settled {table : TypeTable} (h : Compiles registry id table) :
    ∃ done, Settled table.types [] done := by
  cases h with
  | missing => exact ⟨[], .empty⟩
  | found root walk fill =>
    obtain ⟨more, hbody, hfinish⟩ := fill.types_root
    obtain ⟨done, -, hs, hd⟩ := fill.settled (Settled.empty.reserve (sanitize id) _)
      (by simp [RefersToDone, Body.begin])
    have hu := fill.refersToUnfinished (by simp [RefersToUnfinished, Body.begin])
    rw [hbody, ← List.nil_append (_ :: more)] at hs
    rw [hfinish]
    exact ⟨0 :: done, hs.finish hd hu List.not_mem_nil _⟩

/-! ## Ranks -/

/-- **A rank that falls along direct edges**, of a table that no edge leads out of. -/
structure Ranked (types : List RecordType) (rank : Nat → Nat) : Prop where
  target_lt : ∀ owner target, Edge types owner target → target < types.length
  rank_lt : ∀ owner target, DirectEdge types owner target → rank target < rank owner
  rank_lt_length : ∀ index < types.length, rank index < types.length

/-- The rank of a type is the number of types that were finished before it. -/
theorem Settled.ranked (h : Settled types [] done) :
    Ranked types fun index => types.length - 1 - done.idxOf index := by
  have hlen : done.length ≤ types.length := by
    have hsub : done ⊆ List.range types.length := fun index hi =>
      List.mem_range.2 ((h.mem_done_iff index).1 hi).1
    have := (h.nodup.subperm hsub).length_le
    rwa [List.length_range] at this
  refine ⟨h.target_lt, fun owner target he => ?_, fun index hi => by omega⟩
  have howner : owner ∈ done := by
    obtain ⟨type, -, ht, -⟩ := he
    exact (h.mem_done_iff owner).2 ⟨(List.getElem?_eq_some_iff.1 ht).1, List.not_mem_nil⟩
  obtain ⟨hlt, ht⟩ := h.topological.idxOf_lt h.nodup howner he
  have := List.idxOf_lt_length_of_mem ht
  omega

/-- **The types of every compiled table have ranks.** -/
theorem Compiles.exists_ranked {table : TypeTable} (h : Compiles registry id table) :
    ∃ rank, Ranked table.types rank := by
  obtain ⟨done, hs⟩ := h.settled
  exact ⟨_, hs.ranked⟩

/-- Where types have ranks, no way along direct edges leads back. -/
theorem Ranked.acyclic {rank : Nat → Nat} (h : Ranked types rank) (index : Nat) :
    ¬ Relation.TransGen (DirectEdge types) index index := by
  have hlt : ∀ target, Relation.TransGen (DirectEdge types) index target →
      rank target < rank index := by
    intro target hway
    induction hway with
    | single he => exact h.rank_lt _ _ he
    | tail _ he ih => exact (h.rank_lt _ _ he).trans ih
  exact fun hway => lt_irrefl _ (hlt index hway)

end FixedWidth.Table
