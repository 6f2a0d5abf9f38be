import FixedWidth.Proofs.Walk
import FixedWidth.Table.Compile

/-!
# Proofs/Filling — the filling of types, without fuel

A type is filled entry by entry (`Fills`): an entry that needs a type gets the one of its name, or
has it filled first, under the types that are still unfinished. `Compiles` is the whole run from a
root. As with walks there is a rule for each thing that can happen and no bound on how often, so
only runs that come to an end have a derivation. What one entry adds is stated once, by
`Entry.member?`, `Entry.bareStep?` and `Entry.problem?`, and invariants of the table are
inductions on `Fills`.
-/

namespace FixedWidth.Table

open Naming (Scope sanitize)
open Schema (Node Provenance Registry)

/-! ## What one entry adds -/

/-- The type that an entry needs: its name, and the node it is made from. -/
def Entry.request? : Entry → Option (String × Node)
  | .group name node _ => some (sanitize name, node)
  | .list _ (.records typeName node) _ _ => some (typeName, node)
  | _ => none

/-- A property before it has its name. -/
structure Member where
  /-- The name it asks for. -/
  base : String
  /-- What it holds. -/
  kind : PropertyKind
  /-- Whether its type is unfinished. -/
  recursive : Bool
  /-- Where it was declared. -/
  place : Provenance

/-- The steps that bring a property to the wire. -/
def PropertyKind.stepsAt (kind : PropertyKind) (property : Nat) : List Step :=
  match kind with
  | .text layout => layout.toList.map (.field property ·)
  | .nested _ => [.nested property]
  | .list _ _ => [.list property]

/-- The property that an entry adds, given the type it asked for. -/
def Entry.member? (type : TypeRef) : Entry → Option Member
  | .field name layout place => some ⟨sanitize name, .text layout, false, place⟩
  | .group name node (some repetition) =>
    some ⟨sanitize name, .list (.record type.index) repetition, type.recursive, node.place⟩
  | .group name node none => some ⟨sanitize name, .nested type.index, type.recursive, node.place⟩
  | .list name (.records _ _) repetition place =>
    some ⟨sanitize name, .list (.record type.index) repetition, type.recursive, place⟩
  | .list name (.texts layout) repetition place =>
    some ⟨sanitize name, .list (.text layout) repetition, false, place⟩
  | .list name (.missing _ _) repetition place =>
    some ⟨sanitize name, .list (.text none) repetition, false, place⟩
  | _ => none

/-- The step without a property that an entry adds. -/
def Entry.bareStep? : Entry → Option Step
  | .constant value width => some (.constant value width)
  | .padding width => some (.padding width)
  | .list _ (.missing reference _) _ _ | .unresolved reference _ => some (.unresolved reference)
  | .cycle reference _ => some (.cycle reference)
  | _ => none

/-- The problem that an entry reports in the type named `inType`. -/
def Entry.problem? (inType : String) : Entry → Option Diagnostic
  | .badPadding value place => some (.invalidPadding value inType place)
  | .list _ (.missing reference place) _ _ | .unresolved reference place =>
    some (.unresolvedReference reference inType place)
  | .cycle reference place => some (.referenceCycle reference inType place)
  | _ => none

namespace Body

/-- Adds an entry, given the type it asked for. -/
def addWith (type : TypeRef) (inType : String) (body : Body) (entry : Entry) : Body :=
  body.addEntry (fun _ _ draft => (type, draft)) inType entry

/-- The table with the type at an index finished by this body. -/
def finish (body : Body) (index : Nat) : Draft :=
  body.draft.define index body.properties body.steps

/-- A suspended body, resumed when the type begun after it is finished with the body `inner`. -/
def resume (body inner : Body) : Body :=
  { body with draft := inner.finish body.draft.types.length }

variable {typeOf : TypeSource} {type : TypeRef} {inType : String} {body : Body} {entry : Entry}

theorem addEntry_of_request?_none (h : entry.request? = none) (type : TypeRef) :
    body.addEntry typeOf inType entry = body.addWith type inType entry := by
  cases entry with
  | group => simp [Entry.request?] at h
  | list name items => cases items <;> simp_all [Entry.request?, addWith, addEntry]
  | _ => rfl

theorem addEntry_of_request? {name : String} {node : Node}
    (h : entry.request? = some (name, node)) :
    body.addEntry typeOf inType entry =
      { body with draft := (typeOf name node body.draft).2 }.addWith
        (typeOf name node body.draft).1 inType entry := by
  cases entry with
  | group => cases h; rfl
  | list _ items =>
    cases items with
    | records => cases h; rfl
    | texts | missing => simp [Entry.request?] at h
  | _ => simp [Entry.request?] at h

/-- A body with the property that `member?` holds, if there is one. -/
theorem properties_addWith :
    (body.addWith type inType entry).properties = body.properties ++
      ((entry.member? type).map fun m =>
        Property.mk (body.scope.grant m.base) m.kind m.recursive m.place).toList := by
  cases entry with
  | group _ _ repetition => cases repetition <;> rfl
  | list _ items => cases items <;> rfl
  | _ => simp [addWith, addEntry, addProperty, addStep, report, addUnresolved, Entry.member?,
      Scope.unique]

theorem scope_addWith :
    (body.addWith type inType entry).scope =
      ((entry.member? type).map fun m => (body.scope.unique m.base).2).getD body.scope := by
  cases entry with
  | group _ _ repetition => cases repetition <;> rfl
  | list _ items => cases items <;> rfl
  | _ => rfl

theorem steps_addWith :
    (body.addWith type inType entry).steps = body.steps ++ entry.bareStep?.toList ++
      ((entry.member? type).map fun m => m.kind.stepsAt body.properties.length).getD [] := by
  cases entry with
  | group _ _ repetition => cases repetition <;> simp [addWith, addEntry, addGroup, addProperty,
      Entry.bareStep?, Entry.member?, PropertyKind.stepsAt]
  | list _ items => cases items <;> simp [addWith, addEntry, addList, addProperty, addUnresolved,
      addStep, report, Entry.bareStep?, Entry.member?, PropertyKind.stepsAt]
  | _ => simp [addWith, addEntry, addProperty, addStep, report, addUnresolved, Entry.member?,
      Entry.bareStep?, PropertyKind.stepsAt]

theorem draft_addWith :
    (body.addWith type inType entry).draft =
      { body.draft with
        diagnostics := body.draft.diagnostics ++ (entry.problem? inType).toList } := by
  cases entry with
  | group _ _ repetition => cases repetition <;> simp [addWith, addEntry, addGroup, addProperty,
      Entry.problem?]
  | list _ items => cases items <;> simp [addWith, addEntry, addList, addProperty, addUnresolved,
      addStep, report, Draft.report, Entry.problem?]
  | _ => simp [addWith, addEntry, addProperty, addStep, report, addUnresolved, Draft.report,
      Entry.problem?]

@[simp]
theorem types_addWith :
    (body.addWith type inType entry).draft.types = body.draft.types := by rw [draft_addWith]

theorem properties_prefix_addWith (type : TypeRef) (inType : String) (body : Body)
    (entry : Entry) : body.properties <+: (body.addWith type inType entry).properties := by
  rw [properties_addWith]
  exact List.prefix_append _ _

end Body

/-! ## Filling -/

/-- The filling of the type named `inType` with entries, under the types that are `unfinished`,
it itself among them. -/
inductive Fills (registry : Registry) : List Nat → String → Body → List Entry → Body → Prop
  | nil {unfinished : List Nat} {inType : String} {body : Body} :
    Fills registry unfinished inType body [] body
  | plain {unfinished : List Nat} {inType : String} {body last : Body} {entry : Entry}
      {rest : List Entry} (request : entry.request? = none)
      (tail : Fills registry unfinished inType (body.addWith ⟨0, false⟩ inType entry) rest last) :
    Fills registry unfinished inType body (entry :: rest) last
  | known {unfinished : List Nat} {inType name : String} {node : Node} {index : Nat}
      {body last : Body} {entry : Entry} {rest : List Entry}
      (request : entry.request? = some (name, node)) (found : body.draft.find? name = some index)
      (tail : Fills registry unfinished inType
        (body.addWith ⟨index, unfinished.contains index⟩ inType entry) rest last) :
    Fills registry unfinished inType body (entry :: rest) last
  | fresh {unfinished : List Nat} {inType name : String} {node : Node} {body inner last : Body}
      {entry : Entry} {rest entries : List Entry}
      (request : entry.request? = some (name, node)) (absent : body.draft.find? name = none)
      (walk : Walks registry node.id.toList none node.children entries)
      (fill : Fills registry (body.draft.types.length :: unfinished) name
        (Body.begin (body.draft.reserve name node.place)) entries inner)
      (tail : Fills registry unfinished inType
        ((body.resume inner).addWith ⟨body.draft.types.length, false⟩ inType entry) rest last) :
    Fills registry unfinished inType body (entry :: rest) last

/-- The whole run from a root to a table. -/
inductive Compiles (registry : Registry) (id : String) : TypeTable → Prop
  | missing (absent : registry.lookup? id = none) :
    Compiles registry id ⟨[], none, [.rootNotFound id]⟩
  | found {node : Node} {entries : List Entry} {body : Body}
      (root : registry.lookup? id = some node)
      (walk : Walks registry node.id.toList none node.children entries)
      (fill : Fills registry [0] (sanitize id)
        (Body.begin (Draft.empty.reserve (sanitize id) node.place)) entries body) :
    Compiles registry id ⟨(body.finish 0).types, some 0, (body.finish 0).diagnostics⟩

variable {registry : Registry} {unfinished : List Nat} {id inType : String}
  {body last last' : Body} {entries : List Entry}

/-- **A filling has one result.** -/
theorem Fills.unique (h : Fills registry unfinished inType body entries last)
    (h' : Fills registry unfinished inType body entries last') : last = last' := by
  induction h generalizing last' with
  | nil => cases h'; rfl
  | plain request tail ih =>
    cases h' with
    | plain _ tail' => exact ih tail'
    | known request' | fresh request' => simp [request] at request'
  | known request found tail ih =>
    cases h' with
    | plain request' => simp [request] at request'
    | known request' found' tail' =>
      cases request.symm.trans request'
      cases found.symm.trans found'
      exact ih tail'
    | fresh request' absent' =>
      cases request.symm.trans request'
      simp [found] at absent'
  | fresh request absent walk fill tail ihFill ih =>
    cases h' with
    | plain request' => simp [request] at request'
    | known request' found' =>
      cases request.symm.trans request'
      simp [absent] at found'
    | fresh request' absent' walk' fill' tail' =>
      cases request.symm.trans request'
      cases walk.unique walk'
      cases ihFill fill'
      exact ih tail'

/-- **A root has one table.** -/
theorem Compiles.unique {table table' : TypeTable} (h : Compiles registry id table)
    (h' : Compiles registry id table') : table = table' := by
  cases h with
  | missing absent =>
    cases h' with
    | missing => rfl
    | found root' => simp [absent] at root'
  | found root walk fill =>
    cases h' with
    | missing absent' => simp [root] at absent'
    | found root' walk' fill' =>
      cases root.symm.trans root'
      cases walk.unique walk'
      cases fill.unique fill'
      rfl

/-! ## What a filling leaves alone -/

/-- Finishing the type at the end of a table's first part changes it alone. -/
theorem Draft.types_define {draft : Draft} {types more : List RecordType} {type : RecordType}
    (h : draft.types = types ++ type :: more) (properties : List Property) (steps : List Step) :
    (draft.define types.length properties steps).types =
      types ++ { type with properties := properties, steps := steps } :: more := by
  rw [define, h, List.modify_eq_take_cons_drop (by simp)]
  simp

/-- The type begun after a suspended body is finished, and the types behind it stay. -/
theorem Body.types_resume_of_eq (body inner : Body) {name : String} {place : Provenance}
    {more : List RecordType}
    (h : inner.draft.types = (body.draft.reserve name place).types ++ more) :
    (body.resume inner).draft.types =
      body.draft.types ++ ⟨name, inner.properties, inner.steps, place⟩ :: more := by
  rw [Draft.reserve, List.append_assoc] at h
  exact Draft.types_define h _ _

/-- **The type begun after a suspended body, unfinished and finished.** -/
theorem Body.types_resume (body inner : Body) {name : String} {place : Provenance}
    (h : (body.draft.reserve name place).types <+: inner.draft.types) :
    ∃ more, inner.draft.types = body.draft.types ++ ⟨name, [], [], place⟩ :: more ∧
      (body.resume inner).draft.types =
        body.draft.types ++ ⟨name, inner.properties, inner.steps, place⟩ :: more := by
  obtain ⟨more, hmore⟩ := h
  refine ⟨more, ?_, body.types_resume_of_eq inner hmore.symm⟩
  rw [← hmore, Draft.reserve, List.append_assoc]
  rfl

/-- **A filling adds types behind those that are there**, finished or not. -/
theorem Fills.prefix_types (h : Fills registry unfinished inType body entries last) :
    body.draft.types <+: last.draft.types := by
  induction h with
  | nil => exact List.prefix_rfl
  | plain _ _ ih | known _ _ _ ih => simpa using ih
  | fresh _ _ _ _ _ ihFill ih =>
    obtain ⟨more, -, hresume⟩ := Body.types_resume _ _ ihFill
    rw [Body.types_addWith, hresume] at ih
    exact (List.prefix_append _ _).trans ih

/-- The root type, unfinished and finished. -/
theorem Fills.types_root {name : String} {place : Provenance}
    (h : Fills registry unfinished inType (Body.begin (Draft.empty.reserve name place))
      entries body) :
    ∃ more, body.draft.types = ⟨name, [], [], place⟩ :: more ∧
      (body.finish 0).types = ⟨name, body.properties, body.steps, place⟩ :: more :=
  Body.types_resume (Body.begin Draft.empty) body h.prefix_types

/-- A filling adds properties behind those that are there. -/
theorem Fills.prefix_properties (h : Fills registry unfinished inType body entries last) :
    body.properties <+: last.properties := by
  induction h with
  | nil => exact List.prefix_rfl
  | plain _ _ ih | known _ _ _ ih => exact (Body.properties_prefix_addWith ..).trans ih
  | @fresh _ _ _ _ body inner _ _ _ _ _ _ _ _ _ _ ih =>
    exact (Body.properties_prefix_addWith _ _ (body.resume inner) _).trans ih

/-! ## What every type has -/

/-- **What is to be shown for every type to have the property `T`**, where `R` holds of the names
and nodes that types are made from, `E` of the entries of their bodies, and `B` of the members of a
type that is being filled. -/
structure Invariant (registry : Registry) (R : String → Node → Prop) (E : Entry → Prop)
    (B : Scope → List Property → List Step → Prop) (T : RecordType → Prop) : Prop where
  request : ∀ entry name node, E entry → entry.request? = some (name, node) → R name node
  walk : ∀ name node entries, R name node →
    Walks registry node.id.toList none node.children entries → ∀ entry ∈ entries, E entry
  empty : B .empty [] []
  add : ∀ type inType (body : Body) entry, E entry → B body.scope body.properties body.steps →
    B (body.addWith type inType entry).scope (body.addWith type inType entry).properties
      (body.addWith type inType entry).steps
  type : ∀ name node scope properties steps, R name node → B scope properties steps →
    T ⟨name, properties, steps, node.place⟩

variable {R : String → Node → Prop} {E : Entry → Prop}
  {B : Scope → List Property → List Step → Prop} {T : RecordType → Prop}

theorem Fills.forall_types (h : Fills registry unfinished inType body entries last)
    (inv : Invariant registry R E B T) (hentries : ∀ entry ∈ entries, E entry)
    (hbody : B body.scope body.properties body.steps) (htypes : ∀ type ∈ body.draft.types, T type) :
    B last.scope last.properties last.steps ∧ ∀ type ∈ last.draft.types, T type := by
  induction h with
  | nil => exact ⟨hbody, htypes⟩
  | plain _ _ ih | known _ _ _ ih =>
    rw [List.forall_mem_cons] at hentries
    exact ih hentries.2 (inv.add _ _ _ _ hentries.1 hbody) (by rwa [Body.types_addWith])
  | @fresh _ _ name node body inner _ _ _ _ request _ walk fill _ ihFill ih =>
    rw [List.forall_mem_cons] at hentries
    have hreq := inv.request _ _ _ hentries.1 request
    obtain ⟨more, hinner, hresume⟩ := Body.types_resume _ _ fill.prefix_types
    obtain ⟨hmembers, hin⟩ := ihFill (inv.walk _ _ _ hreq walk) inv.empty
      (List.forall_mem_append.2 ⟨htypes, by simpa using inv.type _ _ _ _ _ hreq inv.empty⟩)
    have hbody' : B (body.resume inner).scope (body.resume inner).properties
      (body.resume inner).steps := hbody
    refine ih hentries.2 (inv.add _ _ _ _ hentries.1 hbody') ?_
    rw [hinner, List.forall_mem_append, List.forall_mem_cons] at hin
    rw [Body.types_addWith, hresume, List.forall_mem_append, List.forall_mem_cons]
    exact ⟨hin.1, inv.type _ _ _ _ _ hreq hmembers, hin.2.2⟩

/-- **An invariant that the root has, every type of the table has.** -/
theorem Compiles.forall_types {table : TypeTable} (h : Compiles registry id table)
    (inv : Invariant registry R E B T)
    (hroot : ∀ node, registry.lookup? id = some node → R (sanitize id) node) :
    ∀ type ∈ table.types, T type := by
  cases h with
  | missing => simp
  | found root walk fill =>
    have hreq := hroot _ root
    obtain ⟨more, hbody, hfinish⟩ := fill.types_root
    obtain ⟨hmembers, hin⟩ := fill.forall_types inv (inv.walk _ _ _ hreq walk) inv.empty
      (by simpa [Body.begin, Draft.reserve, Draft.empty] using
        inv.type _ _ _ _ _ hreq inv.empty)
    rw [hbody, List.forall_mem_cons] at hin
    rw [hfinish, List.forall_mem_cons]
    exact ⟨inv.type _ _ _ _ _ hreq hmembers, hin.2⟩

end FixedWidth.Table
