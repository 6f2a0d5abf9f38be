import FixedWidth.Proofs.Members

/-!
# Proofs/Bodies — every type is made of the entries of one node

    node ──expand──▸ entries ──one after the other──▸ properties and steps of its type

Filling a type goes on through its entries and is interrupted by the filling of others, which leaves
its members alone (`Fills.collects`). So each type of a table has the members that the entries of
some node of the forest add, and no others (`Compiles.hasBody`); its steps without a property
are those of the entries (`Collects.filter_steps`).
-/

namespace FixedWidth.Table

open Naming (Scope)
open Schema (Node Registry)

/-! ## Members that entries add -/

/-- The names, properties and steps that entries add to a type, one entry after the other. -/
inductive Collects : List Entry → Scope → List Property → List Step → Prop
  | nil : Collects [] .empty [] []
  | add {entries : List Entry} {body : Body}
      (before : Collects entries body.scope body.properties body.steps) (type : TypeRef)
      (inType : String) (entry : Entry) :
    Collects (entries ++ [entry]) (body.addWith type inType entry).scope
      (body.addWith type inType entry).properties (body.addWith type inType entry).steps

/-- **A type is made of entries** if they add its properties and steps. -/
def RecordType.MadeOf (type : RecordType) (entries : List Entry) : Prop :=
  ∃ scope, Collects entries scope type.properties type.steps

variable {registry : Registry} {unfinished : List Nat} {id inType : String} {body last : Body}
  {entries done : List Entry} {scope : Scope} {properties : List Property} {steps : List Step}
  {type : RecordType}

/-- **The steps without a property are those of the entries.** -/
theorem Collects.filter_steps (h : Collects entries scope properties steps) :
    steps.filter (·.property?.isNone) = entries.filterMap Entry.bareStep? := by
  induction h with
  | nil => rfl
  | @add entries body _ type inType entry ih =>
    have hbare : entry.bareStep?.toList.filter (·.property?.isNone) = entry.bareStep?.toList :=
      List.filter_eq_self.2 fun step hs => by simp [Entry.property?_of_mem_bareStep? hs]
    have huse : (((entry.member? type).map fun m =>
        m.kind.stepsAt body.properties.length).getD []).filter (·.property?.isNone) = [] := by
      cases entry.member? type with
      | none => rfl
      | some m =>
        exact List.filter_eq_nil_iff.2 fun step hs => by
          simp [PropertyKind.property?_of_mem_stepsAt hs]
    rw [Body.steps_addWith, List.filter_append, List.filter_append, ih, hbare, huse,
      List.append_nil, List.filterMap_append]
    cases h : entry.bareStep? <;> simp [h]

theorem RecordType.MadeOf.filter_steps (h : type.MadeOf entries) :
    type.steps.filter (·.property?.isNone) = entries.filterMap Entry.bareStep? := by
  obtain ⟨_, hcollects⟩ := h
  exact hcollects.filter_steps

/-! ## Filling -/

/-- **Filling adds the members of the entries**, whatever types are begun meanwhile. -/
theorem Fills.collects (h : Fills registry unfinished inType body entries last)
    (hbody : Collects done body.scope body.properties body.steps) :
    Collects (done ++ entries) last.scope last.properties last.steps := by
  induction h generalizing done with
  | nil => rwa [List.append_nil]
  | plain _ _ ih | known _ _ _ ih =>
    rw [List.append_cons]
    exact ih (hbody.add _ _ _)
  | @fresh _ _ _ _ body inner _ entry _ _ _ _ _ _ _ _ ih =>
    have hresumed : Collects done (body.resume inner).scope (body.resume inner).properties
      (body.resume inner).steps := hbody
    rw [List.append_cons]
    exact ih (hresumed.add _ _ entry)

/-- **A type that is made of the entries of a node of the forest.** -/
def HasBody (registry : Registry) (type : RecordType) : Prop :=
  ∃ node, registry.Holds node ∧ type.place = node.place ∧ type.MadeOf (expand registry node)

/-- The type that is filled with the entries of a node is made of them. -/
theorem hasBody_of_fills {draft : Draft} {name : String} {node : Node} (hn : registry.Holds node)
    (walk : Walks registry node.id.toList none node.children entries)
    (fill : Fills registry unfinished inType (Body.begin draft) entries last) :
    HasBody registry ⟨name, last.properties, last.steps, node.place⟩ := by
  refine ⟨node, hn, rfl, last.scope, ?_⟩
  rw [← walk.unique (walks_expand registry node)]
  exact fill.collects .nil

/-- **The types that a filling adds have bodies.** -/
theorem Fills.exists_hasBody (h : Fills registry unfinished inType body entries last)
    (hentries : ∀ entry ∈ entries, entry.FromForest registry id) :
    ∃ more, last.draft.types = body.draft.types ++ more ∧ ∀ type ∈ more, HasBody registry type := by
  induction h with
  | nil => exact ⟨[], (List.append_nil _).symm, nofun⟩
  | plain _ _ ih | known _ _ _ ih =>
    rw [List.forall_mem_cons] at hentries
    obtain ⟨more, hmore, hbodies⟩ := ih hentries.2
    exact ⟨more, by rwa [Body.types_addWith] at hmore, hbodies⟩
  | @fresh _ _ name node body inner last entry _ _ request _ walk fill _ ihFill ih =>
    rw [List.forall_mem_cons] at hentries
    have hn := (hentries.1 name node request).2
    obtain ⟨inside, hinside, hin⟩ := ihFill (walk.fromForest fun child hc => hn.child hc)
    obtain ⟨behind, hbehind, hout⟩ := ih hentries.2
    have hresume := body.types_resume_of_eq inner hinside
    have hnew : HasBody registry ⟨name, inner.properties, inner.steps, node.place⟩ :=
      hasBody_of_fills hn walk fill
    rw [Body.types_addWith, hresume, List.append_assoc] at hbehind
    refine ⟨_, hbehind, ?_⟩
    rw [List.cons_append, List.forall_mem_cons, List.forall_mem_append]
    exact ⟨hnew, hin, hout⟩

/-- **Every type of a table has a body.** -/
theorem Compiles.hasBody {table : TypeTable} (h : Compiles registry id table) :
    ∀ type ∈ table.types, HasBody registry type := by
  cases h with
  | missing => exact nofun
  | @found node entries body root walk fill =>
    have hn := Registry.holds_of_lookup? root
    have hentries : ∀ entry ∈ entries, entry.FromForest registry id :=
      walk.fromForest fun child hc => hn.child hc
    obtain ⟨inside, hinside, hin⟩ := fill.exists_hasBody hentries
    have hfinish : (body.finish 0).types = _ :=
      (Body.begin Draft.empty).types_resume_of_eq body hinside
    rw [hfinish, List.forall_mem_append, List.forall_mem_cons]
    exact ⟨nofun, hasBody_of_fills hn walk fill, hin⟩

end FixedWidth.Table
