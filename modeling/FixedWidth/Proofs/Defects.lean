import FixedWidth.Proofs.Reports
import FixedWidth.Proofs.WellFormed

/-!
# Proofs/Defects — the defects of a type are those reported in it

    steps of a type      field, unresolved A, list, cycle B      ──▸ A is missing, B is a cycle
    problems of a table  A missing in T, C missing in U, B a cycle in T

A type shows where a reference was missed or found to be a cycle by a step, and the table by a
problem that names the type. The problems of all types are in one list, where those of a type stand
between those of others that were filled meanwhile. Filling a type reports in it what it adds to its
steps (`Fills.agrees`), and in no other type that was begun before (`Fills.defectsIn_eq`). So the
two agree for every type of a table (`compile_defects`).
-/

namespace FixedWidth.Table

open Naming (sanitize)
open Schema (Node Provenance Registry)

/-! ## Defects of steps and in problems -/

/-- What can be wrong with a reference. -/
inductive Defect where
  /-- It leads nowhere. -/
  | missing (reference : String)
  /-- It leads into what includes it. -/
  | cycle (reference : String)
  deriving DecidableEq, Repr

/-- The defect that a step stands for. -/
def Step.defect? : Step → Option Defect
  | unresolved reference => some (.missing reference)
  | cycle reference => some (.cycle reference)
  | field _ _ | nested _ | list _ | constant _ _ | padding _ => none

/-- The type in which a problem reports a defect, and the defect. -/
def Diagnostic.defect? : Diagnostic → Option (String × Defect)
  | unresolvedReference reference inType _ => some (inType, .missing reference)
  | referenceCycle reference inType _ => some (inType, .cycle reference)
  | rootNotFound _ | invalidPadding _ _ _ => none

/-- The defects that steps stand for, in order. -/
def defectsOf (steps : List Step) : List Defect := steps.filterMap Step.defect?

/-- The defects that problems report in the type with a name, in order. -/
def defectsIn (name : String) (problems : List Diagnostic) : List Defect :=
  ((problems.filterMap Diagnostic.defect?).filter (·.1 = name)).map Prod.snd

/-- The names of the types that were begun. -/
def Draft.names (draft : Draft) : List String := draft.types.map (·.name)

variable {registry : Registry} {unfinished : List Nat} {id inType name : String} {type : TypeRef}
  {body inner last : Body} {entry : Entry} {entries rest : List Entry} {place : Provenance}
  {unfinished' : List Nat}

theorem defectsIn_append (name : String) (problems more : List Diagnostic) :
    defectsIn name (problems ++ more) = defectsIn name problems ++ defectsIn name more := by
  simp [defectsIn]

theorem PropertyKind.defectsOf_stepsAt (kind : PropertyKind) (index : Nat) :
    defectsOf (kind.stepsAt index) = [] := by
  refine List.filterMap_eq_nil_iff.2 fun step hs => ?_
  have hproperty := property?_of_mem_stepsAt hs
  cases step with
  | unresolved | cycle => cases hproperty
  | field | nested | list | constant | padding => rfl

/-! ## One entry -/

/-- **The step of an entry stands for the defect that its problem reports.** -/
theorem Entry.defectsOf_bareStep? (entry : Entry) (inType : String) :
    defectsOf entry.bareStep?.toList = defectsIn inType (entry.problem? inType).toList := by
  cases entry with
  | list _ items => cases items <;> simp [defectsOf, defectsIn, bareStep?, problem?, Step.defect?,
      Diagnostic.defect?]
  | _ => simp [defectsOf, defectsIn, bareStep?, problem?, Step.defect?, Diagnostic.defect?]

theorem Entry.defectsIn_problem?_of_ne (entry : Entry) (hname : name ≠ inType) :
    defectsIn name (entry.problem? inType).toList = [] := by
  cases entry with
  | list _ items => cases items <;> simp [defectsIn, problem?, Diagnostic.defect?, hname.symm]
  | _ => simp [defectsIn, problem?, Diagnostic.defect?, hname.symm]

theorem Body.defectsIn_addWith_of_ne (hname : name ≠ inType) :
    defectsIn name (body.addWith type inType entry).draft.diagnostics =
      defectsIn name body.draft.diagnostics := by
  rw [diagnostics_addWith, defectsIn_append, entry.defectsIn_problem?_of_ne hname, List.append_nil]

/-- **A body whose steps stand for the defects reported in its type.** -/
def Body.Agrees (body : Body) (inType : String) : Prop :=
  defectsOf body.steps = defectsIn inType body.draft.diagnostics

theorem Body.Agrees.addWith (h : body.Agrees inType) (type : TypeRef) (entry : Entry) :
    (body.addWith type inType entry).Agrees inType := by
  have huse : defectsOf (((entry.member? type).map fun m =>
      m.kind.stepsAt body.properties.length).getD []) = [] := by
    cases entry.member? type with
    | none => rfl
    | some m => exact m.kind.defectsOf_stepsAt _
  rw [Agrees, steps_addWith, diagnostics_addWith, defectsIn_append, ← h,
    ← entry.defectsOf_bareStep? inType]
  rw [defectsOf] at huse ⊢
  rw [List.filterMap_append, List.filterMap_append, huse, List.append_nil]
  rfl

/-! ## Filling -/

theorem Draft.names_reserve (draft : Draft) (name : String) (place : Provenance) :
    (draft.reserve name place).names = draft.names ++ [name] := List.map_append

theorem Draft.mem_names_reserve (draft : Draft) (name : String) (place : Provenance) :
    name ∈ (draft.reserve name place).names := by
  rw [names_reserve]
  exact List.mem_append_right _ (List.mem_singleton_self _)

theorem Draft.names_subset_reserve (draft : Draft) (name : String) (place : Provenance) :
    draft.names ⊆ (draft.reserve name place).names := by
  rw [names_reserve]
  exact List.subset_append_left _ _

theorem Body.names_addWith : (body.addWith type inType entry).draft.names = body.draft.names :=
  congrArg (List.map RecordType.name) types_addWith

/-- The type begun after a suspended body has its name whether it is finished or not. -/
theorem Fills.names_resume
    (h : Fills registry unfinished name (Body.begin (body.draft.reserve name place)) entries
      inner) :
    (body.resume inner).draft.names = inner.draft.names := by
  obtain ⟨more, hinner, hresume⟩ := Body.types_resume body inner h.prefix_types
  rw [Draft.names, Draft.names, hinner, hresume]
  simp

theorem Fills.names_prefix (h : Fills registry unfinished inType body entries last) :
    body.draft.names <+: last.draft.names :=
  h.prefix_types.map _

/-- A type that is filled was begun. -/
theorem Fills.begun_mem
    (h : Fills registry unfinished name (Body.begin (body.draft.reserve name place)) entries
      inner) :
    name ∈ inner.draft.names :=
  h.names_prefix.subset (body.draft.mem_names_reserve name place)

/-- The names that a filling begins with are there when the filling around it ends. -/
theorem Fills.names_prefix_of_resumed
    (h : Fills registry unfinished name (Body.begin (body.draft.reserve name place)) entries inner)
    (tail : Fills registry unfinished' inType ((body.resume inner).addWith type inType entry) rest
      last) : inner.draft.names <+: last.draft.names := by
  have hprefix := tail.names_prefix
  rwa [Body.names_addWith, h.names_resume] at hprefix

/-- **Filling a type reports no defects in others**, but for the types that it begins. -/
theorem Fills.defectsIn_eq (h : Fills registry unfinished inType body entries last)
    (hname : name ≠ inType) (hother : name ∈ body.draft.names ∨ name ∉ last.draft.names) :
    defectsIn name last.draft.diagnostics = defectsIn name body.draft.diagnostics := by
  induction h with
  | nil => rfl
  | plain _ _ ih | known _ _ _ ih =>
    rw [ih hname (by rwa [Body.names_addWith]), Body.defectsIn_addWith_of_ne hname]
  | @fresh _ _ begun node body inner last entry _ _ _ absent _ fill tail ihFill ih =>
    have htail := fill.names_prefix_of_resumed tail
    have hne : name ≠ begun := by
      rintro rfl
      exact hother.elim (Draft.find?_eq_none_iff.1 absent) fun hnew =>
        hnew (htail.subset fill.begun_mem)
    have hsubset := body.draft.names_subset_reserve begun node.place
    have hbegun : name ∈ (body.draft.reserve begun node.place).names ∨ name ∉ inner.draft.names :=
      hother.imp (@hsubset _) fun hnew hmem => hnew (htail.subset hmem)
    have hresumed : name ∈ inner.draft.names ∨ name ∉ last.draft.names :=
      hother.imp_left fun hmem => fill.names_prefix.subset (hsubset hmem)
    rw [ih hname (by rwa [Body.names_addWith, fill.names_resume]),
      Body.defectsIn_addWith_of_ne hname, Body.diagnostics_resume, ihFill hne hbegun]
    rfl

/-- **Filling a type reports in it what it adds to its steps.** -/
theorem Fills.agrees (h : Fills registry unfinished inType body entries last)
    (hmem : inType ∈ body.draft.names) (hbody : body.Agrees inType) : last.Agrees inType := by
  induction h with
  | nil => exact hbody
  | plain _ _ ih | known _ _ _ ih =>
    exact ih (by rwa [Body.names_addWith]) (hbody.addWith _ _)
  | @fresh _ inType begun node body inner _ _ _ _ _ absent _ fill _ _ ih =>
    have hne : inType ≠ begun := fun heq => Draft.find?_eq_none_iff.1 absent (heq ▸ hmem)
    have hbegun := body.draft.names_subset_reserve begun node.place hmem
    have hresumed : (body.resume inner).Agrees inType :=
      hbody.trans (fill.defectsIn_eq hne (Or.inl hbegun)).symm
    have hinner := fill.names_prefix.subset hbegun
    exact ih (by rwa [Body.names_addWith, fill.names_resume]) (hresumed.addWith _ _)

/-! ## Types that are finished -/

/-- **A table that reports defects in its types alone.** -/
def Draft.Closed (draft : Draft) : Prop :=
  ∀ name ∉ draft.names, defectsIn name draft.diagnostics = []

theorem Draft.closed_empty : Draft.empty.Closed := fun _ _ => rfl

/-- A type is begun without steps and without defects reported in it. -/
theorem Draft.Closed.agrees_begin {draft : Draft} (h : draft.Closed)
    (absent : draft.find? name = none) (place : Provenance) :
    (Body.begin (draft.reserve name place)).Agrees name :=
  (h name (find?_eq_none_iff.1 absent)).symm

theorem Draft.Closed.reserve {draft : Draft} (h : draft.Closed) (name : String)
    (place : Provenance) : (draft.reserve name place).Closed := fun other hother =>
  h other fun hmem => hother (draft.names_subset_reserve name place hmem)

theorem Draft.Closed.addWith (h : body.draft.Closed) (hmem : inType ∈ body.draft.names)
    (type : TypeRef) (entry : Entry) : (body.addWith type inType entry).draft.Closed := by
  intro name hnew
  rw [Body.names_addWith] at hnew
  have hne : name ≠ inType := by
    rintro rfl
    exact hnew hmem
  rw [Body.defectsIn_addWith_of_ne hne, h name hnew]

theorem Fills.closed (h : Fills registry unfinished inType body entries last)
    (hmem : inType ∈ body.draft.names) (hbody : body.draft.Closed) : last.draft.Closed := by
  intro name hnew
  have hold : name ∉ body.draft.names := fun hname => hnew (h.names_prefix.subset hname)
  have hne : name ≠ inType := fun heq => hold (heq ▸ hmem)
  rw [h.defectsIn_eq hne (Or.inr hnew), hbody name hold]

/-- A type whose steps stand for the defects reported in it. -/
def RecordType.Agrees (problems : List Diagnostic) (type : RecordType) : Prop :=
  defectsOf type.steps = defectsIn type.name problems

/-- What is added behind a type that was begun before leaves it in agreement. -/
theorem Fills.agrees_of_resumed {finished : RecordType}
    (h : Fills registry unfinished name (Body.begin (body.draft.reserve name place)) entries inner)
    (tail : Fills registry unfinished' inType ((body.resume inner).addWith type inType entry) rest
      last) (hagrees : finished.Agrees inner.draft.diagnostics) (hne : finished.name ≠ inType)
    (hmem : finished.name ∈ inner.draft.names) : finished.Agrees last.draft.diagnostics := by
  have hresumed : finished.name ∈ ((body.resume inner).addWith type inType entry).draft.names := by
    rwa [Body.names_addWith, h.names_resume]
  rw [RecordType.Agrees, tail.defectsIn_eq hne (Or.inl hresumed), Body.defectsIn_addWith_of_ne hne,
    Body.diagnostics_resume]
  exact hagrees

/-- **The types that a filling begins agree with what is reported in them.** -/
theorem Fills.exists_agrees (h : Fills registry unfinished inType body entries last)
    (hmem : inType ∈ body.draft.names) (hbody : body.draft.Closed)
    (hnodup : last.draft.names.Nodup) :
    ∃ more, last.draft.types = body.draft.types ++ more ∧
      ∀ type ∈ more, type.Agrees last.draft.diagnostics := by
  induction h with
  | nil => exact ⟨[], (List.append_nil _).symm, nofun⟩
  | plain _ _ ih | known _ _ _ ih =>
    obtain ⟨more, hmore, hagrees⟩ :=
      ih (by rwa [Body.names_addWith]) (hbody.addWith hmem _ _) hnodup
    exact ⟨more, by rwa [Body.types_addWith] at hmore, hagrees⟩
  | @fresh _ inType begun node body inner last entry _ _ _ absent _ fill tail ihFill ih =>
    have hbegin := hbody.agrees_begin absent node.place
    have hclosed := hbody.reserve begun node.place
    have hbegun := body.draft.mem_names_reserve begun node.place
    have hnodupInner := (fill.names_prefix_of_resumed tail).sublist.nodup hnodup
    obtain ⟨inside, hinside, hin⟩ := ihFill hbegun hclosed hnodupInner
    have hresume := body.types_resume_of_eq inner hinside
    have hmemInner : inType ∈ (body.resume inner).draft.names := by
      rw [fill.names_resume]
      exact fill.names_prefix.subset (body.draft.names_subset_reserve begun node.place hmem)
    have hclosedInner : (body.resume inner).draft.Closed := fun name hnew =>
      fill.closed hbegun hclosed name (by rwa [fill.names_resume] at hnew)
    obtain ⟨behind, hbehind, hout⟩ := ih (by rwa [Body.names_addWith])
      (hclosedInner.addWith hmemInner _ _) hnodup
    -- the type begun and those after it have names that the types before them do not have
    have hnew : ∀ type ∈ ⟨begun, inner.properties, inner.steps, node.place⟩ :: inside,
        type.name ≠ inType ∧ type.name ∈ inner.draft.names := by
      rw [← fill.names_resume, Draft.names, hresume, List.map_append] at hnodupInner ⊢
      refine fun type htype => ⟨fun heq => ?_, List.mem_append_right _ (List.mem_map_of_mem htype)⟩
      exact (List.nodup_append.1 hnodupInner).2.2 _ hmem _ (List.mem_map_of_mem htype) heq.symm
    have hearlier : ∀ type ∈ ⟨begun, inner.properties, inner.steps, node.place⟩ :: inside,
        type.Agrees inner.draft.diagnostics :=
      List.forall_mem_cons.2 ⟨fill.agrees hbegun hbegin, hin⟩
    rw [Body.types_addWith, hresume, List.append_assoc] at hbehind
    refine ⟨_, hbehind, List.forall_mem_append.2 ⟨fun type hmem => ?_, hout⟩⟩
    exact fill.agrees_of_resumed tail (hearlier type hmem) (hnew type hmem).1 (hnew type hmem).2

/-! ## Tables -/

theorem Entry.problem?_ne_rootNotFound (entry : Entry) (inType other : String) :
    entry.problem? inType ≠ some (.rootNotFound other) := by
  cases entry with
  | list _ items => cases items <;> simp [problem?]
  | _ => simp [problem?]

/-- No problem of filling is that a root is missing. -/
theorem reporting_ne_rootNotFound (registry : Registry) :
    Reporting registry (fun _ => True) (fun _ => True)
      (fun problem => ∀ other, problem ≠ .rootNotFound other) where
  request _ _ _ _ _ := trivial
  walk _ _ _ _ _ _ := trivial
  problem entry inType _ _ hproblem other heq :=
    entry.problem?_ne_rootNotFound inType other (hproblem.trans (congrArg some heq))

variable {table : TypeTable}

theorem Compiles.agrees (h : Compiles registry id table) :
    ∀ type ∈ table.types, type.Agrees table.diagnostics := by
  cases h with
  | missing => exact nofun
  | @found node entries body root walk fill =>
    have hmem := Draft.empty.mem_names_reserve (sanitize id) node.place
    have hclosed := Draft.closed_empty.reserve (sanitize id) node.place
    obtain ⟨inside, hinside, hin⟩ :=
      fill.exists_agrees hmem hclosed (fill.nodup_names (List.nodup_singleton _))
    have hfinish : (body.finish 0).types = _ :=
      (Body.begin Draft.empty).types_resume_of_eq body hinside
    rw [hfinish, List.forall_mem_append, List.forall_mem_cons]
    exact ⟨nofun, fill.agrees hmem (Draft.closed_empty.agrees_begin rfl node.place), hin⟩

/-- A table reports defects in its types alone. -/
theorem Compiles.defectsIn_eq_nil (h : Compiles registry id table) (hname : name ∉ table.names) :
    defectsIn name table.diagnostics = [] := by
  cases h with
  | missing => rfl
  | @found node entries body root walk fill =>
    have hclosed := Draft.closed_empty.reserve (sanitize id) node.place
    obtain ⟨more, hbody, hfinish⟩ := fill.types_root
    refine fill.closed (Draft.empty.mem_names_reserve _ _) hclosed name ?_
    rw [TypeTable.names, hfinish] at hname
    rwa [Draft.names, hbody]

theorem Compiles.mem_names_of_defect? {problem : Diagnostic} {defect : Defect}
    (h : Compiles registry id table) (hmem : problem ∈ table.diagnostics)
    (hdefect : problem.defect? = some (name, defect)) : name ∈ table.names := by
  have hreported : defect ∈ defectsIn name table.diagnostics :=
    List.mem_map.2 ⟨(name, defect), List.mem_filter.2
      ⟨List.mem_filterMap.2 ⟨problem, hmem, hdefect⟩, decide_eq_true rfl⟩, rfl⟩
  by_contra hname
  rw [h.defectsIn_eq_nil hname] at hreported
  cases hreported

/-- **A missing root is the one problem of a table without types**, and of no other table. -/
theorem Compiles.types_eq_nil_iff (h : Compiles registry id table) :
    (table.types = [] ↔ ∃ other, .rootNotFound other ∈ table.diagnostics) ∧
      (table.types = [] → table.diagnostics = [.rootNotFound id]) := by
  cases h with
  | missing => simp
  | @found _ _ body root walk fill =>
    obtain ⟨more, -, hfinish⟩ := fill.types_root
    have hproblems := fill.forall_diagnostics (reporting_ne_rootNotFound registry)
      (fun _ _ => trivial) nofun
    have hne : (body.finish 0).types ≠ [] := hfinish ▸ List.cons_ne_nil _ _
    exact ⟨iff_of_false hne fun ⟨other, hmem⟩ => hproblems _ hmem other rfl, (absurd · hne)⟩

/-- **The defects of a type are those reported in it.** For every root of every registry, the steps
of each type of the table that stand for a missing reference or a cycle are, one after the other,
the problems of the table that report one in the type; no problem reports one in a type that the
table does not have; and a missing root is reported if and only if the table has no type, as its
only problem. -/
theorem compile_defects (registry : Registry) (id : String) :
    (∀ type ∈ (compile registry id).types,
      defectsOf type.steps = defectsIn type.name (compile registry id).diagnostics) ∧
    (∀ problem ∈ (compile registry id).diagnostics, ∀ name defect,
      problem.defect? = some (name, defect) → name ∈ (compile registry id).names) ∧
    ((compile registry id).types = [] ↔
      ∃ other, .rootNotFound other ∈ (compile registry id).diagnostics) ∧
    ((compile registry id).types = [] →
      (compile registry id).diagnostics = [.rootNotFound id]) := by
  have hrun := compiles_compile registry id
  obtain ⟨hiff, honly⟩ := hrun.types_eq_nil_iff
  exact ⟨hrun.agrees, fun _ hmem _ _ => hrun.mem_names_of_defect? hmem, hiff, honly⟩

end FixedWidth.Table
