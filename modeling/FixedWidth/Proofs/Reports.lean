import FixedWidth.Proofs.Filling

/-!
# Proofs/Reports — the problems that compiling reports

Filling adds problems behind those that are there and takes none back, so the problem of each entry
is among those of the table (`Fills.mem_diagnostics`), and so are those of the types that were
filled on the way. Conversely each problem of a table is that of an entry: what entries keep, all
problems have (`Compiles.forall_diagnostics`).
-/

namespace FixedWidth.Table

open Naming (sanitize)
open Schema (Node Registry)

variable {registry : Registry} {unfinished : List Nat} {id inType : String} {type : TypeRef}
  {body inner last : Body} {entry : Entry} {entries : List Entry} {problem : Diagnostic}
  {table : TypeTable}

/-! ## Problems stay -/

theorem Body.diagnostics_addWith :
    (body.addWith type inType entry).draft.diagnostics =
      body.draft.diagnostics ++ (entry.problem? inType).toList := by rw [draft_addWith]

theorem Body.prefix_diagnostics_addWith (type : TypeRef) (inType : String) (body : Body)
    (entry : Entry) :
    body.draft.diagnostics <+: (body.addWith type inType entry).draft.diagnostics := by
  rw [diagnostics_addWith]
  exact List.prefix_append _ _

/-- A type that is finished takes its problems to the body that waited for it. -/
theorem Body.diagnostics_resume (body inner : Body) :
    (body.resume inner).draft.diagnostics = inner.draft.diagnostics := rfl

/-- **Filling adds problems behind those that are there.** -/
theorem Fills.prefix_diagnostics (h : Fills registry unfinished inType body entries last) :
    body.draft.diagnostics <+: last.draft.diagnostics := by
  induction h with
  | nil => exact List.prefix_rfl
  | plain _ _ ih | known _ _ _ ih => exact (Body.prefix_diagnostics_addWith ..).trans ih
  | @fresh _ _ _ _ body inner _ _ _ _ _ _ _ _ _ ihFill ih =>
    exact (ihFill.trans (Body.prefix_diagnostics_addWith _ _ (body.resume inner) _)).trans ih

/-- **The problem of each entry is reported.** -/
theorem Fills.mem_diagnostics (h : Fills registry unfinished inType body entries last)
    (hentry : entry ∈ entries) (hproblem : entry.problem? inType = some problem) :
    problem ∈ last.draft.diagnostics := by
  have hadded : ∀ (type : TypeRef) (body : Body),
      problem ∈ (body.addWith type inType entry).draft.diagnostics := by
    intro type body
    rw [Body.diagnostics_addWith, hproblem]
    simp
  induction h with
  | nil => cases hentry
  | plain _ tail ih | known _ _ tail ih | fresh _ _ _ _ tail _ ih =>
    obtain rfl | hrest := List.mem_cons.1 hentry
    · exact tail.prefix_diagnostics.subset (hadded _ _)
    · exact ih hrest hproblem hadded

/-! ## Where problems come from -/

/-- **What is to be shown for every problem to have the property `D`**, where `R` holds of the nodes
that types are made from, and `E` of the entries of their bodies. -/
structure Reporting (registry : Registry) (R : Node → Prop) (E : Entry → Prop)
    (D : Diagnostic → Prop) : Prop where
  request : ∀ entry name node, E entry → entry.request? = some (name, node) → R node
  walk : ∀ node entries, R node →
    Walks registry node.id.toList none node.children entries → ∀ entry ∈ entries, E entry
  problem : ∀ entry inType problem, E entry → entry.problem? inType = some problem → D problem

variable {R : Node → Prop} {E : Entry → Prop} {D : Diagnostic → Prop}

theorem Reporting.addWith (rule : Reporting registry R E D) (hentry : E entry)
    (hbody : ∀ problem ∈ body.draft.diagnostics, D problem) (type : TypeRef) (inType : String) :
    ∀ problem ∈ (body.addWith type inType entry).draft.diagnostics, D problem := by
  rw [Body.diagnostics_addWith, List.forall_mem_append]
  exact ⟨hbody, fun problem hp => rule.problem _ _ _ hentry (Option.mem_toList.1 hp)⟩

/-- What the entries of a body keep, all problems have that are reported while it is filled. -/
theorem Fills.forall_diagnostics (h : Fills registry unfinished inType body entries last)
    (rule : Reporting registry R E D) (hentries : ∀ entry ∈ entries, E entry)
    (hbody : ∀ problem ∈ body.draft.diagnostics, D problem) :
    ∀ problem ∈ last.draft.diagnostics, D problem := by
  induction h with
  | nil => exact hbody
  | plain _ _ ih | known _ _ _ ih =>
    rw [List.forall_mem_cons] at hentries
    exact ih hentries.2 (rule.addWith hentries.1 hbody _ _)
  | @fresh _ _ _ node body inner _ _ _ _ request _ walk _ _ ihFill ih =>
    rw [List.forall_mem_cons] at hentries
    have hnode := rule.request _ _ _ hentries.1 request
    have hinner : ∀ problem ∈ (body.resume inner).draft.diagnostics, D problem :=
      ihFill (rule.walk _ _ hnode walk) hbody
    exact ih hentries.2 (rule.addWith hentries.1 hinner _ _)

/-- **What the entries of a registered root keep, its problems have.** -/
theorem Compiles.forall_diagnostics (h : Compiles registry id table)
    (rule : Reporting registry R E D) (hroot : ∀ node, registry.lookup? id = some node → R node)
    (hmissing : registry.lookup? id = none → D (.rootNotFound id)) :
    ∀ problem ∈ table.diagnostics, D problem := by
  cases h with
  | missing absent => simpa using hmissing absent
  | found root walk fill =>
    exact fill.forall_diagnostics rule (rule.walk _ _ (hroot _ root) walk) nofun

end FixedWidth.Table
