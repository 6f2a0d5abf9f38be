import FixedWidth.CommandLine.Run
import FixedWidth.Proofs.Loading
import FixedWidth.Proofs.Reports
import FixedWidth.Proofs.TypeNames

/-!
# Proofs/Dangling — a reference that compiling misses is dangling

    audit: every node of the forest ──contains──▸ index
    compiling: bodies, references, items of lists ──look-up──▸ node

The audit and the compiler come to references by different ways and ask different questions. Both
agree where the index follows the nodes: what the compiler reaches is held by the registry, and an
identifier that is not found is not registered (`Compiles.audited`). So a directory that passes the
check compiles without a reference that leads nowhere (`check_covers_compile`).
-/

namespace FixedWidth.Schema.Registry

variable {registry : Registry} {node : Node} {reference : String}

/-- The audit reports each reference to an identifier that is not registered. -/
theorem mem_dangling (hn : registry.Holds node) (hkind : node.kind = .reference)
    (href : node.refId = some reference) (hmissing : registry.contains reference = false) :
    ⟨reference, node.place⟩ ∈ registry.audit.dangling := by
  refine List.mem_filter.2 ⟨?_, by simpa using hmissing⟩
  obtain ⟨entry, hentry, rfl⟩ := List.mem_map.1 hn.mem_occurrences
  exact List.mem_filterMap.2 ⟨entry, hentry, by simp [hkind, href]⟩

/-- Where the index follows the nodes, an identifier that is not found is not registered. -/
theorem contains_eq_false (h : registry.index.Follows registry.roots)
    (hl : registry.lookup? reference = none) : registry.contains reference = false := by
  have hiff := (h.lastWins reference).contains_iff
  rw [hl] at hiff
  simpa using hiff

/-- Where the index follows the nodes, every identifier is found. -/
theorem lookup?_isSome (h : registry.index.Follows registry.roots)
    (hid : reference ∈ registry.identifiers) : (registry.lookup? reference).isSome :=
  (h.lastWins reference).contains_iff.1 (NameMap.isSome_get?_of_mem_names hid)

end FixedWidth.Schema.Registry

namespace FixedWidth.Table

open Schema (DanglingReference Document Node Registry)

variable {registry : Registry} {id name : String} {node : Node} {entry : Entry}
  {entries : List Entry} {table : TypeTable}

/-! ## References in entries -/

/-- The reference that an entry reports as one that leads nowhere. -/
def Entry.dangling? : Entry → Option DanglingReference
  | .list _ (.missing reference place) _ _ | .unresolved reference place => some ⟨reference, place⟩
  | _ => none

/-- A reference that the entry reports, the audit reports too. -/
def Entry.Audited (registry : Registry) (entry : Entry) : Prop :=
  ∀ dangling, entry.dangling? = some dangling → dangling ∈ registry.audit.dangling

theorem audited_of_dangling?_none (h : entry.dangling? = none) : entry.Audited registry := by
  intro dangling hd
  rw [h] at hd
  cases hd

/-- The item of a list is missing where a reference among its children is not found. -/
theorem exists_of_itemNode_error {children : List Node} {reference : String}
    {place : Schema.Provenance} (h : itemNode registry children = .error (reference, place)) :
    ∃ child ∈ children, child.kind = .reference ∧ child.refId = some reference ∧
      child.place = place ∧ registry.lookup? reference = none := by
  fun_induction itemNode registry children with
  | case1 | case2 => cases h
  | case3 _ _ _ _ _ ih | case6 _ _ _ _ ih =>
    obtain ⟨child, hmem, hfound⟩ := ih h
    exact ⟨child, List.mem_cons_of_mem _ hmem, hfound⟩
  | case4 => cases h
  | case5 child rest _ hkind reference href hl =>
    cases h
    exact ⟨child, List.mem_cons_self, hkind, href, rfl, hl⟩

theorem audited_list (h : registry.index.Follows registry.roots) (hn : registry.Holds node)
    (repetition : Repetition) (place : Schema.Provenance) :
    (Entry.list name (itemsOf registry name node) repetition place).Audited registry := by
  rw [itemsOf]
  split
  · split <;> exact audited_of_dangling?_none rfl
  · exact audited_of_dangling?_none rfl
  · rename_i reference place' hitem
    rintro dangling hd
    obtain ⟨child, hmem, hkind, href, rfl, hl⟩ := exists_of_itemNode_error hitem
    cases hd
    exact Registry.mem_dangling (hn.child hmem) hkind href (Registry.contains_eq_false h hl)

/-- **A held node has audited entries.** -/
theorem audited_of_partOf (h : registry.index.Follows registry.roots)
    {repetition : Option Repetition} {following : List Node} {list : List Entry}
    (hn : registry.Holds node) (hp : partOf registry repetition following node = .entries list) :
    ∀ entry ∈ list, entry.Audited registry := by
  intro entry hentry
  obtain ⟨name, -, rfl⟩ | ⟨name, -, -, rfl⟩ | ⟨name, rfl⟩ | ⟨width, -, rfl⟩ | hpad :=
    mem_of_partOf hp hentry
  · exact audited_of_dangling?_none rfl
  · exact audited_list h hn _ _
  · exact audited_of_dangling?_none rfl
  · exact audited_of_dangling?_none rfl
  · obtain ⟨width, -, rfl⟩ | ⟨raw, rfl⟩ := eq_of_mem_paddingEntries hpad <;>
      exact audited_of_dangling?_none rfl

/-- **A walk through held nodes has audited entries.** -/
theorem Walks.audited (h : registry.index.Follows registry.roots) {splicing : List String}
    {repetition : Option Repetition} {nodes : List Node}
    (walk : Walks registry splicing repetition nodes entries)
    (hn : ∀ node ∈ nodes, registry.Holds node) : ∀ entry ∈ entries, entry.Audited registry :=
  walk.forall_of_parts hn (fun _ hnode _ hc => hnode.child hc)
    (fun _ _ hl => Registry.holds_of_lookup? hl)
    (fun _ _ _ _ hnode hp => audited_of_partOf h hnode hp)
    (fun _ _ _ _ _ => audited_of_dangling?_none rfl)
    fun node reference hnode hkind href hl dangling hd => by
      cases hd
      exact Registry.mem_dangling hnode hkind href (Registry.contains_eq_false h hl)

/-! ## References in problems -/

/-- A problem with a root is that it is not found, and a reference that leads nowhere is one that
the audit reports. -/
def Diagnostic.Audited (registry : Registry) (id : String) : Diagnostic → Prop
  | rootNotFound other => other = id ∧ registry.lookup? id = none
  | unresolvedReference reference _ place => ⟨reference, place⟩ ∈ registry.audit.dangling
  | referenceCycle _ _ _ | invalidPadding _ _ _ => True

theorem Entry.Audited.problem {inType : String} {problem : Diagnostic}
    (h : entry.Audited registry) (hproblem : entry.problem? inType = some problem) :
    problem.Audited registry id := by
  cases entry with
  | list _ items =>
    cases items with
    | missing =>
      cases hproblem
      exact h _ rfl
    | records | texts => cases hproblem
  | unresolved =>
    cases hproblem
    exact h _ rfl
  | badPadding | cycle =>
    cases hproblem
    trivial
  | field | constant | padding | group => cases hproblem

/-- **The problems of a table are audited.** -/
theorem Compiles.audited (h : registry.index.Follows registry.roots)
    (hrun : Compiles registry id table) : ∀ problem ∈ table.diagnostics,
      problem.Audited registry id := by
  have rule : Reporting registry registry.Holds
      (fun entry => entry.FromForest registry id ∧ entry.Audited registry)
      (·.Audited registry id) := {
    request := fun _ name node hentry hr => (hentry.1 name node hr).2
    walk := fun _ entries hnode walk entry hentry =>
      ⟨walk.fromForest (fun _ hc => hnode.child hc) entry hentry,
        walk.audited h (fun _ hc => hnode.child hc) entry hentry⟩
    problem := fun _ _ _ hentry hproblem => hentry.2.problem hproblem }
  exact hrun.forall_diagnostics rule (fun _ hl => Registry.holds_of_lookup? hl)
    fun hl => ⟨rfl, hl⟩

end FixedWidth.Table

namespace FixedWidth.CommandLine

open Schema (Document LoadReport Node Registry)
open Table (Diagnostic compile)

/-! ## Checked directories -/

/-- The index of a loaded directory follows the nodes of its documents. -/
theorem follows_of_loadDirectory {store : Store} {path : String} {report : LoadReport}
    (h : Schema.loadDirectory store path = .ok report) :
    report.registry.index.Follows report.registry.roots := by
  rw [Schema.loadDirectory] at h
  rcases hcontents : store.contentsAt path with cause | contents
  · rw [hcontents] at h
    cases h
  · rw [hcontents] at h
    cases h
    rw [LoadReport.registry_ofContents]
    exact Schema.Registry.follows_ofDocuments fun _ => Schema.exists_parse_of_mem_documentsOf

/-- A check that ends with success found no dangling reference. -/
theorem dangling_eq_nil_of_check {directory : String} {report : LoadReport}
    (h : (check directory report).exit = 0) : report.registry.audit.dangling = [] := by
  rw [check] at h
  split at h
  · rename_i hpasses
    rw [passesCheck, Schema.Audit.isClean, Bool.and_eq_true, Bool.and_eq_true,
      List.isEmpty_iff] at hpasses
    exact hpasses.1.1
  · cases h

/-- A run that checks a directory and succeeds has loaded it and found nothing. -/
theorem exists_report_of_run {arguments : List String} {store : Store} {invocation : Invocation}
    (harguments : Invocation.ofArguments arguments = .ok invocation)
    (hcommand : invocation.command = .check) (hexit : (run arguments store).1.exit = 0) :
    ∃ report, Schema.loadDirectory store invocation.directory = .ok report ∧
      report.registry.audit.dangling = [] := by
  rw [run, harguments] at hexit
  simp only [Invocation.run, hcommand] at hexit
  rcases hload : Schema.loadDirectory store invocation.directory with cause | report
  · rw [hload] at hexit
    cases hexit
  · rw [hload] at hexit
    exact ⟨report, rfl, dangling_eq_nil_of_check hexit⟩

/-- Where the audit found no dangling reference, a registered identifier compiles without a
reference that leads nowhere. -/
theorem resolves_of_dangling_eq_nil {registry : Registry} {id : String} {problem : Diagnostic}
    (h : registry.index.Follows registry.roots) (hclean : registry.audit.dangling = [])
    (hid : id ∈ registry.identifiers) (hmem : problem ∈ (compile registry id).diagnostics) :
    (∀ other, problem ≠ .rootNotFound other) ∧
      ∀ reference inType place, problem ≠ .unresolvedReference reference inType place := by
  have haudited := (Table.compiles_compile registry id).audited h problem hmem
  refine ⟨?_, ?_⟩
  · rintro other rfl
    have hsome := Registry.lookup?_isSome h hid
    rw [haudited.2] at hsome
    cases hsome
  · rintro reference inType place rfl
    rw [Diagnostic.Audited, hclean] at haudited
    cases haudited

/-- **Compiling misses no reference that the audit does not report.** Where documents were read, a
reference that some root cannot resolve is among the dangling ones, with its place; so a directory
that passes the check compiles from each of its identifiers without a reference that leads
nowhere. -/
theorem check_covers_compile :
    (∀ documents : List Document,
      (∀ document ∈ documents, ∃ source text, Document.parse source text = .ok document) →
      ∀ id reference inType place,
        .unresolvedReference reference inType place ∈
          (compile (Registry.ofDocuments documents) id).diagnostics →
        ⟨reference, place⟩ ∈ (Registry.ofDocuments documents).audit.dangling) ∧
      ∀ arguments store invocation, Invocation.ofArguments arguments = .ok invocation →
        invocation.command = .check → (run arguments store).1.exit = 0 →
        ∃ report, Schema.loadDirectory store invocation.directory = .ok report ∧
          ∀ id ∈ report.registry.identifiers,
            ∀ problem ∈ (compile report.registry id).diagnostics,
              (∀ other, problem ≠ .rootNotFound other) ∧
                ∀ reference inType place,
                  problem ≠ .unresolvedReference reference inType place := by
  refine ⟨fun documents hparse id reference inType place hmem => ?_,
    fun arguments store invocation harguments hcommand hexit => ?_⟩
  · have hfollows := Registry.follows_ofDocuments hparse
    exact (Table.compiles_compile _ id).audited hfollows _ hmem
  · obtain ⟨report, hload, hclean⟩ := exists_report_of_run harguments hcommand hexit
    exact ⟨report, hload, fun id hid problem hmem =>
      resolves_of_dangling_eq_nil (follows_of_loadDirectory hload) hclean hid hmem⟩

/-- A document whose only reference leads nowhere. -/
def torn : Document :=
  .ofRoots "torn.xml" [{ Node.ofTag "fmtDef" ⟨"torn.xml", 1⟩ with
    id := some "A"
    children := [{ Node.ofTag "refFmt" ⟨"torn.xml", 2⟩ with refId := some "B" }] }]

/-- A directory with one document, whose only reference leads to its second root. -/
def sound : Store :=
  ((Store.ofWorkingDirectory ["home"]).put ["home", "schemas"] .directory).put
    ["home", "schemas", "a.xml"] (.file
      "<fmtDef id=\"A\"><refFmt refId=\"B\"/></fmtDef><fmtDef id=\"B\"/>".toUTF8)

/-- The audit reports the torn reference, and the sound directory passes the check. -/
theorem torn_dangling :
    (∀ document ∈ [torn], ∃ source text, Document.parse source text = .ok document) ∧
      (⟨"B", ⟨"torn.xml", 2⟩⟩ : Schema.DanglingReference) ∈
        (Registry.ofDocuments [torn]).audit.dangling ∧
      (run ["schemas", "check"] sound).1.exit = 0 ∧
      (Schema.loadDirectory sound "schemas").toOption.map (·.registry.identifiers) =
        some ["A", "B"] ∧
      ∃ report, Schema.loadDirectory sound "schemas" = .ok report ∧
        ∀ id ∈ report.registry.identifiers,
          ∀ problem ∈ (compile report.registry id).diagnostics,
            (∀ other, problem ≠ .rootNotFound other) ∧
              ∀ reference inType place,
                problem ≠ .unresolvedReference reference inType place := by
  have hparse : ∀ document ∈ [torn], ∃ source text,
      Document.parse source text = .ok document := by
    intro document hmem
    obtain rfl := List.mem_singleton.1 hmem
    exact ⟨"torn.xml", "<fmtDef id=\"A\">\n<refFmt refId=\"B\"/></fmtDef>".toList, by rfl⟩
  have hproblem : .unresolvedReference "B" "A" ⟨"torn.xml", 2⟩ ∈
      (compile (Registry.ofDocuments [torn]) "A").diagnostics := by decide +kernel
  have hexit : (run ["schemas", "check"] sound).1.exit = 0 := by decide +kernel
  refine ⟨hparse, check_covers_compile.1 [torn] hparse "A" "B" "A" _ hproblem, hexit,
    by decide +kernel, ?_⟩
  exact check_covers_compile.2 ["schemas", "check"] sound ⟨"schemas", false, .check⟩ (by rfl) rfl
    hexit

end FixedWidth.CommandLine
