import FixedWidth.Proofs.Contents
import FixedWidth.Proofs.Loading
import Mathlib.Tactic.SplitIfs

/-!
# Proofs/LoadedFiles — a broken file counts for nothing

    a.xml ✓   b.xml ✗   c.xml ✓   notes.txt      ──load──▸      documents of a.xml, c.xml ; b.xml ✗

A directory is loaded in the order in which the bytes of its names stand (`lt_iff_bytesOf_lt`). Each
of its schema files is reported once, as loaded or as a failure, by what reading it at its own path
gives. A failure adds nothing, so the registry is the one of the directory without that file
(`loadDirectory_isolates`).
-/

namespace FixedWidth.Text

/-! ## The order of names -/

/-- The bytes of a text. -/
def bytesOf (text : String) : List UInt8 := text.toUTF8.data.toList

theorem bytesOf_eq (text : String) :
    bytesOf text = text.toList.flatMap String.utf8EncodeChar := by
  have hbytes (cs : List Char) : bytesOf (String.ofList cs) = cs.flatMap String.utf8EncodeChar := by
    rw [bytesOf, String.toUTF8_eq_toByteArray, String.toByteArray_ofList, List.utf8Encode,
      List.toList_data_toByteArray]
  rw [← hbytes, String.ofList_toList]

/-- A smaller character has smaller bytes, whatever follows. -/
theorem utf8EncodeChar_append_lt {c d : Char} (h : c < d) (front back : List UInt8) :
    String.utf8EncodeChar c ++ front < String.utf8EncodeChar d ++ back := by
  have hlt : c.val.toNat < d.val.toNat := h
  have hd : d.val.toNat < 1114112 := by
    have hvalid := d.valid
    simp only [UInt32.isValidChar, Nat.isValidChar] at hvalid
    omega
  -- the first place where bytes divide the code points and the two differ
  have hdigits : c.val.toNat / 262144 < d.val.toNat / 262144 ∨
      c.val.toNat / 262144 = d.val.toNat / 262144 ∧ (c.val.toNat / 4096 < d.val.toNat / 4096 ∨
        c.val.toNat / 4096 = d.val.toNat / 4096 ∧ (c.val.toNat / 64 < d.val.toNat / 64 ∨
          c.val.toNat / 64 = d.val.toNat / 64 ∧ c.val.toNat % 64 < d.val.toNat % 64)) := by
    omega
  unfold String.utf8EncodeChar
  dsimp only
  split_ifs <;>
    simp only [List.cons_append, List.nil_append, List.cons_lt_cons_iff, UInt8.lt_iff_toNat_lt,
      ← UInt8.toNat_inj, UInt8.toNat_ofNat'] <;>
    simp (disch := omega) only [Nat.mod_eq_of_lt] <;>
    omega

theorem flatMap_utf8EncodeChar_lt {cs ds : List Char} (h : cs < ds) :
    cs.flatMap String.utf8EncodeChar < ds.flatMap String.utf8EncodeChar := by
  induction cs generalizing ds with
  | nil =>
    cases ds with
    | nil => cases h
    | cons d ds =>
      obtain ⟨byte, bytes, hbytes⟩ :=
        List.exists_cons_of_ne_nil (String.utf8EncodeChar_ne_nil (c := d))
      rw [List.flatMap_nil, List.flatMap_cons, hbytes]
      exact List.nil_lt_cons _ _
  | cons c cs ih =>
    cases ds with
    | nil => cases h
    | cons d ds =>
      rw [List.flatMap_cons, List.flatMap_cons]
      obtain hlt | ⟨rfl, hrest⟩ := List.cons_lt_cons_iff.1 h
      · exact utf8EncodeChar_append_lt hlt _ _
      · exact List.append_left_lt (ih hrest)

/-- **The order of code points is the order of bytes.** -/
theorem lt_iff_bytesOf_lt {a b : String} : a < b ↔ bytesOf a < bytesOf b := by
  have hmono {a b : String} (h : a < b) : bytesOf a < bytesOf b := by
    rw [bytesOf_eq, bytesOf_eq]
    exact flatMap_utf8EncodeChar_lt (String.lt_iff.1 h)
  refine ⟨hmono, fun h => String.not_le.1 fun hle => ?_⟩
  obtain rfl | hne := eq_or_ne a b
  · exact List.lt_irrefl _ h
  · have hgt : b < a := String.not_le.1 fun hge => hne (String.le_antisymm hge hle)
    exact List.lt_asymm h (hmono hgt)

end FixedWidth.Text

namespace FixedWidth.Schema

variable {store : Store} {path name : String} {here : Location} {entry : Entry}
  {contents : NameMap Entry}

/-! ## Schema files -/

/-- A schema file is a file whose name has something before its ending. -/
theorem isSchemaFile_iff : isSchemaFile name entry = true ↔
    (∃ stem, stem ≠ "" ∧ name = stem ++ ".xml") ∧ ∃ bytes, entry = .file bytes := by
  cases entry with
  | directory => simp [isSchemaFile]
  | file bytes =>
    simp only [isSchemaFile, Bool.and_eq_true, List.isSuffixOf_iff_suffix, bne_iff_ne]
    constructor
    · rintro ⟨⟨stem, hstem⟩, hne⟩
      have hname : name = String.ofList stem ++ ".xml" :=
        String.toList_inj.1 (by rw [String.toList_append, String.toList_ofList, hstem])
      refine ⟨⟨String.ofList stem, fun hempty => hne ?_, hname⟩, bytes, rfl⟩
      rw [hname, hempty]
      rfl
    · rintro ⟨⟨stem, hstem, rfl⟩, -⟩
      refine ⟨⟨stem.toList, (String.toList_append ..).symm⟩, fun heq => hstem ?_⟩
      have hlist := congrArg String.toList heq
      rw [String.toList_append] at hlist
      exact String.toList_inj.1 (List.append_left_eq_self.1 hlist)

theorem mem_schemaFiles (h : store.WellNamed) : (name, entry) ∈ schemaFiles (store.contents here) ↔
    (∃ stem, stem ≠ "" ∧ name = stem ++ ".xml") ∧ (∃ bytes, entry = .file bytes) ∧
      store.entryAt? (here ++ [name]) = some entry := by
  rw [schemaFiles, List.mem_filter, h.mem_contents_iff, isSchemaFile_iff]
  tauto

/-- **The document at the path of a file is the one that its entry holds.** -/
theorem readDocument_joinPath (hname : Store.IsFileName name)
    (hhere : store.HasDirectory path here)
    (hentry : store.entryAt? (here ++ [name]) = some entry) :
    readDocument store (joinPath path name) = readEntry name entry := by
  have hlocate := (Store.locate_joinPath_iff hname).2 ⟨here, hhere, rfl⟩
  rw [readDocument, Store.textAt, hlocate, readEntry]
  simp only [bind, Except.bind, hentry, List.getLast?_concat, Option.getD_some]
  cases Store.textOf entry <;> rfl

/-! ## Files that are no documents -/

theorem documentOf?_eq_none_iff {file : String × Entry} :
    documentOf? file = none ↔ ∃ cause, readEntry file.1 file.2 = .error cause := by
  rw [documentOf?]
  cases readEntry file.1 file.2 <;> simp [Except.toOption]

theorem failureOf?_eq_some_iff {file : String × Entry} {failure : String × ReadError} :
    failureOf? file = some failure ↔
      failure.1 = file.1 ∧ readEntry file.1 file.2 = .error failure.2 := by
  obtain ⟨name, cause⟩ := failure
  rw [failureOf?]
  cases readEntry file.1 file.2 <;> simp [eq_comm]

/-- The failures are the files without a document. -/
theorem map_fst_failures (files : NameMap Entry) :
    (files.filterMap failureOf?).map Prod.fst =
      (files.filter fun file => !(documentOf? file).isSome).map Prod.fst := by
  induction files with
  | nil => rfl
  | cons file rest ih =>
    cases h : readEntry file.1 file.2 <;>
      simp [failureOf?, documentOf?, h, ih, Except.toOption]

/-- **A file that is no document takes no part in the documents of its directory.** -/
theorem documentsOf_filter
    (hfail : ∀ entry, (name, entry) ∈ contents → documentOf? (name, entry) = none) :
    documentsOf (contents.filter (·.1 ≠ name)) = documentsOf contents := by
  simp only [documentsOf, schemaFiles, List.filterMap_filter]
  refine List.filterMap_congr fun file hmem => ?_
  by_cases hname : file.1 = name
  · subst hname
    simp [hfail file.2 hmem]
  · simp [hname]

/-! ## Loading -/

section Loading

variable (hnamed : store.WellNamed) (hhere : store.HasDirectory path here)

include hhere

theorem loadDirectory_eq :
    loadDirectory store path = .ok (.ofContents (store.contents here)) := by
  rw [loadDirectory, hhere.contentsAt]
  rfl

include hnamed

theorem readDocument_of_mem {file : String × Entry}
    (hmem : file ∈ schemaFiles (store.contents here)) :
    readDocument store (joinPath path file.1) = readEntry file.1 file.2 := by
  obtain ⟨-, -, hentry⟩ := (mem_schemaFiles hnamed).1 hmem
  exact readDocument_joinPath (hnamed.isFileName hentry) hhere hentry

/-- **The failures are the schema files that cannot be read**, with the errors of reading them. -/
theorem mem_failures_iff {cause : ReadError} :
    (name, cause) ∈ (schemaFiles (store.contents here)).filterMap failureOf? ↔
      name ∈ (schemaFiles (store.contents here)).map Prod.fst ∧
        readDocument store (joinPath path name) = .error cause := by
  simp only [List.mem_filterMap, List.mem_map, failureOf?_eq_some_iff]
  constructor
  · rintro ⟨file, hmem, rfl, hcause⟩
    exact ⟨⟨file, hmem, rfl⟩, (readDocument_of_mem hnamed hhere hmem).trans hcause⟩
  · rintro ⟨⟨file, hmem, rfl⟩, hcause⟩
    exact ⟨file, hmem, rfl, (readDocument_of_mem hnamed hhere hmem).symm.trans hcause⟩

/-- **A directory without one of its failures gives the same registry.** -/
theorem exists_loadDirectory_erase {failure : String × ReadError}
    (hmem : failure ∈ (schemaFiles (store.contents here)).filterMap failureOf?) :
    ∃ other, loadDirectory (store.erase (here ++ [failure.1])) path = .ok other ∧
      other.registry = .ofDocuments (documentsOf (store.contents here)) := by
  obtain ⟨⟨name, entry⟩, hfile, hfailure⟩ := List.mem_filterMap.1 hmem
  obtain ⟨hname, hcause⟩ := failureOf?_eq_some_iff.1 hfailure
  obtain ⟨-, ⟨bytes, rfl⟩, hentry⟩ := (mem_schemaFiles hnamed).1 hfile
  have hfree : store.entryAt? (here ++ [name]) ≠ some .directory := by simp [hentry]
  have hdocument (other : Entry) (hother : (name, other) ∈ store.contents here) :
      documentOf? (name, other) = none := by
    rw [hnamed.mem_contents_iff, hentry, Option.some_inj] at hother
    subst hother
    exact documentOf?_eq_none_iff.2 ⟨_, hcause⟩
  rw [hname]
  refine ⟨_, loadDirectory_eq (hnamed.hasDirectory_erase hhere hfree), ?_⟩
  rw [LoadReport.registry_ofContents, hnamed.contents_erase, documentsOf_filter hdocument]

end Loading

/-- **Loading a directory isolates the files that are no documents.** The schema files of the
directory, in the order of their bytes, are each reported once: as a failure with the error that
reading the file gives, or else as loaded. The registry is the one of the documents in that order,
and the same as without any of the failures. -/
theorem loadDirectory_isolates (hnamed : store.WellNamed) (hhere : store.HasDirectory path here) :
    ∃ report names, loadDirectory store path = .ok report ∧
      names.Pairwise (fun a b => Text.bytesOf a < Text.bytesOf b) ∧
      (∀ name, name ∈ names ↔ (∃ stem, stem ≠ "" ∧ name = stem ++ ".xml") ∧
        ∃ bytes, store.entryAt? (here ++ [name]) = some (.file bytes)) ∧
      report.registry = .ofDocuments (names.filterMap fun name =>
        (readDocument store (joinPath path name)).toOption) ∧
      (report.loaded ++ report.failures.map Prod.fst).Perm names ∧
      report.loaded.Sublist names ∧ (report.failures.map Prod.fst).Sublist names ∧
      (∀ name cause, (name, cause) ∈ report.failures ↔
        name ∈ names ∧ readDocument store (joinPath path name) = .error cause) ∧
      ∀ failure ∈ report.failures, ∃ other,
        loadDirectory (store.erase (here ++ [failure.1])) path = .ok other ∧
          other.registry = report.registry := by
  refine ⟨_, (schemaFiles (store.contents here)).map Prod.fst, loadDirectory_eq hhere, ?_⟩
  rw [LoadReport.ofContents_eq]
  refine ⟨?sorted, ?files, ?registry, ?once, List.filter_sublist.map _, ?failed,
    fun name cause => mem_failures_iff hnamed hhere,
    fun failure hmem => exists_loadDirectory_erase hnamed hhere hmem⟩
  case sorted =>
    refine List.pairwise_map.2 ((Store.ordered_contents store here).filter _ |>.imp ?_)
    exact fun h => Text.lt_iff_bytesOf_lt.1 h
  case files =>
    intro name
    simp only [List.mem_map, Prod.exists, exists_and_right, exists_eq_right, mem_schemaFiles hnamed]
    constructor
    · rintro ⟨entry, hstem, ⟨bytes, rfl⟩, hentry⟩
      exact ⟨hstem, bytes, hentry⟩
    · rintro ⟨hstem, bytes, hentry⟩
      exact ⟨_, hstem, ⟨bytes, rfl⟩, hentry⟩
  case registry =>
    rw [documentsOf, List.filterMap_map]
    refine congrArg _ (List.filterMap_congr fun file hmem => ?_)
    rw [documentOf?, Function.comp_apply, readDocument_of_mem hnamed hhere hmem]
  case once =>
    rw [map_fst_failures, ← List.map_append]
    exact (List.filter_append_perm _ _).map _
  case failed =>
    rw [map_fst_failures]
    exact List.filter_sublist.map _

/-- A directory with a schema file that is broken, between two that give one identifier to
different types. -/
def mixed : Store :=
  let actions : List (StoreAction StoreError Unit) :=
    [Store.createDirectories "schemas/old.xml",
      Store.putFile "schemas/c.xml" "<fmtDef id=\"X\" dataName=\"Later\"/>".toUTF8,
      Store.putFile "schemas/b.xml" "<fmtDef><broken></fmtDef>".toUTF8,
      Store.putFile "schemas/a.xml" "<fmtDef id=\"X\" dataName=\"Earlier\"/>".toUTF8,
      Store.putFile "schemas/notes.txt" "<fmtDef id=\"T\"/>".toUTF8]
  actions.foldl (fun store action => (action.run store).2) (.ofWorkingDirectory ["home"])

/-- The broken file is the only failure, and of the other two the later overrides the earlier. -/
theorem mixed_isolates :
    mixed.WellNamed ∧ mixed.HasDirectory "schemas" ["home", "schemas"] ∧
      (loadDirectory mixed "schemas").toOption.map (fun report =>
        (report.loaded, report.failures.map Prod.fst, report.registry.overrides.length)) =
        some (["a.xml", "c.xml"], ["b.xml"], 1) ∧
      ∃ (report : LoadReport) (names : List String), loadDirectory mixed "schemas" = .ok report ∧
        report.registry = .ofDocuments (names.filterMap fun name =>
          (readDocument mixed (joinPath "schemas" name)).toOption) ∧
        ∀ failure ∈ report.failures, ∃ other,
          loadDirectory (mixed.erase ["home", "schemas", failure.1]) "schemas" = .ok other ∧
            other.registry = report.registry := by
  have hhome : Location.Proper ["home"] :=
    List.forall_mem_singleton.2 ⟨by decide, by decide, by decide, by decide⟩
  have hnamed : mixed.WellNamed :=
    ((((Store.wellNamed_ofWorkingDirectory hhome).createDirectories _).putFile _ _).putFile _ _
      |>.putFile _ _).putFile _ _
  have hhere : mixed.HasDirectory "schemas" ["home", "schemas"] :=
    ⟨by decide +kernel, by decide +kernel⟩
  obtain ⟨report, names, hload, -, -, hregistry, -, -, -, -, hisolated⟩ :=
    loadDirectory_isolates hnamed hhere
  exact ⟨hnamed, hhere, by decide +kernel, report, names, hload, hregistry, hisolated⟩

end FixedWidth.Schema
