import FixedWidth.Proofs.Identifiers
import FixedWidth.Schema.Load

/-!
# Proofs/Loading — a loaded directory is a list of documents

Loading goes through the schema files one after the other and passes over those that are no
documents, so that the registry is the one of the documents alone (`registry_ofContents`).
-/

namespace FixedWidth.Schema

variable {name : String} {entry : Entry} {document : Document} {contents : NameMap Entry}

/-- The schema files among the entries of a directory. -/
def schemaFiles (contents : NameMap Entry) : NameMap Entry :=
  contents.filter fun (name, entry) => isSchemaFile name entry

/-- The document in a file, if there is one. -/
def documentOf? (file : String × Entry) : Option Document :=
  (readEntry file.1 file.2).toOption

/-- The documents in the schema files of a directory, in the order of their names. -/
def documentsOf (contents : NameMap Entry) : List Document :=
  (schemaFiles contents).filterMap documentOf?

/-- Wrapping errors changes no result. -/
theorem eq_ok_of_mapError {α ε ε' : Type} {x : Except ε α} {f : ε → ε'} {a : α}
    (h : x.mapError f = .ok a) : x = .ok a := by
  cases x with
  | error cause => cases h
  | ok a =>
    cases h
    rfl

/-- A document of a directory was read from a text. -/
theorem exists_parse_of_readEntry (h : readEntry name entry = .ok document) :
    ∃ text, Document.parse name text = .ok document := by
  rw [readEntry] at h
  rcases hstore : (Store.textOf entry).mapError ReadError.store with cause | text
  · rw [hstore] at h
    cases h
  · rw [hstore] at h
    exact ⟨text.toList, eq_ok_of_mapError h⟩

theorem exists_parse_of_mem_documentsOf (h : document ∈ documentsOf contents) :
    ∃ source text, Document.parse source text = .ok document := by
  obtain ⟨⟨name, entry⟩, -, hread⟩ := List.mem_filterMap.1 h
  rcases hdocument : readEntry name entry with cause | parsed
  · simp [documentOf?, hdocument, Except.toOption] at hread
  · obtain rfl : parsed = document := by simpa [documentOf?, hdocument, Except.toOption] using hread
    obtain ⟨text, hparse⟩ := exists_parse_of_readEntry hdocument
    exact ⟨name, text, hparse⟩

/-- The name of a file that is no document, with the error. -/
def failureOf? (file : String × Entry) : Option (String × ReadError) :=
  match readEntry file.1 file.2 with
  | .ok _ => none
  | .error cause => some (file.1, cause)

/-- **What files add to a report**: documents in their order, and the names of the other files. -/
theorem LoadReport.foldl_add (files : NameMap Entry) (report : LoadReport) :
    files.foldl (fun report file => report.add file.1 (readEntry file.1 file.2)) report =
      ⟨(files.filterMap documentOf?).foldl Registry.registerDocument report.registry,
        report.loaded ++ (files.filter fun file => (documentOf? file).isSome).map Prod.fst,
        report.failures ++ files.filterMap failureOf?⟩ := by
  induction files generalizing report with
  | nil => simp
  | cons file rest ih =>
    rw [List.foldl_cons, ih]
    cases h : readEntry file.1 file.2 <;>
      simp [h, add, documentOf?, failureOf?, Except.toOption]

/-- **What loading a directory gives.** -/
theorem LoadReport.ofContents_eq (contents : NameMap Entry) :
    ofContents contents =
      ⟨.ofDocuments (documentsOf contents),
        ((schemaFiles contents).filter fun file => (documentOf? file).isSome).map Prod.fst,
        (schemaFiles contents).filterMap failureOf?⟩ :=
  foldl_add (schemaFiles contents) empty

/-- **The registry of a directory is the one of its documents.** -/
theorem LoadReport.registry_ofContents (contents : NameMap Entry) :
    (ofContents contents).registry = Registry.ofDocuments (documentsOf contents) := by
  rw [ofContents_eq]

end FixedWidth.Schema
