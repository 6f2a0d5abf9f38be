import FixedWidth.Schema.Registry
import FixedWidth.Store.Basic

/-!
# Schema/Load — the documents of a directory

`LoadReport.ofContents` registers the schema files of a directory in the order of their names. A
file that is no document is reported and changes nothing else, so the registry is the one of the
files that parse.
-/

namespace FixedWidth.Schema

/-- Why a file gave no document. -/
inductive ReadError where
  /-- The file could not be read. -/
  | store (cause : StoreError)
  /-- Its text is no document. -/
  | parse (cause : ParseError)
  deriving DecidableEq, Repr

/-- The wording of the error. -/
def ReadError.message : ReadError → String
  | store cause => s!"IO error: {cause.message}"
  | parse cause => cause.message

/-- Whether a directory entry is a schema document: a file whose name ends in `.xml` and has
something before that. -/
def isSchemaFile (name : String) : Entry → Bool
  | .directory => false
  | .file _ => ".xml".toList.isSuffixOf name.toList && name != ".xml"

/-- The document that an entry holds, under its name. -/
def readEntry (name : String) (entry : Entry) : Except ReadError Document := do
  let text ← (Store.textOf entry).mapError .store
  (Document.parse name text.toList).mapError .parse

/-- The document in the file at a path, under the name of the file. -/
def readDocument (store : Store) (path : String) : Except ReadError Document := do
  let (name, text) ← (store.textAt path).mapError .store
  (Document.parse name text.toList).mapError .parse

/-- What came of loading a directory. -/
structure LoadReport where
  /-- The documents that parsed. -/
  registry : Registry
  /-- The names of their files. -/
  loaded : List String
  /-- The names of the other files, with their errors. -/
  failures : List (String × ReadError)
  deriving Repr

namespace LoadReport

/-- Nothing loaded yet. -/
def empty : LoadReport := ⟨.empty, [], []⟩

/-- Adds what reading one file gave. -/
def add (report : LoadReport) (name : String) : Except ReadError Document → LoadReport
  | .ok document =>
    { report with
      registry := report.registry.registerDocument document
      loaded := report.loaded ++ [name] }
  | .error cause => { report with failures := report.failures ++ [(name, cause)] }

/-- Loads the schema files among the entries of a directory. -/
def ofContents (contents : NameMap Entry) : LoadReport :=
  (contents.filter fun (name, entry) => isSchemaFile name entry).foldl
    (fun report (name, entry) => report.add name (readEntry name entry)) empty

end LoadReport

/-- Loads the directory at a path. -/
def loadDirectory (store : Store) (path : String) : Except StoreError LoadReport := do
  return .ofContents (← store.contentsAt path)

end FixedWidth.Schema
