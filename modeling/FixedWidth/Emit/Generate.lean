import FixedWidth.Emit.Source
import FixedWidth.Schema.Load
import FixedWidth.Store.Write
import FixedWidth.Table.Compile

/-!
# Emit/Generate — from schema text to source files

`generate` compiles a root and writes its source as one text; `generateFromText` and
`generateFromDirectory` read the schema first. `writeBundle` writes one file a type into a
directory of a store.
-/

namespace FixedWidth.Emit

open Table (TypeTable)

/-- Why no source was generated. -/
inductive GenerateError where
  /-- The schema could not be read. -/
  | read (cause : Schema.ReadError)
  /-- A file could not be written. -/
  | store (cause : StoreError)
  /-- The root is not registered. -/
  | rootNotFound (root : String)
  /-- The table is empty. -/
  | noTypes
  deriving DecidableEq, Repr

/-- The wording of the error. -/
def GenerateError.message : GenerateError → String
  | read cause => s!"schema parse error: {cause.message}"
  | store cause => s!"IO error: {cause.message}"
  | rootNotFound root => s!"generation error: root '{root}' not found"
  | noTypes => "generation error: no types to generate"

/-- The source of a root of a registry. -/
def generate (options : Options) (registry : Schema.Registry) (root : String) :
    Except GenerateError String :=
  let table := Table.compile registry root
  if table.rootType?.isNone then .error (.rootNotFound root) else .ok (source options table)

/-- The name of a document that came as a text. -/
def textSource : String := "<input>"

/-- The source of a root of one document. -/
def generateFromText (options : Options) (text root : String) : Except GenerateError String := do
  let document ← (Schema.Document.parse textSource text.toList).mapError (.read ∘ .parse)
  generate options (.ofDocuments [document]) root

/-- The source of a root of the documents of a directory. -/
def generateFromDirectory (options : Options) (store : Store) (path root : String) :
    Except GenerateError String := do
  let report ← (Schema.loadDirectory store path).mapError (.read ∘ .store)
  generate options report.registry root

/-- Writes the files of a table into a directory, which is made if it is missing. The answer is
their paths. -/
def writeBundle (options : Options) (table : TypeTable) (directory : String) :
    StoreAction GenerateError (List String) := do
  if table.types.isEmpty then throw .noTypes
  (Store.createDirectories directory).adapt .store
  (bundle options table).mapM fun (name, text) => do
    let path := joinPath directory name
    (Store.putFile path text.toUTF8).adapt .store
    return path

end FixedWidth.Emit
