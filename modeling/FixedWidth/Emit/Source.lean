import FixedWidth.Emit.Decoder
import FixedWidth.Emit.Encoder
import FixedWidth.Emit.Struct
import FixedWidth.NameMap

/-!
# Emit/Source — the source of a table

Each type of a table becomes an `Artifact`: its struct and the two routines of its codec. `source`
writes all of them into one text, and `bundle` gives each type a module of its own, with an index
that joins the modules.
-/

namespace FixedWidth.Emit

open Table (RecordType TypeTable)

/-- The emitted source of one type. -/
structure Artifact where
  /-- The name of the type. -/
  typeName : String
  /-- The names of its properties. -/
  properties : List String
  /-- The struct. -/
  definition : List Line
  /-- The routine that writes. -/
  encode : EncodeRoutine
  /-- The routine that reads. -/
  decode : DecodeRoutine
  deriving DecidableEq, Repr

namespace Artifact

/-- The artifact of a type, where `types` holds the identifiers of its table. -/
def ofType (options : Options) (table : TypeTable) (types : TypeIdentifiers) (type : RecordType) :
    Artifact :=
  let identify (index : Nat) : String := types.get (table.typeName index)
  let identifier := types.get type.name
  { typeName := type.name
    properties := type.properties.map (·.name)
    definition := structLines options identify identifier type
    encode := .ofType identify identifier type
    decode := .ofType identify identifier type }

/-- The struct and both routines. -/
def lines (artifact : Artifact) : List Line :=
  artifact.definition ++ artifact.encode.lines ++ artifact.decode.lines

end Artifact

/-- The artifacts of a table in the order of its types. -/
def artifactList (options : Options) (table : TypeTable) : List Artifact :=
  table.types.map (Artifact.ofType options table (.ofNames table.names))

/-- The artifacts of a table by the names of their types. -/
def artifacts (options : Options) (table : TypeTable) : NameMap Artifact :=
  NameMap.ofList ((artifactList options table).map fun artifact => (artifact.typeName, artifact))

/-- The first line of every emitted text. -/
def header : Line := .comment 0 "Generated by ironfw. Do not edit."

/-- The line that names what emitted source is built on. -/
def imports : Line :=
  ⟨0, "use ironfw_core::\x7bDecodeCursor, EncodeBuffer, FieldLayout, HostDecode, HostEncode\x7d;"⟩

/-- The problems of a table as comments, with a blank line behind them. -/
def warnings (table : TypeTable) : List Line :=
  if table.diagnostics.isEmpty then []
  else table.diagnostics.map (fun problem => .comment 0 s!"warning: {problem.message}") ++ [.blank]

/-- The lines of one text with all types. -/
def sourceLines (options : Options) (table : TypeTable) : List Line :=
  [header, imports, .blank] ++ warnings table
    ++ (artifactList options table).flatMap (·.lines)

/-- One text with all types. -/
def source (options : Options) (table : TypeTable) : String := render (sourceLines options table)

/-! ## One module a type -/

/-- The modules of a table, in the order of its types. -/
def moduleNames (table : TypeTable) : List String := Naming.distinct (table.names.map moduleName)

/-- The lines of the module of one type. -/
def moduleLines (artifact : Artifact) : List Line :=
  [header, ⟨0, "#[allow(unused_imports)]"⟩, imports, ⟨0, "#[allow(unused_imports)]"⟩,
    ⟨0, "use super::*;"⟩, .blank] ++ artifact.lines

/-- The lines of the index. -/
def indexLines (table : TypeTable) : List Line :=
  header :: (moduleNames table).flatMap fun name =>
    [⟨0, s!"pub mod {name};"⟩, ⟨0, s!"pub use {name}::*;"⟩]

/-- The files of a table, each with its content: one a type, and the index last. -/
def bundle (options : Options) (table : TypeTable) : List (String × String) :=
  ((moduleNames table).zip (artifactList options table)).map
      (fun (name, artifact) => (name ++ ".rs", render (moduleLines artifact)))
    ++ [("mod.rs", render (indexLines table))]

end FixedWidth.Emit
