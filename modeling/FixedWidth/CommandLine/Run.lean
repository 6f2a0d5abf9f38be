import FixedWidth.CommandLine.Arguments
import FixedWidth.CommandLine.Outcome
import FixedWidth.Emit.Generate
import FixedWidth.Schema.Audit
import FixedWidth.Schema.Dump

/-!
# CommandLine/Run — a run of the program

`run` is the whole program as a function: it takes arguments and the files that are there, and
gives what is printed together with the files afterwards. The directory is loaded before the
command is looked at, so that an unreadable one is always the failure that is reported.
-/

namespace FixedWidth.CommandLine

open Schema (LoadReport Path Registry)

/-- Lines with their ends. -/
def unlines (lines : List String) : String := String.join (lines.map (· ++ "\n"))

/-! ## Reports -/

/-- The lines on the files of a directory that are no documents. -/
def failedLines (directory : String) (report : LoadReport) : List String :=
  report.failures.map fun (name, cause) =>
    s!"failed: {joinPath directory name}: {cause.message}"

/-- The lines on the roots of a directory. -/
def summaryLines (directory : String) (report : LoadReport) : List String :=
  let registry := report.registry
  [s!"documents: {report.loaded.length}", s!"roots: {registry.roots.length}",
      s!"identifiers: {registry.identifiers.length}"]
    ++ registry.roots.map (fun root =>
      let id := root.id.getD "-"
      s!"  <{root.tag}> id={id} children={root.children.length} ({root.place.render})")
    ++ failedLines directory report

/-- Where the node at a path was declared. -/
def placeOf (registry : Registry) (path : Path) : String :=
  match registry.resolve? path with
  | some node => node.place.render
  | none => "?"

/-- The lines on the references and identifiers of a directory. -/
def checkLines (directory : String) (report : LoadReport) : List String :=
  let audit := report.registry.audit
  [s!"references: {audit.references}"]
    ++ audit.dangling.map (fun dangling =>
      s!"{dangling.place.render}: unresolved reference '{dangling.reference}'")
    ++ audit.overrides.map (fun change =>
      let before := placeOf report.registry change.replaced
      let after := placeOf report.registry change.replacement
      s!"identifier '{change.id}' defined at {before} is overridden by {after}")
    ++ failedLines directory report

/-- Whether a check finds nothing to report. -/
def passesCheck (report : LoadReport) : Bool :=
  report.registry.audit.isClean && report.failures.isEmpty

/-- The number of findings of each kind. -/
def findings (report : LoadReport) : String :=
  let audit := report.registry.audit
  s!"{audit.dangling.length} unresolved reference(s), "
    ++ s!"{audit.overrides.length} overridden identifier(s), "
    ++ s!"{report.failures.length} failed document(s)"

/-- The outcome of a check. -/
def check (directory : String) (report : LoadReport) : Outcome :=
  let lines := checkLines directory report
  if passesCheck report then .ofText (unlines (lines ++ ["ok"]))
  else .ofFailure (unlines lines) ⟨findings report, []⟩

/-- The outcome of printing a node. -/
def dump (registry : Registry) (id : String) : Outcome :=
  match registry.lookup? id with
  | some node => .ofText (node.dumpPretty ++ "\n")
  | none => .ofFailure "" ⟨s!"identifier '{id}' not found", []⟩

/-! ## Generated source -/

/-- The failure to write source. -/
def writeFailure (error : Emit.GenerateError) : Failure where
  message := error.message
  causes := match error with
    | .store cause => [cause.message]
    | .read cause => [cause.message]
    | .rootNotFound _ | .noTypes => []

/-- The outcome of generating source, and the files afterwards. -/
def generate (registry : Registry) (root : String) (out : Option String) (sourceComments : Bool)
    (store : Store) : Outcome × Store :=
  let table := Table.compile registry root
  let options := { Emit.Options.standard with sourceComments }
  if table.rootType?.isNone then (.ofFailure "" ⟨s!"root '{root}' not found", []⟩, store)
  else
    match out with
    | none => (.ofText (Emit.source options table), store)
    | some directory =>
      match (Emit.writeBundle options table directory).run store with
      | (.ok paths, store) => (.ofText (unlines paths), store)
      | (.error cause, store) => (.ofFailure "" (writeFailure cause), store)

/-! ## The program -/

/-- The line of the version. -/
def versionLine : String := "ironfw 0.1.0"

/-- What is printed for help. -/
def helpText : String := unlines
  ["Fixed-width host record codec generator", "",
    "Usage: ironfw [OPTIONS] <DIR> <COMMAND>", "",
    "Commands:",
    "  summary   Print loaded roots and the identifier count",
    "  dump      Dump the node registered under an identifier as JSON",
    "  check     Report unresolved references and overridden identifiers",
    "  generate  Generate Rust codec sources for a root fragment",
    "  help      Print this message or the help of the given subcommand(s)", "",
    "Arguments:",
    "  <DIR>  Directory containing the XML schema documents", "",
    "Options:",
    "  -v, --verbose  Enable debug logging (overridden by RUST_LOG)",
    "  -h, --help     Print help",
    "  -V, --version  Print version"]

/-- The outcome of a command line that asks for nothing to be done. -/
def Halt.outcome : Halt → Outcome
  | misuse cause =>
    ⟨2, "", s!"error: {cause.message}\n\nFor more information, try '--help'.\n"⟩
  | help => .ofText helpText
  | version => .ofText (versionLine ++ "\n")

/-- The failure to read the directory with the documents. -/
def directoryFailure (directory : String) (cause : StoreError) : Failure :=
  ⟨s!"cannot read schema directory {directory}",
    [(Schema.ReadError.store cause).message, cause.message]⟩

/-- Does what an invocation asks for. -/
def Invocation.run (invocation : Invocation) (store : Store) : Outcome × Store :=
  let directory := invocation.directory
  match Schema.loadDirectory store directory with
  | .error cause => (.ofFailure "" (directoryFailure directory cause), store)
  | .ok report =>
    match invocation.command with
    | .summary => (.ofText (unlines (summaryLines directory report)), store)
    | .dump id => (dump report.registry id, store)
    | .check => (check directory report, store)
    | .generate root out sourceComments =>
      generate report.registry root out sourceComments store

/-- The program: what arguments do with the files that are there. -/
def run (arguments : List String) (store : Store) : Outcome × Store :=
  match Invocation.ofArguments arguments with
  | .error halt => (halt.outcome, store)
  | .ok invocation => invocation.run store

end FixedWidth.CommandLine
