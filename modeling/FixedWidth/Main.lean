import FixedWidth.CommandLine.Run

/-!
# Main — the program on the files of the machine

The files that a command line can touch are taken into a `Store`, the program runs on it as a
function, and what it changed is written back.
-/

namespace FixedWidth.Machine

/-- The path of a place. -/
def absolutePath (place : Location) : String := "/" ++ "/".intercalate place

/-- Takes in what is at a place that was not seen yet, and the bytes of a file if they are
wanted. -/
def observe (wanted : Bool) (store : Store) (place : Location) : IO Store := do
  if (store.entryAt? place).isSome then return store
  try
    let path ← IO.FS.realPath (absolutePath place)
    if ← path.isDir then return store.put place .directory
    let bytes ← if wanted then IO.FS.readBinFile path else pure .empty
    return store.put place (.file bytes)
  catch _ => return store

/-- The places that a path goes through, the last one first. -/
def placesOn (store : Store) (path : String) : List Location :=
  (pathSteps path).foldl (fun places name => (places.headD []).step name :: places)
    [store.start path]

/-- Takes in the directory at a path, the places on the way to it and the schema files in it. -/
def observePath (store : Store) (path : String) : IO Store := do
  let places := placesOn store path
  let place := places.headD []
  let store ← places.reverse.foldlM (observe false) store
  try
    let directory ← IO.FS.realPath (absolutePath place)
    (← directory.readDir).foldlM (fun store file =>
      observe (Schema.isSchemaFile file.fileName (.file .empty)) store
        (place ++ [file.fileName])) store
  catch _ => return store

/-- The paths that a command line can touch. -/
def pathsOf (arguments : List String) : List String :=
  match CommandLine.Invocation.ofArguments arguments with
  | .error _ => []
  | .ok invocation =>
    match invocation.command with
    | .generate _ (some out) _ => [invocation.directory, out]
    | _ => [invocation.directory]

/-- Writes back what changed, in the order in which it did. -/
def writeChanges (before after : Store) : IO Unit :=
  after.entries.reverse.forM fun (place, entry) =>
    if before.entryAt? place = some entry then pure ()
    else
      match entry with
      | .directory => IO.FS.createDir (absolutePath place)
      | .file bytes => IO.FS.writeBinFile (absolutePath place) bytes

end FixedWidth.Machine

/-- Runs the program and ends with its number. -/
def main (arguments : List String) : IO UInt32 := do
  let here := (FixedWidth.piecesOfPath (← IO.currentDir).toString.toList).map String.ofList
  let start := FixedWidth.Store.ofWorkingDirectory (here.filter (· ≠ ""))
  let before ← (FixedWidth.Machine.pathsOf arguments).foldlM FixedWidth.Machine.observePath start
  let (outcome, after) := FixedWidth.CommandLine.run arguments before
  FixedWidth.Machine.writeChanges before after
  IO.print outcome.stdout
  IO.eprint outcome.stderr
  return outcome.exit.toUInt32
