import FixedWidth.Store.Basic

/-!
# Store/Write — making directories and files

Changes of a store are `StoreAction`s: an action that fails keeps what it did before. A directory
is made with the missing ones above it; a file is made in a directory that is there.
-/

namespace FixedWidth

/-- An action on a store. What was done before a failure stays done. -/
abbrev StoreAction (ε α : Type) := ExceptT ε (StateM Store) α

namespace Store

/-! ## Directories -/

/-- The steps of a path to a directory that is to be made. A dot at the end stays, because it asks
for a directory that is there already; other dots and slashes at the end mean nothing. -/
def directorySteps (path : String) : List String :=
  let names := ((piecesOfPath path.toList).filter (!·.isEmpty)).map String.ofList
  names.filter (· ≠ ".") ++ if names.getLast? = some "." then ["."] else []

/-- Makes the directory at the end of steps. The one above it has to be there. -/
def makeDirectory (store : Store) (start : Location) (steps : List String) :
    Except StoreError Store := do
  let parent ← store.walk start steps.dropLast
  store.requireDirectory parent
  let place := parent.step (steps.getLast?.getD ".")
  match store.entryAt? place with
  | some .directory => return store
  | some (.file _) => .error .alreadyExists
  | none => return store.put place .directory

/-- Makes the directory at the end of steps, of which the last comes first, and those above it. -/
def makeDirectories (start : Location) : List String → StoreAction StoreError Unit
  | [] => pure ()
  | name :: above => do
    match (← get).makeDirectory start (name :: above).reverse with
    | .ok store => set store
    | .error .notFound =>
      makeDirectories start (if name = "." then above.tail else above)
      set (← (← get).makeDirectory start (name :: above).reverse)
    | .error cause => throw cause
termination_by steps => steps.length
decreasing_by split <;> simp only [List.length_tail, List.length_cons] <;> omega

/-- Makes the directory at a path and those above it, as far as they are missing. -/
def createDirectories (path : String) : StoreAction StoreError Unit := do
  makeDirectories ((← get).start path) (directorySteps path).reverse

/-! ## Files -/

/-- Writes the file at a path, over the one that was there. -/
def putFile (path : String) (bytes : ByteArray) : StoreAction StoreError Unit := do
  let store ← get
  let place ← store.locate path
  match store.entryAt? place with
  | some .directory => throw .isADirectory
  | _ => set (store.put place (.file bytes))

end Store

end FixedWidth
