import FixedWidth.NameMap
import FixedWidth.Store.Error
import FixedWidth.Store.Location

/-!
# Store/Basic — a tree of files

A `Store` says what each place of a tree holds and where paths start. `Store.locate` walks a path;
each step needs a directory to start from, and the place at the end may be empty. Reading is a
function of the store, and `entryAt?_put_self` and `entryAt?_put_of_ne` say what a change is.
-/

namespace FixedWidth

/-- What a place holds. -/
inductive Entry where
  /-- A directory. -/
  | directory
  /-- A file with its content. -/
  | file (bytes : ByteArray)

/-- Equality of entries is decidable. -/
instance : DecidableEq Entry
  | .directory, .directory => isTrue rfl
  | .file a, .file b => decidable_of_iff (a.data = b.data) (by cases a; cases b; simp)
  | .directory, .file _ => isFalse nofun
  | .file _, .directory => isFalse nofun

/-- A tree of files. -/
structure Store where
  /-- The directory where paths start. -/
  workingDirectory : Location
  /-- What the places below the top hold. -/
  entries : List (Location × Entry)
  deriving DecidableEq

namespace Store

/-- What a place holds. The top is a directory. -/
def entryAt? (store : Store) (place : Location) : Option Entry :=
  if place = [] then some .directory else store.entries.lookup place

/-- Puts an entry at a place, instead of the one that was there. -/
def put (store : Store) (place : Location) (entry : Entry) : Store :=
  { store with entries := (place, entry) :: store.entries.filter (·.1 ≠ place) }

/-- A store of nothing but its working directory. -/
def ofWorkingDirectory (place : Location) : Store where
  workingDirectory := place
  entries := (List.range place.length).map fun n => (place.take (n + 1), .directory)

/-! ## Paths -/

/-- Whether a place is a directory. -/
def requireDirectory (store : Store) (place : Location) : Except StoreError Unit :=
  match store.entryAt? place with
  | some .directory => .ok ()
  | some (.file _) => .error .notADirectory
  | none => .error .notFound

/-- The place that steps lead to from another one. -/
def walk (store : Store) (here : Location) : List String → Except StoreError Location
  | [] => .ok here
  | name :: rest => do
    store.requireDirectory here
    store.walk (here.step name) rest

/-- The place where a path starts. -/
def start (store : Store) (path : String) : Location :=
  if isAbsolutePath path then [] else store.workingDirectory

/-- The place that a path leads to. -/
def locate (store : Store) (path : String) : Except StoreError Location :=
  store.walk (store.start path) (pathSteps path)

/-! ## Reading -/

/-- What a directory holds, by name. -/
def contents (store : Store) (place : Location) : NameMap Entry :=
  NameMap.ofList (store.entries.filterMap fun (other, entry) =>
    match other.getLast? with
    | some name => if other.dropLast = place then some (name, entry) else none
    | none => none)

/-- What the directory at a path holds, by name. -/
def contentsAt (store : Store) (path : String) : Except StoreError (NameMap Entry) := do
  let place ← store.locate path
  store.requireDirectory place
  return store.contents place

/-- The text of an entry. -/
def textOf : Entry → Except StoreError String
  | .directory => .error .isADirectory
  | .file bytes =>
    match String.fromUTF8? bytes with
    | some text => .ok text
    | none => .error .notText

/-- The name and the text of the file at a path. -/
def textAt (store : Store) (path : String) : Except StoreError (String × String) := do
  let place ← store.locate path
  match store.entryAt? place with
  | none => .error .notFound
  | some entry => return (place.getLast?.getD path, ← textOf entry)

/-! ## Laws of changes -/

theorem entryAt?_put_self (store : Store) {place : Location} (h : place ≠ []) (entry : Entry) :
    (store.put place entry).entryAt? place = some entry := by
  simp [put, entryAt?, h]

theorem entryAt?_put_of_ne (store : Store) {place other : Location} (h : place ≠ other)
    (entry : Entry) : (store.put place entry).entryAt? other = store.entryAt? other := by
  have apart : (other == place) = false := by simpa using Ne.symm h
  have filtered : ∀ entries : List (Location × Entry),
      (entries.filter (·.1 ≠ place)).lookup other = entries.lookup other := by
    intro entries
    induction entries with
    | nil => rfl
    | cons pair rest ih =>
      obtain ⟨key, value⟩ := pair
      by_cases hk : key = place
      · subst hk
        simpa [List.lookup_cons, apart] using ih
      · simp only [List.filter_cons, hk, ne_eq, not_false_eq_true, decide_true, if_true,
          List.lookup_cons]
        rw [ih]
  simp only [put, entryAt?, List.lookup_cons, apart, filtered]

end Store

end FixedWidth
