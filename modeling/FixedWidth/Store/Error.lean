/-!
# Store/Error — what can go wrong with files

A `StoreError` is a cause with the number that operating systems give it; `StoreError.message` is
the wording they use.
-/

namespace FixedWidth

/-- Why a file or a directory could not be used. -/
inductive StoreError where
  /-- There is nothing of this name. -/
  | notFound
  /-- Something of this name is there already. -/
  | alreadyExists
  /-- A file is where a directory is needed. -/
  | notADirectory
  /-- A directory is where a file is needed. -/
  | isADirectory
  /-- The bytes of a file are not UTF-8. -/
  | notText
  deriving DecidableEq, Repr

/-- The wording of the error. -/
def StoreError.message : StoreError → String
  | notFound => "No such file or directory (os error 2)"
  | alreadyExists => "File exists (os error 17)"
  | notADirectory => "Not a directory (os error 20)"
  | isADirectory => "Is a directory (os error 21)"
  | notText => "stream did not contain valid UTF-8"

end FixedWidth
