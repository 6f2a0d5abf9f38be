/-!
# Store/Location — places in a tree of files, and the texts that name them

A `Location` is the list of names that leads from the top of a tree to a place. A path is a text
that names a place: its `pathSteps` are the pieces between slashes, walked from the working
directory or, for a path that begins with a slash, from the top. A step of one dot stays, one of
two dots goes up.
-/

namespace FixedWidth

/-- The names from the top of a tree down to a place. -/
abbrev Location := List String

/-- The place that one step leads to. Going up from the top stays there. -/
def Location.step (here : Location) (name : String) : Location :=
  if name = "." then here else if name = ".." then here.dropLast else here ++ [name]

/-- The pieces of a text between slashes, the empty ones included. -/
def piecesOfPath : List Char → List (List Char)
  | [] => [[]]
  | '/' :: rest => [] :: piecesOfPath rest
  | c :: rest =>
    match piecesOfPath rest with
    | [] => [[c]]
    | piece :: pieces => (c :: piece) :: pieces

/-- Whether a path starts at the top. -/
def isAbsolutePath (path : String) : Bool := path.toList.head? == some '/'

/-- Whether a path ends with a slash, and so asks for a directory. -/
def endsWithSlash (path : String) : Bool := path.toList.getLast? == some '/'

/-- The steps of a path. A slash at the end is a step that stays. -/
def pathSteps (path : String) : List String :=
  ((piecesOfPath path.toList).filter (!·.isEmpty)).map String.ofList
    ++ if endsWithSlash path then ["."] else []

/-- The path of a name in a directory. -/
def joinPath (directory name : String) : String :=
  if directory = "" || endsWithSlash directory then directory ++ name
  else directory ++ "/" ++ name

theorem piecesOfPath_ne_nil (path : List Char) : piecesOfPath path ≠ [] := by
  fun_cases piecesOfPath path <;> simp_all

end FixedWidth
