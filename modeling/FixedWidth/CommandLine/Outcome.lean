/-!
# CommandLine/Outcome — what a run prints and how it ends

A run writes to two streams and ends with a number. `Outcome.ofFailure` is a run that failed: what
it had written stays, and the failure with its causes follows on the second stream.
-/

namespace FixedWidth.CommandLine

/-- Why a run failed. -/
structure Failure where
  /-- What went wrong. -/
  message : String
  /-- What it came from, the nearest cause first. -/
  causes : List String
  deriving DecidableEq, Repr

/-- The text of a failure. Causes are numbered if there are several. -/
def Failure.render (failure : Failure) : String :=
  let causes := match failure.causes with
    | [] => ""
    | [cause] => s!"\nCaused by:\n    {cause}\n"
    | causes =>
      "\nCaused by:\n"
        ++ String.join (causes.mapIdx fun number cause => s!"    {number}: {cause}\n")
  s!"Error: {failure.message}\n" ++ causes

/-- What a run prints and how it ends. -/
structure Outcome where
  /-- Zero for success, two for a command line at fault, one for any other failure. -/
  exit : Nat
  /-- The first stream. -/
  stdout : String
  /-- The second stream. -/
  stderr : String
  deriving DecidableEq, Repr

namespace Outcome

/-- A run that succeeded. -/
def ofText (text : String) : Outcome := ⟨0, text, ""⟩

/-- A run that failed after some output. -/
def ofFailure (text : String) (failure : Failure) : Outcome := ⟨1, text, failure.render⟩

end Outcome

end FixedWidth.CommandLine
