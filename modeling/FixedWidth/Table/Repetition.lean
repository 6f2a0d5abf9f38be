import FixedWidth.Text.Numeral

/-!
# Table/Repetition — how many items a list has on the wire

A repetition is declared as `*` or as a count. What is neither counts as one.
-/

namespace FixedWidth.Table

/-- The item count of a list. -/
inductive Repetition where
  /-- As many items as the value has; reading goes on to the end of the text. -/
  | dynamic
  /-- Always this many items. -/
  | fixed (count : Nat)
  deriving DecidableEq, Repr

namespace Repetition

/-- Reads a declaration, which may be missing. -/
def parse : Option String → Repetition
  | none => .fixed 1
  | some declared =>
    if Unicode.trim declared.toList = ['*'] then .dynamic
    else .fixed ((Text.Numeral.read? declared.toList).getD 1)

/-- The declaration of a repetition. -/
def render : Repetition → String
  | dynamic => "*"
  | fixed count => toString count

end Repetition

end FixedWidth.Table
