import FixedWidth.Table.Basic

/-!
# Emit/StepUse — what a step asks of a routine

A routine names its buffer or its cursor with an underscore unless some step touches the wire, and
the struct that it reads may change only if some step assigns to it. Both are told from the steps
of the type before any statement is chosen.
-/

namespace FixedWidth.Emit

open Table (ItemType RecordType Repetition Step)

/-- The items of a list step and how often they come. -/
def listShape? (type : RecordType) : Step → Option (ItemType × Repetition)
  | .list index => do
    let property ← type.properties[index]?
    match property.kind with
    | .list item repetition => return (item, repetition)
    | _ => failure
  | _ => none

/-- Whether the step reads or writes wire text. Markers and lists of texts without a width leave
only a comment or a constant default. -/
def touchesWire (type : RecordType) (step : Step) : Bool :=
  match step with
  | .unresolved _ | .cycle _ => false
  | .list _ =>
    match listShape? type step with
    | some (.text none, _) => false
    | _ => true
  | _ => true

/-- Whether a field of the struct that is read is assigned to at the step. -/
def assignsValue (type : RecordType) (step : Step) : Bool :=
  match step with
  | .field .. | .nested _ => true
  | .list _ =>
    match listShape? type step with
    | some (.text none, .dynamic) => false
    | _ => true
  | _ => false

end FixedWidth.Emit
