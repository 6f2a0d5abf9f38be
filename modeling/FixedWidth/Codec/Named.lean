import FixedWidth.Codec.Decode
import FixedWidth.Codec.Encode

/-!
# Codec/Named — coding by the name of a type

`encodeNamed` and `decodeNamed` find a type by its name first; a name that the table does not have
is an error of its own.
-/

namespace FixedWidth.Codec

open Table (TypeTable)

/-- Why a record or a text was not coded. -/
inductive CodecError where
  /-- The table has no type of this name. -/
  | unknownType (name : String)
  /-- A property has a value of another kind. -/
  | value (cause : ValueMismatch)
  deriving DecidableEq, Repr

/-- The wording of the error. -/
def CodecError.message : CodecError → String
  | unknownType name => s!"unknown type '{name}'"
  | value cause => s!"value error: {cause.message}"

/-- The index of the type with a name. -/
def indexOf (table : TypeTable) (name : String) : Except CodecError Nat :=
  match table.find? name with
  | some index => .ok index
  | none => .error (.unknownType name)

/-- The wire text of a record of a named type. -/
def encodeNamed (table : TypeTable) (name : String) (record : Record) :
    Except CodecError (List Char) := do
  let index ← indexOf table name
  (encode table index record).mapError .value

/-- The record of a named type that a wire text holds. -/
def decodeNamed (table : TypeTable) (name : String) (text : List Char) :
    Except CodecError Record := do
  let index ← indexOf table name
  return decode table index text

end FixedWidth.Codec
