import FixedWidth.Wire.Buffer
import FixedWidth.Wire.Cursor

/-!
# Sample/Customer — emitted source of one format

What is emitted for the format of a customer, as functions: a customer has a name, an age, two
telephones and any number of notes. `Customer.encode` and `Customer.decode` do what the emitted
routines do, call by call, and bring a customer to the wire and back with nothing but `Wire.Buffer`
and `Wire.Cursor`.
-/

namespace FixedWidth.Sample

open Wire (Buffer Cursor)

/-- A telephone of a customer. -/
structure Phone where
  /-- The number, if it is set. -/
  number : Option String
  deriving DecidableEq, Repr

/-- A customer. -/
structure Customer where
  /-- The name, if it is set. -/
  name : Option String
  /-- The age, if it is set. -/
  age : Option String
  /-- The telephones, of which the wire holds two. -/
  phones : List Phone
  /-- The notes. -/
  notes : List String
  deriving DecidableEq, Repr

/-- An optional text as it is written to a field. -/
def fieldText (value : Option String) : List Char := (value.getD "").toList

/-- A text that was read from a field. -/
def textOf (value : Option (List Char)) : Option String := value.map String.ofList

namespace Phone

/-- A telephone without a number. -/
def blank : Phone := ⟨none⟩

/-- Writes a telephone. -/
def encodeInto (phone : Phone) (buffer : Buffer) : Buffer :=
  buffer.putField (.text 5) (fieldText phone.number)

/-- Reads a telephone. -/
def decodeFrom (cursor : Cursor) : Phone × Cursor :=
  let (number, next) := cursor.takeValue (.text 5)
  (⟨textOf number⟩, next)

end Phone

namespace Customer

/-- Writes a customer. Missing telephones are blank, and further ones are not written. -/
def encodeInto (customer : Customer) (buffer : Buffer) : Buffer :=
  let buffer := buffer.putConstant ['C', 'U'] 2
  let buffer := buffer.putField (.text 8) (fieldText customer.name)
  let buffer := buffer.putField (.numeric 3) (fieldText customer.age)
  let buffer := (customer.phones[0]?.getD Phone.blank).encodeInto buffer
  let buffer := (customer.phones[1]?.getD Phone.blank).encodeInto buffer
  let buffer := buffer.putPadding 1
  customer.notes.foldl (fun buffer note => buffer.putField (.text 4) note.toList) buffer

/-- The wire text of a customer. -/
def encode (customer : Customer) : List Char := (customer.encodeInto .empty).text

/-- Reads notes to the end; each of them takes four characters. -/
def notesFrom : (fuel : Nat) → Cursor → List String
  | 0, _ => []
  | fuel + 1, cursor =>
    match cursor.takeValue (.text 4) with
    | (some note, next) => String.ofList note :: notesFrom fuel next
    | (none, _) => []

/-- The customer that a wire text holds. -/
def decode (text : List Char) : Customer :=
  let cursor := ((Cursor.ofText text).skip 2).2
  let (name, cursor) := cursor.takeValue (.text 8)
  let (age, cursor) := cursor.takeValue (.numeric 3)
  let (first, cursor) := Phone.decodeFrom cursor
  let (second, cursor) := Phone.decodeFrom cursor
  let cursor := (cursor.skip 1).2
  ⟨textOf name, textOf age, [first, second], notesFrom cursor.remaining cursor⟩

end Customer

end FixedWidth.Sample
