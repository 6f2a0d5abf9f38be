import FixedWidth.NameMap

/-!
# Record — dynamically typed values

A `Value` is a text, a record or a list of values, and a `Record` gives values to property names;
a property that is not set is absent. The typed readers `Record.text`, `Record.record` and
`Record.list` give what is set, nothing when it is absent, and a `ValueMismatch` when a value of
another kind is set.
-/

namespace FixedWidth

/-- A property value. The fields of a record are a `NameMap`. -/
inductive Value where
  /-- A text. -/
  | text (content : String)
  /-- A nested record. -/
  | record (fields : List (String × Value))
  /-- Items in order. -/
  | list (items : List Value)
  deriving Repr, Inhabited

/-- Property values by name. -/
abbrev Record := List (String × Value)

/-- The three kinds of values. -/
inductive ValueKind where
  /-- The kind of texts. -/
  | text
  /-- The kind of nested records. -/
  | record
  /-- The kind of lists. -/
  | list
  deriving DecidableEq, Repr

/-- The word for a kind in an error. -/
def ValueKind.name : ValueKind → String
  | text => "text"
  | record => "record"
  | list => "list"

/-- A value whose kind is not the one its property has. -/
structure ValueMismatch where
  /-- The property that holds the value. -/
  field : String
  /-- The kind the property has. -/
  expected : ValueKind
  /-- The kind of the value. -/
  found : ValueKind
  deriving DecidableEq, Repr

/-- The wording of the error. -/
def ValueMismatch.message (e : ValueMismatch) : String :=
  s!"value mismatch for field '{e.field}': expected {e.expected.name}, found {e.found.name}"

namespace Value

/-- The kind of a value. -/
def kind : Value → ValueKind
  | text _ => .text
  | record _ => .record
  | list _ => .list

mutual

/-- Equality of values is decidable. -/
def decEq : (a b : Value) → Decidable (a = b)
  | text s, text t => decidable_of_iff (s = t) (by simp)
  | record f, record g =>
    match decEqFields f g with
    | isTrue h => isTrue (h ▸ rfl)
    | isFalse h => isFalse (by simpa using h)
  | list v, list w =>
    match decEqItems v w with
    | isTrue h => isTrue (h ▸ rfl)
    | isFalse h => isFalse (by simpa using h)
  | text _, record _ => isFalse nofun
  | text _, list _ => isFalse nofun
  | record _, text _ => isFalse nofun
  | record _, list _ => isFalse nofun
  | list _, text _ => isFalse nofun
  | list _, record _ => isFalse nofun

/-- Equality of fields is decidable. -/
def decEqFields : (f g : List (String × Value)) → Decidable (f = g)
  | [], [] => isTrue rfl
  | [], _ :: _ => isFalse nofun
  | _ :: _, [] => isFalse nofun
  | (m, v) :: f, (n, w) :: g =>
    if hn : m = n then
      match decEq v w, decEqFields f g with
      | isTrue hv, isTrue hf => isTrue (by rw [hn, hv, hf])
      | isFalse hv, _ => isFalse (by simp [hv])
      | _, isFalse hf => isFalse (by simp [hf])
    else isFalse (by simp [hn])

/-- Equality of items is decidable. -/
def decEqItems : (v w : List Value) → Decidable (v = w)
  | [], [] => isTrue rfl
  | [], _ :: _ => isFalse nofun
  | _ :: _, [] => isFalse nofun
  | a :: v, b :: w =>
    match decEq a b, decEqItems v w with
    | isTrue ha, isTrue hv => isTrue (by rw [ha, hv])
    | isFalse ha, _ => isFalse (by simp [ha])
    | _, isFalse hv => isFalse (by simp [hv])

end

instance : DecidableEq Value := decEq

/-- The number of records and lists around the deepest value. -/
def depth : Value → Nat
  | text _ => 0
  | record fields => depthFields fields + 1
  | list items => depthItems items + 1
where
  depthFields : List (String × Value) → Nat
    | [] => 0
    | (_, value) :: rest => max value.depth (depthFields rest)
  depthItems : List Value → Nat
    | [] => 0
    | value :: rest => max value.depth (depthItems rest)

end Value

namespace Record

/-- Sets a property. -/
def insert (record : Record) (name : String) (value : Value) : Record :=
  NameMap.insert record name value

/-- The value of a property. -/
def get? (record : Record) (name : String) : Option Value := NameMap.get? record name

/-- The depth of the values of a record. -/
def depth (record : Record) : Nat := Value.depth.depthFields record

/-- The text of a property. -/
def text (record : Record) (name : String) : Except ValueMismatch (Option String) :=
  match record.get? name with
  | none => .ok none
  | some (.text content) => .ok (some content)
  | some other => .error ⟨name, .text, other.kind⟩

/-- The nested record of a property. -/
def record (record : Record) (name : String) : Except ValueMismatch (Option Record) :=
  match record.get? name with
  | none => .ok none
  | some (.record fields) => .ok (some fields)
  | some other => .error ⟨name, .record, other.kind⟩

/-- The items of a property. -/
def list (record : Record) (name : String) : Except ValueMismatch (Option (List Value)) :=
  match record.get? name with
  | none => .ok none
  | some (.list items) => .ok (some items)
  | some other => .error ⟨name, .list, other.kind⟩

@[simp]
theorem get?_insert_self (record : Record) (name : String) (value : Value) :
    (record.insert name value).get? name = some value :=
  NameMap.get?_insert_self record name value

theorem get?_insert_of_ne (record : Record) {name other : String} (h : name ≠ other)
    (value : Value) : (record.insert name value).get? other = record.get? other :=
  NameMap.get?_insert_of_ne record h value

end Record

end FixedWidth
