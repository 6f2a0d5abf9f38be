import FixedWidth.Proofs.Reading
import FixedWidth.Proofs.Writing

/-!
# Proofs/NormalForm — what a record is after coding

The wire keeps of a text what fits into its field, of a fixed list its declared number of items,
and nothing of a property that the type does not have. `normalForm` is a record with only what the
wire keeps; `get?_normalForm` says what it has under each name.
-/

namespace FixedWidth.Codec

open Table

/-! ## Normal values -/

/-- The text that is written for a value. -/
def textOf : Option Value → List Char
  | some (.text content) => content.toList
  | _ => []

/-- The record that is written for a value. -/
def recordOf : Option Value → Record
  | some (.record fields) => fields
  | _ => []

/-- The items that are written for a value. -/
def listOf : Option Value → List Value
  | some (.list items) => items
  | _ => []

/-- A text after it was framed and recovered. -/
def normalText (layout : Layout) (value : Option Value) : Value :=
  .text (String.ofList (layout.decode (layout.encode (textOf value))))

/-- The items of a list after coding. Texts without a layout are lost; of the others there are as
many as the list has places. -/
def normalItems (normal : Nat → Record → Record) (property : Property) (item : ItemType)
    (repetition : Repetition) (items : List Value) : List Value :=
  match item with
  | .text none =>
    match repetition with
    | .dynamic => []
    | .fixed count => List.replicate count (.text "")
  | .text (some layout) =>
    (slots (placeCount repetition false items.length) items).map (normalText layout)
  | .record target =>
    (slots (placeCount repetition property.recursive items.length) items).map fun place =>
      .record (normal target (recordOf place))

/-- The value of a property after coding, if it has one. -/
def normalValue (normal : Nat → Record → Record) (property : Property) (value : Option Value) :
    Option Value :=
  match property.kind with
  | .text layout => layout.map (normalText · value)
  | .nested target =>
    match value with
    | some (.record fields) => some (.record (normal target fields))
    | _ => if property.recursive then none else some (.record (normal target []))
  | .list item repetition =>
    some (.list (normalItems normal property item repetition (listOf value)))

/-- The normal values of the properties of a type. -/
def normalFields (normal : Nat → Record → Record) (type : RecordType) (record : Record) : Record :=
  type.properties.foldl (fun fields property =>
    putValue fields ((normalValue normal property (record.get? property.name)).map
      (property.name, ·))) []

/-- The record after coding, down to a depth of `fuel`. -/
def normalWith (table : TypeTable) : (fuel : Nat) → Nat → Record → Record
  | 0, _, _ => []
  | fuel + 1, index, record =>
    match table.types[index]? with
    | some type => normalFields (normalWith table fuel) type record
    | none => []

/-- **The normal form** of a record of the type at an index. -/
def normalForm (table : TypeTable) (index : Nat) (record : Record) : Record :=
  normalWith table (record.depth + table.types.length + 1) index record

variable {table : TypeTable} {type : RecordType} {record : Record} {rank : Nat → Nat}
  {index : Nat} {normal normal' : Nat → Record → Record}

/-! ## The equation of normal forms -/

theorem depth_lt_of_mem_listOf {name : String} {fields : Record}
    (h : .record fields ∈ listOf (record.get? name)) : fields.depth < record.depth := by
  rcases hvalue : record.get? name with _ | ⟨_ | _ | items⟩ <;> rw [hvalue] at h
  · cases h
  · cases h
  · cases h
  · exact Record.depth_lt_of_list (by rw [Record.list, hvalue]; rfl) h

/-- The records inside a list are less deep, and empty places are records without properties. -/
theorem recordOf_of_mem_slots {name : String} {repetition : Repetition} {recursive : Bool}
    {place : Option Value}
    (h : place ∈ slots (placeCount repetition recursive (listOf (record.get? name)).length)
      (listOf (record.get? name))) :
    recordOf place = [] ∧ (recursive = false ∨ record ≠ []) ∨
      (recordOf place).depth < record.depth := by
  cases place with
  | none => exact Or.inl ⟨rfl, Or.inl (recursive_of_lt_placeCount (lt_of_none_mem_slots h))⟩
  | some item =>
    have hmem := mem_of_some_mem_slots h
    have hne : record ≠ [] := by
      rintro rfl
      cases hmem
    cases item with
    | record fields => exact Or.inr (depth_lt_of_mem_listOf hmem)
    | text | list => exact Or.inl ⟨rfl, Or.inr hne⟩

theorem normalValue_congr_of_nested {property : Property} {target : Nat}
    (hk : property.kind = .nested target) (value : Option Value)
    (hset : ∀ fields, value = some (.record fields) → normal target fields = normal' target fields)
    (hunset : property.recursive = false → normal target [] = normal' target []) :
    normalValue normal property value = normalValue normal' property value := by
  have hempty : (if property.recursive then none else some (Value.record (normal target [])))
      = if property.recursive then none else some (.record (normal' target [])) := by
    split
    · rfl
    · rw [hunset (Bool.eq_false_of_not_eq_true ‹_›)]
  rw [normalValue, normalValue, hk]
  rcases value with _ | ⟨_ | fields | _⟩
  · exact hempty
  · exact hempty
  · simp only [hset fields rfl]
  · exact hempty

/-- A normal value depends on normal forms of records with a smaller bound only. -/
theorem normalValue_congr {property : Property}
    (h : ∀ target (fields : Record), property.kind.target? = some target →
      (fields = [] ∧ (property.recursive = false ∨ record ≠ []) ∨ fields.depth < record.depth) →
      normal target fields = normal' target fields) :
    normalValue normal property (record.get? property.name) =
      normalValue normal' property (record.get? property.name) := by
  cases hk : property.kind with
  | text => rw [normalValue, normalValue, hk]
  | nested target =>
    have htarget : property.kind.target? = some target := by rw [hk]; rfl
    refine normalValue_congr_of_nested hk _ (fun fields hvalue => ?_) fun hrec => ?_
    · have hset : record.record property.name = .ok (some fields) := by
        rw [Record.record, hvalue]
      exact h target fields htarget (Or.inr (Record.depth_lt_of_record hset))
    · exact h target [] htarget (Or.inl ⟨rfl, Or.inl hrec⟩)
  | list item repetition =>
    rw [normalValue, normalValue, hk]
    cases item with
    | text layout => cases layout <;> rfl
    | record target =>
      simp only [normalItems]
      congr 2
      refine List.map_congr_left fun place hplace => ?_
      rw [h target _ (by rw [hk]; rfl) (recordOf_of_mem_slots hplace)]

theorem normalFields_congr
    (h : ∀ property ∈ type.properties, ∀ target (fields : Record),
      property.kind.target? = some target →
      (fields = [] ∧ (property.recursive = false ∨ record ≠ []) ∨ fields.depth < record.depth) →
      normal target fields = normal' target fields) :
    normalFields normal type record = normalFields normal' type record := by
  refine List.foldl_ext _ _ _ fun fields property hp => ?_
  rw [normalValue_congr (h property hp)]

/-- **The normal form does not depend on the fuel**, above the bound. -/
theorem normalWith_congr (hr : Ranked table.types rank) (fuel fuel' : Nat)
    (found : table.types[index]? = some type)
    (h : writingBound rank table.types index record < fuel)
    (h' : writingBound rank table.types index record < fuel') :
    normalWith table fuel index record = normalWith table fuel' index record := by
  induction fuel generalizing fuel' index type record with
  | zero => omega
  | succ fuel ih =>
    cases fuel' with
    | zero => omega
    | succ fuel' =>
      rw [normalWith, normalWith, found]
      refine normalFields_congr fun property hp target fields htarget hfields => ?_
      obtain ⟨hlt, hbound⟩ := writingBound_lt hr found hp htarget hfields
      exact ih _ (List.getElem?_eq_getElem hlt) (by omega) (by omega)

/-- **The equation of the normal form.** -/
theorem normalForm_eq (hr : Ranked table.types rank) (found : table.types[index]? = some type)
    (record : Record) :
    normalForm table index record = normalFields (normalForm table) type record := by
  rw [normalForm, normalWith, found]
  refine normalFields_congr fun property hp target fields htarget hfields => ?_
  obtain ⟨hlt, hbound⟩ := writingBound_lt hr found hp htarget hfields
  have hindex := (List.getElem?_eq_some_iff.1 found).1
  have hle := writingBound_le hr hindex record
  have hle' := writingBound_le hr hlt fields
  exact normalWith_congr hr _ _ (List.getElem?_eq_getElem hlt) (by omega) (by omega)

/-! ## What a normal form has -/

theorem get?_putValue_self (fields : Record) (name : String) (value : Option Value) :
    (putValue fields (value.map (name, ·))).get? name = value.or (fields.get? name) := by
  cases value with
  | none => rfl
  | some value => exact Record.get?_insert_self fields name value

theorem get?_putValue_of_ne (fields : Record) {name other : String} (h : name ≠ other)
    (value : Option Value) :
    (putValue fields (value.map (name, ·))).get? other = fields.get? other := by
  cases value with
  | none => rfl
  | some value => exact Record.get?_insert_of_ne fields h value

theorem ordered_putValue {fields : Record} (h : NameMap.Ordered fields)
    (value : Option (String × Value)) : NameMap.Ordered (putValue fields value) := by
  cases value with
  | none => exact h
  | some pair => exact h.insert pair.1 pair.2

/-- Where the names differ, setting properties one after the other keeps them all. -/
theorem get?_foldl_putValue {α : Type} (nameOf : α → String) (value : α → Option Value)
    (name : String) (list : List α) (hnodup : (list.map nameOf).Nodup) (fields : Record) :
    (list.foldl (fun fields a => putValue fields ((value a).map (nameOf a, ·))) fields).get? name =
      ((list.find? (nameOf · == name)).bind value).or (fields.get? name) := by
  induction list generalizing fields with
  | nil => rfl
  | cons a rest ih =>
    rw [List.map_cons, List.nodup_cons] at hnodup
    rw [List.foldl_cons, ih hnodup.2]
    obtain rfl | hne := eq_or_ne (nameOf a) name
    · have hrest : rest.find? (nameOf · == nameOf a) = none := by
        refine List.find?_eq_none.2 fun other hmem hname => ?_
        have : nameOf other = nameOf a := by simpa using hname
        exact hnodup.1 (List.mem_map.2 ⟨other, hmem, this⟩)
      rw [hrest, List.find?_cons_of_pos (by simp), get?_putValue_self]
      rfl
    · rw [List.find?_cons_of_neg (by simpa using hne), get?_putValue_of_ne _ hne]

/-- A normal form has its names in order, and each of them once. -/
theorem ordered_normalFields (normal : Nat → Record → Record) (type : RecordType)
    (record : Record) : NameMap.Ordered (normalFields normal type record) := by
  rw [normalFields]
  exact List.foldlRecOn _ _ List.Pairwise.nil fun fields hfields _ _ => ordered_putValue hfields _

/-- **What a normal form has under a name**: the normal value of the property, if there is one. -/
theorem get?_normalForm (hr : Ranked table.types rank) (found : table.types[index]? = some type)
    (hm : WellMade type.properties type.steps) (record : Record) (name : String) :
    (normalForm table index record).get? name = (type.property? name).bind fun property =>
      normalValue (normalForm table) property (record.get? property.name) := by
  rw [normalForm_eq hr found, normalFields, get?_foldl_putValue _ _ _ _ hm.nodup_names,
    RecordType.property?]
  exact Option.or_none

end FixedWidth.Codec
