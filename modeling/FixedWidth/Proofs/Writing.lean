import FixedWidth.Codec.Encode
import FixedWidth.Proofs.Edges
import FixedWidth.Proofs.Members

/-!
# Proofs/Writing — encoding, without fuel

What a record writes is a list of `Piece`s, which are texts and other records. `Writes` brings
pieces to the wire, one after the other and the pieces of a record in its place, with no bound on
the depth. A record inside a record is less deep, and a record without properties leads along
direct edges only, so every record is written (`writes_encodeWith`).
-/

namespace FixedWidth

/-! ## Depth -/

theorem Value.depth_le_depthItems {item : Value} {items : List Value} (h : item ∈ items) :
    item.depth ≤ depth.depthItems items := by
  induction items with
  | nil => cases h
  | cons first rest ih =>
    rw [depth.depthItems]
    obtain rfl | hrest := List.mem_cons.1 h
    · exact le_max_left _ _
    · exact (ih hrest).trans (le_max_right _ _)

namespace Record

variable {record fields : Record} {name : String} {items : List Value}

theorem depth_le_of_get? {value : Value} (h : record.get? name = some value) :
    value.depth ≤ record.depth := by
  rw [get?] at h
  rw [depth]
  fun_induction NameMap.get? record name with
  | case1 => cases h
  | case2 => cases h; exact le_max_left _ _
  | case3 _ _ _ _ _ ih => exact (ih h).trans (le_max_right _ _)

theorem get?_of_record (h : record.record name = .ok (some fields)) :
    record.get? name = some (.record fields) := by
  rw [Record.record] at h
  split at h <;> cases h
  assumption

theorem get?_of_list (h : record.list name = .ok (some items)) :
    record.get? name = some (.list items) := by
  rw [list] at h
  split at h <;> cases h
  assumption

/-- A nested record is less deep. -/
theorem depth_lt_of_record (h : record.record name = .ok (some fields)) :
    fields.depth < record.depth :=
  depth_le_of_get? (get?_of_record h)

/-- A record in a list is less deep. -/
theorem depth_lt_of_list (h : record.list name = .ok (some items)) (hmem : .record fields ∈ items) :
    fields.depth < record.depth := by
  have hlist : Value.depth.depthItems items < record.depth := depth_le_of_get? (get?_of_list h)
  have hitem : fields.depth < Value.depth.depthItems items := Value.depth_le_depthItems hmem
  exact hitem.trans hlist

end Record

end FixedWidth

namespace FixedWidth.Codec

open Table

/-! ## Pieces -/

/-- A part of what a record writes. -/
inductive Piece where
  /-- A text, or the value that has none. -/
  | text (content : Encoded)
  /-- A record of a type. -/
  | record (target : Nat) (fields : Record)
  /-- The value of a property that the type does not have. -/
  | missing

/-- A place of a list of records; an empty one is a record without properties. -/
def placePiece (name : String) (target : Nat) : Option Value → Piece
  | none => .record target []
  | some (.record fields) => .record target fields
  | some other => .text (.error ⟨name, .record, other.kind⟩)

/-- The pieces of the items of a list. -/
def itemPieces (property : Property) (item : ItemType) (repetition : Repetition)
    (items : List Value) : List Piece :=
  match item with
  | .text none => []
  | .text (some layout) =>
    (slots (placeCount repetition false items.length) items).map fun place =>
      .text (encodeTextItem property.name layout place)
  | .record target =>
    (slots (placeCount repetition property.recursive items.length) items).map
      (placePiece property.name target)

/-- The pieces of a nested property. -/
def nestedPieces (property : Property) (record : Record) : List Piece :=
  match property.kind with
  | .nested target =>
    match record.record property.name with
    | .error mismatch => [.text (.error mismatch)]
    | .ok (some fields) => [.record target fields]
    | .ok none => if property.recursive then [] else [.record target []]
  | _ => []

/-- The pieces of a list property. -/
def listPieces (property : Property) (record : Record) : List Piece :=
  match property.kind with
  | .list item repetition =>
    match record.list property.name with
    | .error mismatch => [.text (.error mismatch)]
    | .ok items => itemPieces property item repetition (items.getD [])
  | _ => []

/-- The text of a field. -/
def fieldText (layout : Layout) (property : Property) (record : Record) : Encoded := do
  let value ← record.text property.name
  return layout.encode (value.getD "").toList

/-- The pieces of a step. -/
def stepPieces (type : RecordType) (record : Record) : Step → List Piece
  | .field index layout =>
    match type.properties[index]? with
    | some property => [.text (fieldText layout property record)]
    | none => [.missing]
  | .nested index =>
    match type.properties[index]? with
    | some property => nestedPieces property record
    | none => [.missing]
  | .list index =>
    match type.properties[index]? with
    | some property => listPieces property record
    | none => [.missing]
  | .constant value width => [.text (.ok ((Layout.text width).encode value.toList))]
  | .padding width => [.text (.ok (List.replicate width ' '))]
  | .unresolved _ | .cycle _ => []

/-- The pieces of a record as an instance of a type. -/
def pieces (type : RecordType) (record : Record) : List Piece :=
  type.steps.flatMap (stepPieces type record)

/-- Writes a piece, given how records are written. -/
def writePiece (encodeRecord : RecordEncoder) : Piece → Encoded
  | .text content => content
  | .record target fields => encodeRecord target fields
  | .missing => .ok []

variable {α β : Type} {table : TypeTable} {type : RecordType} {record : Record}
  {encodeRecord : RecordEncoder}

theorem concatM_map (write : β → Encoded) (f : α → β) (list : List α) :
    concatM write (list.map f) = concatM (fun a => write (f a)) list := by
  induction list with
  | nil => rfl
  | cons a rest ih => rw [List.map_cons, concatM, concatM, ih]

theorem concatM_cons_ok {write : α → Encoded} {a : α} {first : List Char}
    (h : write a = .ok first) (rest : List α) :
    concatM write (a :: rest) = (concatM write rest).map (first ++ ·) := by
  rw [concatM, h]
  rfl

theorem concatM_cons_error {write : α → Encoded} {a : α} {mismatch : ValueMismatch}
    (h : write a = .error mismatch) (rest : List α) :
    concatM write (a :: rest) = .error mismatch := by
  rw [concatM, h]
  rfl

theorem concatM_append (write : α → Encoded) (list more : List α) :
    concatM write (list ++ more) =
      (concatM write list).bind fun first => (concatM write more).map (first ++ ·) := by
  induction list with
  | nil => cases h : concatM write more <;> simp [concatM, h, Except.bind, Except.map]
  | cons a rest ih =>
    rw [List.cons_append]
    cases h : write a with
    | error mismatch => rw [concatM_cons_error h, concatM_cons_error h, Except.bind]
    | ok first =>
      rw [concatM_cons_ok h, concatM_cons_ok h, ih]
      cases concatM write rest with
      | error mismatch => rfl
      | ok second => cases concatM write more <;> simp [Except.bind, Except.map]

theorem concatM_flatMap (write : β → Encoded) (f : α → List β) (list : List α) :
    concatM write (list.flatMap f) = concatM (fun a => concatM write (f a)) list := by
  induction list with
  | nil => rfl
  | cons a rest ih =>
    rw [List.flatMap_cons, concatM_append, concatM, ih]
    cases concatM write (f a) <;> rfl

theorem concatM_singleton (write : α → Encoded) (a : α) : concatM write [a] = write a := by
  cases h : write a with
  | error mismatch => exact concatM_cons_error h []
  | ok first => rw [concatM_cons_ok h, concatM, Except.map, List.append_nil]

theorem encodeItems_eq (property : Property) (item : ItemType) (repetition : Repetition)
    (items : List Value) :
    encodeItems encodeRecord property item repetition items =
      concatM (writePiece encodeRecord) (itemPieces property item repetition items) := by
  cases item with
  | text layout =>
    cases layout with
    | none => rfl
    | some layout => rw [itemPieces, concatM_map]; rfl
  | record target =>
    rw [itemPieces, concatM_map, encodeItems]
    congr 1
    funext place
    rcases place with _ | ⟨_ | _ | _⟩ <;> rfl

theorem encodeNested_eq (property : Property) :
    encodeNested encodeRecord property record =
      concatM (writePiece encodeRecord) (nestedPieces property record) := by
  rw [encodeNested, nestedPieces]
  cases property.kind with
  | nested target =>
    rcases record.record property.name with mismatch | ⟨_ | fields⟩
    · exact (concatM_singleton _ _).symm
    · rcases property.recursive with _ | _
      · exact (concatM_singleton _ _).symm
      · rfl
    · exact (concatM_singleton _ _).symm
  | text | list => rfl

theorem encodeList_eq (property : Property) :
    encodeList encodeRecord property record =
      concatM (writePiece encodeRecord) (listPieces property record) := by
  rw [encodeList, listPieces]
  cases property.kind with
  | list item repetition =>
    cases record.list property.name with
    | error mismatch => exact (concatM_singleton _ _).symm
    | ok items => exact encodeItems_eq _ _ _ _
  | text | nested => rfl

/-- **A step writes its pieces.** -/
theorem encodeStep_eq (step : Step) :
    encodeStep encodeRecord type record step =
      concatM (writePiece encodeRecord) (stepPieces type record step) := by
  cases step with
  | field index layout =>
    rw [encodeStep, stepPieces]
    cases type.properties[index]? <;> exact (concatM_singleton _ _).symm
  | nested index =>
    rw [encodeStep, stepPieces]
    cases type.properties[index]? with
    | none => exact (concatM_singleton _ _).symm
    | some property => exact encodeNested_eq property
  | list index =>
    rw [encodeStep, stepPieces]
    cases type.properties[index]? with
    | none => exact (concatM_singleton _ _).symm
    | some property => exact encodeList_eq property
  | constant | padding => exact (concatM_singleton _ _).symm
  | unresolved | cycle => rfl

/-- **A record writes its pieces.** -/
theorem encodeWith_succ {fuel index : Nat} (h : table.types[index]? = some type) :
    encodeWith table (fuel + 1) index record =
      concatM (writePiece (encodeWith table fuel)) (pieces type record) := by
  have hsteps : encodeStep (encodeWith table fuel) type record = fun step =>
      concatM (writePiece (encodeWith table fuel)) (stepPieces type record step) :=
    funext encodeStep_eq
  rw [encodeWith, h, pieces, concatM_flatMap, ← hsteps]

/-! ## Writing -/

/-- Pieces are brought to the wire one after the other, up to the first value that has no text. -/
inductive Writes (table : TypeTable) : List Piece → Encoded → Prop
  | nil : Writes table [] (.ok [])
  | text {first : List Char} {rest : List Piece} {out : Encoded} (tail : Writes table rest out) :
    Writes table (.text (.ok first) :: rest) (out.map (first ++ ·))
  | mismatch {mismatch : ValueMismatch} {rest : List Piece} :
    Writes table (.text (.error mismatch) :: rest) (.error mismatch)
  | record {target : Nat} {type : RecordType} {fields : Record} {first : List Char}
      {rest : List Piece} {out : Encoded} (found : table.types[target]? = some type)
      (inner : Writes table (pieces type fields) (.ok first)) (tail : Writes table rest out) :
    Writes table (.record target fields :: rest) (out.map (first ++ ·))
  | stopped {target : Nat} {type : RecordType} {fields : Record} {mismatch : ValueMismatch}
      {rest : List Piece} (found : table.types[target]? = some type)
      (inner : Writes table (pieces type fields) (.error mismatch)) :
    Writes table (.record target fields :: rest) (.error mismatch)

/-- **Pieces are written in one way.** -/
theorem Writes.unique {list : List Piece} {out out' : Encoded} (h : Writes table list out)
    (h' : Writes table list out') : out = out' := by
  induction h generalizing out' with
  | nil => cases h'; rfl
  | text _ ih =>
    cases h' with
    | text tail => rw [ih tail]
  | mismatch => cases h'; rfl
  | record found _ _ ihInner ih =>
    cases h' with
    | record found' inner tail =>
      cases found.symm.trans found'
      cases ihInner inner
      rw [ih tail]
    | stopped found' inner =>
      cases found.symm.trans found'
      cases ihInner inner
  | stopped found _ ihInner =>
    cases h' with
    | record found' inner tail =>
      cases found.symm.trans found'
      cases ihInner inner
    | stopped found' inner =>
      cases found.symm.trans found'
      exact ihInner inner

/-- Pieces are written where the records among them are. -/
theorem writes_concatM {list : List Piece} (hmissing : Piece.missing ∉ list)
    (hrecord : ∀ target fields, Piece.record target fields ∈ list → ∃ type,
      table.types[target]? = some type ∧
        Writes table (pieces type fields) (encodeRecord target fields)) :
    Writes table list (concatM (writePiece encodeRecord) list) := by
  induction list with
  | nil => exact .nil
  | cons piece rest ih =>
    rw [List.mem_cons, not_or] at hmissing
    have htail := ih hmissing.2 fun target fields hmem =>
      hrecord target fields (List.mem_cons_of_mem _ hmem)
    cases piece with
    | text content =>
      cases content with
      | error mismatch => exact .mismatch
      | ok first =>
        have hw : writePiece encodeRecord (.text (.ok first)) = .ok first := rfl
        rw [concatM_cons_ok hw]
        exact .text htail
    | record target fields =>
      obtain ⟨type, found, inner⟩ := hrecord target fields List.mem_cons_self
      cases hw : writePiece encodeRecord (.record target fields) with
      | error mismatch =>
        rw [concatM_cons_error hw]
        exact .stopped found (hw ▸ inner)
      | ok first =>
        rw [concatM_cons_ok hw]
        exact .record found (hw ▸ inner) htail
    | missing => exact absurd rfl hmissing.1

/-! ## Places of a list -/

theorem length_slots (count : Nat) (items : List Value) : (slots count items).length = count := by
  simp [slots]
  omega

/-- A list with no more places than items has no empty ones. -/
theorem slots_of_le {count : Nat} {items : List Value} (h : count ≤ items.length) :
    slots count items = (items.take count).map some := by
  simp [slots, Nat.sub_eq_zero_of_le h]

/-- The places of a list are the look-ups at their numbers. -/
theorem slots_eq_map_range (count : Nat) (items : List Value) :
    slots count items = (List.range count).map (items[·]?) := by
  refine List.ext_getElem (by simp [length_slots]) fun i h h' => ?_
  rw [length_slots] at h
  rw [List.getElem_map, List.getElem_range]
  simp only [slots]
  obtain hlt | hle := Nat.lt_or_ge i items.length
  · rw [List.getElem_append_left (by simp; omega)]
    simp [hlt]
  · rw [List.getElem_append_right (by simp; omega)]
    simp [hle]

/-! ## Records inside a record -/

theorem mem_of_some_mem_slots {count : Nat} {items : List Value} {item : Value}
    (h : some item ∈ slots count items) : item ∈ items := by
  rw [slots, List.mem_append, List.mem_replicate] at h
  obtain h | ⟨-, h⟩ := h
  · obtain ⟨_, hitem, hsome⟩ := List.mem_map.1 h
    cases hsome
    exact List.mem_of_mem_take hitem
  · cases h

theorem lt_of_none_mem_slots {count : Nat} {items : List Value} (h : none ∈ slots count items) :
    items.length < count := by
  rw [slots, List.mem_append, List.mem_replicate] at h
  obtain h | ⟨hne, -⟩ := h
  · obtain ⟨_, -, hnone⟩ := List.mem_map.1 h
    cases hnone
  · omega

/-- A recursive list has no empty places. -/
theorem recursive_of_lt_placeCount {repetition : Repetition} {recursive : Bool} {length : Nat}
    (h : length < placeCount repetition recursive length) : recursive = false := by
  cases repetition with
  | dynamic => exact absurd h (lt_irrefl _)
  | fixed count =>
    cases recursive with
    | false => rfl
    | true =>
      rw [placeCount, if_pos rfl] at h
      omega

theorem placePiece_eq_record {name : String} {target target' : Nat} {place : Option Value}
    {fields : Record} (h : placePiece name target place = .record target' fields) :
    target = target' ∧ (place = none ∧ fields = [] ∨ place = some (.record fields)) := by
  rcases place with _ | ⟨_ | _ | _⟩
  · cases h
    exact ⟨rfl, Or.inl ⟨rfl, rfl⟩⟩
  · cases h
  · cases h
    exact ⟨rfl, Or.inr rfl⟩
  · cases h

theorem record_mem_itemPieces {property : Property} {item : ItemType} {repetition : Repetition}
    {items : List Value} {target : Nat} {fields : Record}
    (h : .record target fields ∈ itemPieces property item repetition items) :
    item = .record target ∧
      (fields = [] ∧ property.recursive = false ∨ .record fields ∈ items) := by
  rcases item with target' | _ | layout
  · rw [itemPieces] at h
    obtain ⟨place, hplace, hpiece⟩ := List.mem_map.1 h
    obtain ⟨rfl, ⟨rfl, rfl⟩ | rfl⟩ := placePiece_eq_record hpiece
    · exact ⟨rfl, Or.inl ⟨rfl, recursive_of_lt_placeCount (lt_of_none_mem_slots hplace)⟩⟩
    · exact ⟨rfl, Or.inr (mem_of_some_mem_slots hplace)⟩
  · cases h
  · rw [itemPieces] at h
    obtain ⟨place, -, hpiece⟩ := List.mem_map.1 h
    cases hpiece

theorem record_mem_nestedPieces {property : Property} {target : Nat} {fields : Record}
    (h : .record target fields ∈ nestedPieces property record) :
    property.kind.target? = some target ∧
      (fields = [] ∧ property.recursive = false ∨ fields.depth < record.depth) := by
  rw [nestedPieces] at h
  split at h
  · rename_i target' hk
    rw [hk]
    split at h
    · simp at h
    · rename_i fields' hfields
      cases List.mem_singleton.1 h
      exact ⟨rfl, Or.inr (Record.depth_lt_of_record hfields)⟩
    · split at h
      · cases h
      · rename_i hrec
        cases List.mem_singleton.1 h
        exact ⟨rfl, Or.inl ⟨rfl, Bool.eq_false_of_not_eq_true hrec⟩⟩
  · cases h

theorem record_mem_listPieces {property : Property} {target : Nat} {fields : Record}
    (h : .record target fields ∈ listPieces property record) :
    property.kind.target? = some target ∧
      (fields = [] ∧ property.recursive = false ∨ fields.depth < record.depth) := by
  rw [listPieces] at h
  split at h
  · rename_i item repetition hk
    rw [hk]
    split at h
    · simp at h
    · rename_i items hitems
      obtain ⟨rfl, hempty | hmem⟩ := record_mem_itemPieces h
      · exact ⟨rfl, Or.inl hempty⟩
      · cases items with
        | none => cases hmem
        | some items => exact ⟨rfl, Or.inr (Record.depth_lt_of_list hitems hmem)⟩
  · cases h

/-- **Where the records inside a record come from.** Each belongs to a property, and where it is
not less deep it stands for the unset value of one that is not recursive. -/
theorem record_mem_stepPieces {step : Step} {target : Nat} {fields : Record}
    (h : .record target fields ∈ stepPieces type record step) :
    ∃ property ∈ type.properties, property.kind.target? = some target ∧
      (fields = [] ∧ property.recursive = false ∨ fields.depth < record.depth) := by
  cases step with
  | field index layout => rw [stepPieces] at h; split at h <;> simp at h
  | nested index =>
    rw [stepPieces] at h
    split at h
    · exact ⟨_, List.mem_of_getElem? ‹_›, record_mem_nestedPieces h⟩
    · simp at h
  | list index =>
    rw [stepPieces] at h
    split at h
    · exact ⟨_, List.mem_of_getElem? ‹_›, record_mem_listPieces h⟩
    · simp at h
  | constant | padding | unresolved | cycle => simp [stepPieces] at h

theorem missing_notMem_nestedPieces (property : Property) :
    Piece.missing ∉ nestedPieces property record := by
  intro hmem
  rw [nestedPieces] at hmem
  repeat' split at hmem
  all_goals simp at hmem

theorem missing_notMem_listPieces (property : Property) :
    Piece.missing ∉ listPieces property record := by
  intro hmem
  rw [listPieces] at hmem
  split at hmem
  · rename_i item repetition _
    split at hmem
    · simp at hmem
    · rcases item with target | _ | layout
      · obtain ⟨place, -, hplace⟩ := List.mem_map.1 hmem
        rcases place with _ | ⟨_ | _ | _⟩ <;> cases hplace
      · cases hmem
      · obtain ⟨place, -, hplace⟩ := List.mem_map.1 hmem
        cases hplace
  · cases hmem

/-- No step of a type that is well made uses a property that it does not have. -/
theorem missing_notMem_pieces (h : WellMade type.properties type.steps) :
    Piece.missing ∉ pieces type record := by
  intro hmem
  obtain ⟨step, hs, hmem⟩ := List.mem_flatMap.1 hmem
  cases step with
  | field index layout =>
    obtain ⟨property, hp, -⟩ := h.exists_property hs rfl
    simp [stepPieces, hp] at hmem
  | nested index =>
    obtain ⟨property, hp, -⟩ := h.exists_property hs rfl
    rw [stepPieces, hp] at hmem
    exact missing_notMem_nestedPieces property hmem
  | list index =>
    obtain ⟨property, hp, -⟩ := h.exists_property hs rfl
    rw [stepPieces, hp] at hmem
    exact missing_notMem_listPieces property hmem
  | constant | padding | unresolved | cycle => simp [stepPieces] at hmem

/-! ## Every record is written -/

/-- A bound on the records inside a record, each of which has a smaller one. -/
def writingBound (rank : Nat → Nat) (types : List RecordType) (index : Nat) (record : Record) :
    Nat :=
  if record = [] then rank index else record.depth + types.length

theorem writingBound_le {rank : Nat → Nat} {types : List RecordType} {index : Nat}
    (hr : Ranked types rank) (hindex : index < types.length) (record : Record) :
    writingBound rank types index record ≤ record.depth + types.length := by
  have := hr.rank_lt_length index hindex
  rw [writingBound]
  split <;> omega

/-- The record of a property has a smaller bound: it is less deep, or it has no properties itself
and is entered along a direct edge or from a record that has some. -/
theorem writingBound_lt {rank : Nat → Nat} {types : List RecordType} {index target : Nat}
    {property : Property} {fields : Record} (hr : Ranked types rank)
    (found : types[index]? = some type) (hp : property ∈ type.properties)
    (htarget : property.kind.target? = some target)
    (hfields : fields = [] ∧ (property.recursive = false ∨ record ≠ []) ∨
      fields.depth < record.depth) :
    target < types.length ∧
      writingBound rank types target fields < writingBound rank types index record := by
  have hlt := hr.target_lt index target ⟨type, property, found, hp, htarget⟩
  have hrank := hr.rank_lt_length target hlt
  refine ⟨hlt, ?_⟩
  obtain ⟨rfl, hrec | hne⟩ | hdepth := hfields
  · have hdirect := hr.rank_lt index target ⟨type, property, found, hp, hrec, htarget⟩
    rw [writingBound, writingBound, if_pos rfl]
    split <;> omega
  · rw [writingBound, writingBound, if_pos rfl, if_neg hne]
    omega
  · have hne : record ≠ [] := by
      rintro rfl
      exact absurd hdepth (Nat.not_lt_zero _)
    refine (writingBound_le hr hlt fields).trans_lt ?_
    rw [writingBound, if_neg hne]
    omega

/-- **Fuel above the bound is enough.** -/
theorem writes_encodeWith {rank : Nat → Nat} (hr : Ranked table.types rank)
    (hm : ∀ type ∈ table.types, WellMade type.properties type.steps) (fuel : Nat) {index : Nat}
    (found : table.types[index]? = some type)
    (hfuel : writingBound rank table.types index record < fuel) :
    Writes table (pieces type record) (encodeWith table fuel index record) := by
  induction fuel generalizing index type record with
  | zero => omega
  | succ fuel ih =>
    rw [encodeWith_succ found]
    refine writes_concatM (missing_notMem_pieces (hm type (List.mem_of_getElem? found))) ?_
    intro target fields hmem
    obtain ⟨step, -, hmem⟩ := List.mem_flatMap.1 hmem
    obtain ⟨property, hp, htarget, hfields⟩ := record_mem_stepPieces hmem
    obtain ⟨hlt, hbound⟩ := writingBound_lt hr found hp htarget
      (hfields.imp_left fun hempty => ⟨hempty.1, Or.inl hempty.2⟩)
    exact ⟨_, List.getElem?_eq_getElem hlt, ih (List.getElem?_eq_getElem hlt) (by omega)⟩

/-- The text of a record of the type at an index, or the value that has none. -/
def Encodes (table : TypeTable) (index : Nat) (record : Record) (out : Encoded) : Prop :=
  ∃ type, table.types[index]? = some type ∧ Writes table (pieces type record) out

theorem Encodes.unique {index : Nat} {out out' : Encoded} (h : Encodes table index record out)
    (h' : Encodes table index record out') : out = out' := by
  obtain ⟨type, found, hw⟩ := h
  obtain ⟨type', found', hw'⟩ := h'
  cases found.symm.trans found'
  exact hw.unique hw'

/-- **Every record is encoded.** -/
theorem encodes_encode {rank : Nat → Nat} (hr : Ranked table.types rank)
    (hm : ∀ type ∈ table.types, WellMade type.properties type.steps) {index : Nat}
    (h : index < table.types.length) (record : Record) :
    Encodes table index record (encode table index record) := by
  have hbound := writingBound_le hr h record
  exact ⟨_, List.getElem?_eq_getElem h,
    writes_encodeWith hr hm _ (List.getElem?_eq_getElem h) (Nat.lt_succ_of_le hbound)⟩

end FixedWidth.Codec
