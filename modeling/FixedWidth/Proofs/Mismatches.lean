import FixedWidth.Proofs.CodecEnds
import FixedWidth.Proofs.WellFormed

/-!
# Proofs/Mismatches — encoding stops at the first value of the wrong kind

    set values in the order of the steps ──▸ items in order ──▸ the first that offends

Writing asks for the values of properties with a step, and of a list for the items that have a
place. A record is accepted if all of these are of their kinds, at any depth (`Accepted`); otherwise
there is a first one that is not (`Offends`). The result of writing says which of the two is the
case (`Writes.verdict`).
-/

namespace FixedWidth.Table

/-- The kind of the values that a property may have. -/
def PropertyKind.valueKind : PropertyKind → ValueKind
  | text _ => .text
  | nested _ => .record
  | list _ _ => .list

end FixedWidth.Table

namespace FixedWidth.Codec

open Schema (Registry)
open Table

/-! ## What writing asks for -/

/-- The items of a list that have a place on the wire: none of texts without a layout, and otherwise
no more than the declared number. -/
def writtenItems (item : ItemType) (repetition : Repetition) (items : List Value) : List Value :=
  if item = .text none then []
  else match repetition with
    | .dynamic => items
    | .fixed count => items.take count

/-- The value that a record sets for the property of a step. -/
def setValue? (type : RecordType) (fields : Record) (step : Step) : Option (Property × Value) :=
  (type.stepProperty? step).bind fun property => (fields.get? property.name).map (property, ·)

/-- The values that a record sets for properties with a step, in the order of the steps. -/
def setValues (type : RecordType) (fields : Record) : List (Property × Value) :=
  type.steps.filterMap (setValue? type fields)

/-- **A value that can be written**: of its kind, as are all the values in it that writing asks
for. -/
inductive Accepted (table : TypeTable) : PropertyKind → Value → Prop
  | text {layout : Option Layout} {content : String} :
    Accepted table (.text layout) (.text content)
  | record {target : Nat} {type : RecordType} {fields : Record}
      (found : table.types[target]? = some type)
      (values : ∀ entry ∈ setValues type fields, Accepted table entry.1.kind entry.2) :
    Accepted table (.nested target) (.record fields)
  | list {item : ItemType} {repetition : Repetition} {items : List Value}
      (values : ∀ value ∈ writtenItems item repetition items,
        Accepted table (itemKind item) value) :
    Accepted table (.list item repetition) (.list items)

/-- **The first offence in a value that is held under a name.** The value itself is of the wrong
kind; or values in it are accepted up to one with an offence. -/
inductive Offends (table : TypeTable) :
    (name : String) → PropertyKind → Value → ValueMismatch → Prop
  | kind {name : String} {kind : PropertyKind} {value : Value}
      (wrong : value.kind ≠ kind.valueKind) :
    Offends table name kind value ⟨name, kind.valueKind, value.kind⟩
  | record {name : String} {target : Nat} {type : RecordType} {fields : Record}
      {before rest : List (Property × Value)} {property : Property} {value : Value}
      {mismatch : ValueMismatch} (found : table.types[target]? = some type)
      (values : setValues type fields = before ++ (property, value) :: rest)
      (earlier : ∀ entry ∈ before, Accepted table entry.1.kind entry.2)
      (offence : Offends table property.name property.kind value mismatch) :
    Offends table name (.nested target) (.record fields) mismatch
  | list {name : String} {item : ItemType} {repetition : Repetition}
      {items before rest : List Value} {value : Value} {mismatch : ValueMismatch}
      (values : writtenItems item repetition items = before ++ value :: rest)
      (earlier : ∀ value ∈ before, Accepted table (itemKind item) value)
      (offence : Offends table name (itemKind item) value mismatch) :
    Offends table name (.list item repetition) (.list items) mismatch

variable {table : TypeTable} {type : RecordType} {fields : Record} {property : Property}
  {kind : PropertyKind} {item : ItemType} {repetition : Repetition} {items : List Value}
  {value : Value} {name : String} {target : Nat} {mismatch other : ValueMismatch} {step : Step}
  {list rest : List Piece} {piece : Piece}

/-! ## There is one first offence, or none -/

/-- Two elements of a list, each with something true before it that is false of the other, are the
same one. -/
theorem eq_of_split {α : Type} {P Q : α → Prop} (hexclusive : ∀ a, P a → ¬ Q a)
    {before before' rest rest' : List α} {a a' : α}
    (h : before ++ a :: rest = before' ++ a' :: rest') (hok : ∀ b ∈ before, P b) (hbad : Q a)
    (hok' : ∀ b ∈ before', P b) (hbad' : Q a') : a = a' := by
  induction before generalizing before' with
  | nil =>
    rcases before' with _ | ⟨b, before'⟩
    · exact (List.cons.inj h).1
    · obtain ⟨rfl, -⟩ := List.cons.inj h
      exact absurd hbad (hexclusive a (hok' a List.mem_cons_self))
  | cons b before ih =>
    rw [List.forall_mem_cons] at hok
    rcases before' with _ | ⟨b', before'⟩
    · obtain ⟨rfl, -⟩ := List.cons.inj h
      exact absurd hbad' (hexclusive b hok.1)
    · rw [List.forall_mem_cons] at hok'
      exact ih (List.cons.inj h).2 hok.2 hok'.2

/-- **An accepted value has no offence.** -/
theorem Accepted.not_offends (h : Accepted table kind value) :
    ¬ Offends table name kind value mismatch := by
  induction h generalizing name with
  | text =>
    intro hoffends
    cases hoffends with
    | kind wrong => exact wrong rfl
  | record found _ ih =>
    intro hoffends
    cases hoffends with
    | kind wrong => exact wrong rfl
    | record found' values _ offence =>
      cases found.symm.trans found'
      exact ih _ (values ▸ List.mem_append_right _ List.mem_cons_self) offence
  | list _ ih =>
    intro hoffends
    cases hoffends with
    | kind wrong => exact wrong rfl
    | list values _ offence =>
      exact ih _ (values ▸ List.mem_append_right _ List.mem_cons_self) offence

/-- **A value has one first offence.** -/
theorem Offends.unique (h : Offends table name kind value mismatch)
    (h' : Offends table name kind value other) : mismatch = other := by
  induction h generalizing other with
  | kind wrong =>
    cases h' with
    | kind => rfl
    | record | list => exact absurd rfl wrong
  | record found values earlier offence ih =>
    cases h' with
    | kind wrong => exact absurd rfl wrong
    | record found' values' earlier' offence' =>
      cases found.symm.trans found'
      have hsame := eq_of_split (P := fun entry => Accepted table entry.1.kind entry.2)
        (Q := fun entry => ∃ m, Offends table entry.1.name entry.1.kind entry.2 m)
        (fun _ hok ⟨_, hbad⟩ => hok.not_offends hbad) (values.symm.trans values') earlier
        ⟨_, offence⟩ earlier' ⟨_, offence'⟩
      cases hsame
      exact ih offence'
  | @list name item _ _ _ _ _ _ values earlier offence ih =>
    cases h' with
    | kind wrong => exact absurd rfl wrong
    | list values' earlier' offence' =>
      have hsame := eq_of_split (P := Accepted table (itemKind item))
        (Q := fun value => ∃ m, Offends table name (itemKind item) value m)
        (fun _ hok ⟨_, hbad⟩ => hok.not_offends hbad) (values.symm.trans values') earlier
        ⟨_, offence⟩ earlier' ⟨_, offence'⟩
      cases hsame
      exact ih offence'

/-- A record without properties has no offence. -/
theorem not_offends_nil : ¬ Offends table name (.nested target) (.record []) mismatch := by
  intro hoffends
  cases hoffends with
  | kind wrong => exact wrong rfl
  | @record _ _ type _ _ _ _ _ _ found values =>
    have hempty : setValues type [] = [] := by
      refine List.filterMap_eq_nil_iff.2 fun step _ => ?_
      rw [setValue?]
      cases type.stepProperty? step <;> rfl
    rw [hempty] at values
    simp at values

/-! ## Pieces that stop the writing -/

/-- A piece that has a text, or a record that can be written. -/
def Piece.Accepted (table : TypeTable) : Piece → Prop
  | .text content => ∃ out, content = .ok out
  | .record target fields => Codec.Accepted table (.nested target) (.record fields)
  | .missing => False

/-- A piece without a text, or a record with an offence. -/
def Piece.Offends (table : TypeTable) (mismatch : ValueMismatch) : Piece → Prop
  | .text content => content = .error mismatch
  | .record target fields =>
    ∀ name, Codec.Offends table name (.nested target) (.record fields) mismatch
  | .missing => False

/-- Pieces of which one offends, while those before it are accepted. -/
def StopsWith (table : TypeTable) (mismatch : ValueMismatch) : List Piece → Prop
  | [] => False
  | piece :: rest =>
    piece.Offends table mismatch ∨ piece.Accepted table ∧ StopsWith table mismatch rest

theorem stopsWith_singleton : StopsWith table mismatch [piece] ↔ piece.Offends table mismatch := by
  simp [StopsWith]

theorem stopsWith_append (h : StopsWith table mismatch (list ++ rest)) :
    StopsWith table mismatch list ∨
      (∀ piece ∈ list, piece.Accepted table) ∧ StopsWith table mismatch rest := by
  induction list with
  | nil => exact Or.inr ⟨List.forall_mem_nil _, h⟩
  | cons piece more ih =>
    obtain hoffends | ⟨haccepted, hstops⟩ := h
    · exact Or.inl (Or.inl hoffends)
    · obtain hmore | ⟨hall, hrest⟩ := ih hstops
      · exact Or.inl (Or.inr ⟨haccepted, hmore⟩)
      · exact Or.inr ⟨List.forall_mem_cons.2 ⟨haccepted, hall⟩, hrest⟩

theorem not_stopsWith (h : ∀ piece ∈ list, ¬ piece.Offends table mismatch) :
    ¬ StopsWith table mismatch list := by
  induction list with
  | nil => exact id
  | cons piece rest ih =>
    rw [List.forall_mem_cons] at h
    rintro (hoffends | ⟨-, hstops⟩)
    · exact h.1 hoffends
    · exact ih h.2 hstops

/-- **The pieces of a value tell whether it is accepted**, and if not, its first offence. -/
structure Judges (table : TypeTable) (name : String) (kind : PropertyKind) (value : Value)
    (list : List Piece) : Prop where
  accepted : (∀ piece ∈ list, piece.Accepted table) → Accepted table kind value
  offends : ∀ mismatch, StopsWith table mismatch list → Offends table name kind value mismatch

/-- **The first piece that offends belongs to the first value that does**, where each element of a
list has pieces that judge its value, or else pieces without an offence. -/
theorem exists_first {α β : Type} {f : α → List Piece} {g : α → Option β} {n : β → String}
    {k : β → PropertyKind} {v : β → Value} {elements : List α}
    (hnone : ∀ a ∈ elements, g a = none → ¬ StopsWith table mismatch (f a))
    (hsome : ∀ a ∈ elements, ∀ b, g a = some b →
      Judges table (n b) (k b) (v b) (f a))
    (h : StopsWith table mismatch (elements.flatMap f)) :
    ∃ before b rest, elements.filterMap g = before ++ b :: rest ∧
      (∀ b ∈ before, Accepted table (k b) (v b)) ∧
      Offends table (n b) (k b) (v b) mismatch := by
  induction elements with
  | nil => cases h
  | cons a more ih =>
    rw [List.forall_mem_cons] at hnone hsome
    rw [List.flatMap_cons] at h
    obtain hfirst | ⟨hall, hrest⟩ := stopsWith_append h
    · cases hvalue : g a with
      | none => exact absurd hfirst (hnone.1 hvalue)
      | some b =>
        refine ⟨[], b, more.filterMap g, ?_, List.forall_mem_nil _,
          (hsome.1 b hvalue).offends _ hfirst⟩
        rw [List.filterMap_cons_some hvalue, List.nil_append]
    · obtain ⟨before, b, rest, heq, hbefore, hoffends⟩ := ih hnone.2 hsome.2 hrest
      cases hvalue : g a with
      | none => exact ⟨before, b, rest, by rw [List.filterMap_cons_none hvalue, heq], hbefore,
          hoffends⟩
      | some b' =>
        refine ⟨b' :: before, b, rest, ?_, ?_, hoffends⟩
        · rw [List.filterMap_cons_some hvalue, heq, List.cons_append]
        · exact List.forall_mem_cons.2 ⟨(hsome.1 b' hvalue).accepted hall, hbefore⟩

/-! ## Values and their pieces -/

/-- The pieces of an element whose value is judged by them. -/
theorem accepted_of_mem_filterMap {α β : Type} {f : α → List Piece} {g : α → Option β}
    {n : β → String} {k : β → PropertyKind} {v : β → Value} {elements : List α}
    (hsome : ∀ a ∈ elements, ∀ b, g a = some b →
      Judges table (n b) (k b) (v b) (f a))
    (h : ∀ piece ∈ elements.flatMap f, piece.Accepted table) :
    ∀ b ∈ elements.filterMap g, Accepted table (k b) (v b) := by
  intro b hb
  obtain ⟨a, ha, hvalue⟩ := List.mem_filterMap.1 hb
  exact (hsome a ha b hvalue).accepted fun piece hpiece =>
    h piece (List.mem_flatMap.2 ⟨a, ha, hpiece⟩)

theorem judges_wrong (h : value.kind ≠ kind.valueKind) :
    Judges table name kind value [.text (.error ⟨name, kind.valueKind, value.kind⟩)] where
  accepted hall := by
    obtain ⟨out, hout⟩ := hall _ (List.mem_singleton_self _)
    cases hout
  offends mismatch hstops := by
    cases stopsWith_singleton.1 hstops
    exact .kind h

theorem judges_encodeTextItem (layout : Layout) (framing : Option Layout) (value : Value) :
    Judges table name (.text framing) value
      [.text (encodeTextItem name layout (some value))] := by
  cases value with
  | text content =>
    refine ⟨fun _ => .text, fun mismatch hstops => ?_⟩
    cases stopsWith_singleton.1 hstops
  | record | list => exact judges_wrong nofun

theorem judges_placePiece (name : String) (target : Nat) (value : Value) :
    Judges table name (.nested target) value [placePiece name target (some value)] := by
  cases value with
  | record fields =>
    exact ⟨fun hall => hall _ (List.mem_singleton_self _),
      fun mismatch hstops => stopsWith_singleton.1 hstops name⟩
  | text | list => exact judges_wrong nofun

/-! ## Places of a list -/

/-- The items that are written are those that have a place. -/
theorem writtenItems_eq_take (recursive : Bool) (hitem : item ≠ .text none) :
    writtenItems item repetition items =
      items.take (placeCount repetition recursive items.length) := by
  rw [writtenItems.eq_def, if_neg hitem]
  cases repetition with
  | dynamic => exact List.take_length.symm
  | fixed count =>
    cases recursive with
    | false => rfl
    | true => exact List.take_eq_take_iff.2 (by rw [placeCount, if_pos rfl]; omega)

/-- The places of a list hold the items that are written; the others are empty. -/
theorem slots_eq_append (repetition : Repetition) (recursive : Bool) (items : List Value)
    (hitem : item ≠ .text none) :
    ∃ empty, slots (placeCount repetition recursive items.length) items =
      (writtenItems item repetition items).map some ++ List.replicate empty none :=
  ⟨_, by rw [slots, writtenItems_eq_take recursive hitem]⟩

theorem judges_places {p : Option Value → Piece} (hitem : item ≠ .text none) (recursive : Bool)
    (hnone : ∀ mismatch, ¬ (p none).Offends table mismatch)
    (hsome : ∀ value, Judges table name (itemKind item) value [p (some value)]) :
    Judges table name (.list item repetition) (.list items)
      ((slots (placeCount repetition recursive items.length) items).map p) := by
  obtain ⟨empty, hslots⟩ := slots_eq_append repetition recursive items hitem
  have hwritten : (slots (placeCount repetition recursive items.length) items).filterMap id =
      writtenItems item repetition items := by
    simp [hslots, List.filterMap_append, List.filterMap_map]
  have hplace : ∀ place ∈ slots (placeCount repetition recursive items.length) items,
      ∀ value, id place = some value → Judges table name (itemKind item) value [p place] := by
    rintro _ - value rfl
    exact hsome value
  rw [List.map_eq_flatMap]
  refine ⟨fun hall => .list ?_, fun mismatch hstops => ?_⟩
  · rw [← hwritten]
    exact accepted_of_mem_filterMap (n := fun _ => name) (v := id) hplace hall
  · have hempty : ∀ place ∈ slots (placeCount repetition recursive items.length) items,
        id place = none → ¬ StopsWith table mismatch [p place] := by
      rintro _ - rfl
      exact not_stopsWith (List.forall_mem_singleton.2 (hnone mismatch))
    obtain ⟨before, value, rest, hvalues, hbefore, hoffends⟩ :=
      exists_first (n := fun _ => name) (v := id) hempty hplace hstops
    exact .list (hwritten ▸ hvalues) hbefore hoffends

/-- The pieces of the items of a list tell the first item that offends. -/
theorem judges_itemPieces (property : Property) (item : ItemType) (repetition : Repetition)
    (items : List Value) :
    Judges table property.name (.list item repetition) (.list items)
      (itemPieces property item repetition items) := by
  rcases item with target | _ | layout
  · have hitem : ItemType.record target ≠ .text none := nofun
    exact judges_places hitem _ (fun _ hoffends => not_offends_nil (hoffends ""))
      (judges_placePiece property.name target)
  · refine ⟨fun _ => .list ?_, fun _ hstops => hstops.elim⟩
    rw [writtenItems.eq_def, if_pos rfl]
    exact List.forall_mem_nil _
  · have hitem : ItemType.text (some layout) ≠ .text none := nofun
    exact judges_places hitem _ nofun (judges_encodeTextItem layout _)

/-! ## Steps and their pieces -/

theorem fieldText_eq (layout : Layout) (property : Property) (fields : Record) :
    fieldText layout property fields =
      encodeTextItem property.name layout (fields.get? property.name) := by
  rw [fieldText, Record.text]
  rcases fields.get? property.name with _ | ⟨_ | _ | _⟩ <;> rfl

theorem nestedPieces_of_get? (hk : property.kind = .nested target)
    (h : fields.get? property.name = some value) :
    nestedPieces property fields = [placePiece property.name target (some value)] := by
  rw [nestedPieces, hk, Record.record, h]
  cases value <;> rfl

/-- The pieces of the value of a list property. -/
def listValuePieces (property : Property) (item : ItemType) (repetition : Repetition) :
    Value → List Piece
  | .list items => itemPieces property item repetition items
  | other => [.text (.error ⟨property.name, .list, other.kind⟩)]

theorem listPieces_of_get? (hk : property.kind = .list item repetition)
    (h : fields.get? property.name = some value) :
    listPieces property fields = listValuePieces property item repetition value := by
  rw [listPieces, hk, Record.list, h]
  cases value <;> rfl

theorem judges_listValuePieces (property : Property) (item : ItemType) (repetition : Repetition)
    (value : Value) :
    Judges table property.name (.list item repetition) value
      (listValuePieces property item repetition value) := by
  cases value with
  | list items => exact judges_itemPieces property item repetition items
  | text | record => exact judges_wrong nofun

theorem setValue?_eq_some (h : setValue? type fields step = some (property, value)) :
    type.stepProperty? step = some property ∧ fields.get? property.name = some value := by
  obtain ⟨owner, howner, h⟩ := Option.bind_eq_some_iff.1 h
  obtain ⟨found, hfound, heq⟩ := Option.map_eq_some_iff.1 h
  cases heq
  exact ⟨howner, hfound⟩

/-- **The pieces of a step tell whether the value that is set for it is accepted.** -/
theorem judges_stepPieces (hm : WellMade type.properties type.steps) (hs : step ∈ type.steps)
    (h : setValue? type fields step = some (property, value)) :
    Judges table property.name property.kind value (stepPieces type fields step) := by
  obtain ⟨hproperty, hvalue⟩ := setValue?_eq_some h
  obtain ⟨index, huse, hp⟩ := Option.bind_eq_some_iff.1 hproperty
  obtain ⟨property', hp', hstep⟩ := hm.exists_property hs huse
  cases hp.symm.trans hp'
  cases step with
  | field index' layout =>
    cases huse
    rw [stepPieces, hp, PropertyKind.eq_of_field_mem_stepsAt hstep]
    dsimp only
    rw [fieldText_eq, hvalue]
    exact judges_encodeTextItem layout _ value
  | nested index' =>
    cases huse
    obtain ⟨target, hk⟩ := PropertyKind.eq_of_nested_mem_stepsAt hstep
    rw [stepPieces, hp, hk]
    dsimp only
    rw [nestedPieces_of_get? hk hvalue]
    exact judges_placePiece property.name target value
  | list index' =>
    cases huse
    obtain ⟨item, repetition, hk⟩ := PropertyKind.eq_of_list_mem_stepsAt hstep
    rw [stepPieces, hp, hk]
    dsimp only
    rw [listPieces_of_get? hk hvalue]
    exact judges_listValuePieces property item repetition value
  | constant | padding | unresolved | cycle => cases huse

/-- An unset list has no items that offend. -/
theorem not_offends_of_mem_itemPieces (h : piece ∈ itemPieces property item repetition []) :
    ¬ piece.Offends table mismatch := by
  have hplace : ∀ count, ∀ place ∈ slots count [], place = none := fun count place hplace => by
    simpa using (List.mem_replicate.1 (by simpa [slots] using hplace)).2
  rcases item with target | _ | layout
  · obtain ⟨place, hmem, rfl⟩ := List.mem_map.1 h
    rw [hplace _ place hmem]
    exact fun hoffends => not_offends_nil (hoffends "")
  · cases h
  · obtain ⟨place, hmem, rfl⟩ := List.mem_map.1 h
    rw [hplace _ place hmem]
    intro hoffends
    cases hoffends

theorem not_offends_of_mem_nestedPieces (hunset : fields.get? property.name = none)
    (h : piece ∈ nestedPieces property fields) : ¬ piece.Offends table mismatch := by
  rw [nestedPieces] at h
  split at h
  · rw [Record.record, hunset] at h
    obtain ⟨-, rfl⟩ : property.recursive = false ∧ piece = .record _ [] := by simpa using h
    exact fun hoffends => not_offends_nil (hoffends "")
  · cases h

theorem not_offends_of_mem_listPieces (hunset : fields.get? property.name = none)
    (h : piece ∈ listPieces property fields) : ¬ piece.Offends table mismatch := by
  rw [listPieces] at h
  split at h
  · rw [Record.list, hunset] at h
    exact not_offends_of_mem_itemPieces h
  · cases h

/-- **A step for which no value is set does not stop the writing.** -/
theorem not_stopsWith_stepPieces (h : setValue? type fields step = none) :
    ¬ StopsWith table mismatch (stepPieces type fields step) := by
  refine not_stopsWith fun piece hpiece => ?_
  have hunset : ∀ index property, step.property? = some index →
      type.properties[index]? = some property → fields.get? property.name = none := by
    intro index property huse hp
    simpa [setValue?, RecordType.stepProperty?, huse, hp] using h
  cases step with
  | field index layout =>
    rw [stepPieces] at hpiece
    split at hpiece
    · rename_i property hp
      rw [fieldText_eq, hunset index property rfl hp] at hpiece
      cases List.mem_singleton.1 hpiece
      intro hoffends
      cases hoffends
    · cases List.mem_singleton.1 hpiece
      exact id
  | nested index =>
    rw [stepPieces] at hpiece
    split at hpiece
    · rename_i property hp
      exact not_offends_of_mem_nestedPieces (hunset index property rfl hp) hpiece
    · cases List.mem_singleton.1 hpiece
      exact id
  | list index =>
    rw [stepPieces] at hpiece
    split at hpiece
    · rename_i property hp
      exact not_offends_of_mem_listPieces (hunset index property rfl hp) hpiece
    · cases List.mem_singleton.1 hpiece
      exact id
  | constant | padding =>
    cases List.mem_singleton.1 hpiece
    intro hoffends
    cases hoffends
  | unresolved | cycle => cases hpiece

/-- **The pieces of a record tell whether it is accepted**, and if not, its first offence. -/
theorem judges_pieces (hm : WellMade type.properties type.steps)
    (found : table.types[target]? = some type) (fields : Record) (name : String) :
    Judges table name (.nested target) (.record fields) (pieces type fields) := by
  have hset : ∀ step ∈ type.steps, ∀ entry, setValue? type fields step = some entry →
      Judges table entry.1.name entry.1.kind entry.2 (stepPieces type fields step) :=
    fun step hs entry h => judges_stepPieces hm hs h
  refine ⟨fun hall => .record found (accepted_of_mem_filterMap hset hall),
    fun mismatch hstops => ?_⟩
  obtain ⟨before, entry, rest, hvalues, hbefore, hoffends⟩ :=
    exists_first (fun step _ h => not_stopsWith_stepPieces h) hset hstops
  exact .record found hvalues hbefore hoffends

/-! ## Runs -/

/-- What the result of writing says about the pieces. -/
def Verdict (table : TypeTable) (list : List Piece) : Encoded → Prop
  | .ok _ => ∀ piece ∈ list, piece.Accepted table
  | .error mismatch => StopsWith table mismatch list

/-- A piece that is accepted leaves the result to those after it. -/
theorem Verdict.cons {out : Encoded} (h : Verdict table rest out) (hp : piece.Accepted table)
    (first : List Char) : Verdict table (piece :: rest) (out.map (first ++ ·)) := by
  cases out with
  | ok => exact List.forall_mem_cons.2 ⟨hp, h⟩
  | error => exact Or.inr ⟨hp, h⟩

/-- **A run ends well if all pieces are accepted, and otherwise with the first offence.** -/
theorem Writes.verdict {out : Encoded} (h : Writes table list out)
    (hm : ∀ type ∈ table.types, WellMade type.properties type.steps) : Verdict table list out := by
  induction h with
  | nil => exact List.forall_mem_nil _
  | @text first _ _ _ ih =>
    have hp : (Piece.text (.ok first)).Accepted table := ⟨first, rfl⟩
    exact ih.cons hp first
  | mismatch => exact Or.inl rfl
  | @record target _ fields first _ _ found _ _ ihInner ih =>
    have hp : (Piece.record target fields).Accepted table :=
      (judges_pieces (hm _ (List.mem_of_getElem? found)) found fields "").accepted ihInner
    exact ih.cons hp first
  | @stopped _ _ fields _ _ found _ ihInner =>
    exact Or.inl fun name =>
      (judges_pieces (hm _ (List.mem_of_getElem? found)) found fields name).offends _ ihInner

end FixedWidth.Codec
