import FixedWidth.Proofs.Mismatches

/-!
# Proofs/Agreement — what writing does not look at

    record ──▸ set values with a step ──▸ pieces ──▸ text or first offence
    other  ──▸ values that agree      ──▸ pieces ──▸ the same

Two records agree if they set the same properties with a step, to values that agree again
(`Agrees`). Their pieces agree one by one, and so writing brings both to the same end
(`Writes.agrees`). With `Writes.verdict` this is all there is to say about the values that a record
may have (`encode_fails_at_first`).
-/

namespace FixedWidth.Codec

open Schema (Registry)
open Table

variable {table : TypeTable} {type : RecordType} {fields others : Record} {property : Property}
  {item : ItemType} {repetition : Repetition} {items otherItems : List Value}
  {value otherValue : Value} {target : Nat} {step : Step} {list others' : List Piece}

/-! ## Records that agree -/

/-- **Two values that agree on all that writing asks for.** Records may differ in properties without
a step, and in names that their type does not have; lists in items that have no place. -/
inductive Agrees (table : TypeTable) : PropertyKind → Value → Value → Prop
  | same {kind : PropertyKind} {value : Value} : Agrees table kind value value
  | record {target : Nat} {type : RecordType} {fields others : Record}
      (found : table.types[target]? = some type)
      (unset : ∀ step ∈ type.steps, ∀ property, type.stepProperty? step = some property →
        (fields.get? property.name = none ↔ others.get? property.name = none))
      (values : ∀ step ∈ type.steps, ∀ property, type.stepProperty? step = some property →
        ∀ value other, fields.get? property.name = some value →
          others.get? property.name = some other → Agrees table property.kind value other) :
    Agrees table (.nested target) (.record fields) (.record others)
  | list {item : ItemType} {repetition : Repetition} {items others : List Value}
      (length : (writtenItems item repetition items).length =
        (writtenItems item repetition others).length)
      (values : ∀ (i : Nat) (value other : Value),
        (writtenItems item repetition items)[i]? = some value →
        (writtenItems item repetition others)[i]? = some other →
          Agrees table (itemKind item) value other) :
    Agrees table (.list item repetition) (.list items) (.list others)

/-- Records with the same values for all properties with a step agree, whatever else they hold. -/
theorem agrees_of_get?_eq (found : table.types[target]? = some type)
    (h : ∀ step ∈ type.steps, ∀ property ∈ type.stepProperty? step,
      others.get? property.name = fields.get? property.name) :
    Agrees table (.nested target) (.record fields) (.record others) := by
  refine .record found (fun step hs property hp => by rw [h step hs property hp])
    fun step hs property hp value other hvalue hother => ?_
  rw [h step hs property hp, hvalue] at hother
  cases hother
  exact .same

/-- Pieces that differ in records that agree. -/
inductive Piece.Agrees (table : TypeTable) : Piece → Piece → Prop
  | same {piece : Piece} : Piece.Agrees table piece piece
  | record {target : Nat} {fields others : Record}
      (h : Codec.Agrees table (.nested target) (.record fields) (.record others)) :
    Piece.Agrees table (.record target fields) (.record target others)

/-- Two lists of pieces that agree one by one. -/
abbrev PiecesAgree (table : TypeTable) : List Piece → List Piece → Prop :=
  List.Forall₂ (Piece.Agrees table)

theorem piecesAgree_same (list : List Piece) : PiecesAgree table list list :=
  List.forall₂_same.2 fun _ _ => .same

/-- Texts that agree are the same. -/
theorem Agrees.eq_of_text {layout : Option Layout}
    (h : Agrees table (.text layout) value otherValue) : value = otherValue := by
  cases h
  rfl

theorem agrees_placePiece (name : String) (h : Agrees table (.nested target) value otherValue) :
    (placePiece name target (some value)).Agrees table
      (placePiece name target (some otherValue)) := by
  cases h with
  | same => exact .same
  | record found unset values => exact .record (.record found unset values)

/-- The number of places depends on the items that are written only. -/
theorem placeCount_writtenItems (repetition : Repetition) (recursive : Bool)
    (items : List Value) (hitem : item ≠ .text none) :
    placeCount repetition recursive (writtenItems item repetition items).length =
      placeCount repetition recursive items.length := by
  rw [writtenItems_eq_take recursive hitem]
  cases repetition with
  | dynamic => simp [placeCount]
  | fixed count => cases recursive <;> simp [placeCount]

/-- The places of a list are the look-ups among the items that are written. -/
theorem slots_eq_writtenItems (repetition : Repetition) (recursive : Bool) (items : List Value)
    (hitem : item ≠ .text none) :
    slots (placeCount repetition recursive items.length) items =
      (List.range (placeCount repetition recursive items.length)).map
        ((writtenItems item repetition items)[·]?) := by
  rw [slots_eq_map_range]
  refine List.map_congr_left fun i hi => ?_
  rw [writtenItems_eq_take recursive hitem, List.getElem?_take_of_lt (List.mem_range.1 hi)]

theorem agrees_places {p : Option Value → Piece} (hitem : item ≠ .text none) (recursive : Bool)
    (hsome : ∀ value other, Agrees table (itemKind item) value other →
      (p (some value)).Agrees table (p (some other)))
    (length : (writtenItems item repetition items).length =
      (writtenItems item repetition otherItems).length)
    (values : ∀ (i : Nat) (value other : Value),
      (writtenItems item repetition items)[i]? = some value →
      (writtenItems item repetition otherItems)[i]? = some other →
        Agrees table (itemKind item) value other) :
    PiecesAgree table ((slots (placeCount repetition recursive items.length) items).map p)
      ((slots (placeCount repetition recursive otherItems.length) otherItems).map p) := by
  have hcount : placeCount repetition recursive otherItems.length =
      placeCount repetition recursive items.length := by
    rw [← placeCount_writtenItems repetition recursive items hitem,
      ← placeCount_writtenItems repetition recursive otherItems hitem, length]
  rw [slots_eq_writtenItems repetition recursive items hitem,
    slots_eq_writtenItems repetition recursive otherItems hitem, hcount, List.map_map, List.map_map,
    PiecesAgree, List.forall₂_map_left_iff, List.forall₂_map_right_iff, List.forall₂_same]
  intro i _
  dsimp only [Function.comp_apply]
  obtain hlt | hle := Nat.lt_or_ge i (writtenItems item repetition items).length
  · have hfirst := List.getElem?_eq_getElem hlt
    have hother := List.getElem?_eq_getElem (length ▸ hlt)
    rw [hfirst, hother]
    exact hsome _ _ (values i _ _ hfirst hother)
  · rw [List.getElem?_eq_none hle, List.getElem?_eq_none (length ▸ hle)]
    exact .same

theorem agrees_listValuePieces (property : Property)
    (h : Agrees table (.list item repetition) value otherValue) :
    PiecesAgree table (listValuePieces property item repetition value)
      (listValuePieces property item repetition otherValue) := by
  cases h with
  | same => exact piecesAgree_same _
  | list length values =>
    rcases item with target | _ | layout
    · have hitem : ItemType.record target ≠ .text none := nofun
      exact agrees_places hitem _ (fun _ _ h => agrees_placePiece _ h) length values
    · exact .nil
    · have hitem : ItemType.text (some layout) ≠ .text none := nofun
      refine agrees_places hitem _ (fun value other h => ?_) length values
      rw [h.eq_of_text]
      exact .same

/-- A property that two records leave unset, or set to values that agree. -/
def AgreeAt (table : TypeTable) (property : Property) (fields others : Record) : Prop :=
  fields.get? property.name = none ∧ others.get? property.name = none ∨
    ∃ value other, fields.get? property.name = some value ∧
      others.get? property.name = some other ∧ Agrees table property.kind value other

theorem agreeAt_of_get?
    (unset : fields.get? property.name = none ↔ others.get? property.name = none)
    (values : ∀ value other, fields.get? property.name = some value →
      others.get? property.name = some other → Agrees table property.kind value other) :
    AgreeAt table property fields others := by
  cases hvalue : fields.get? property.name with
  | none => exact Or.inl ⟨hvalue, unset.1 hvalue⟩
  | some value =>
    cases hother : others.get? property.name with
    | none => exact absurd (unset.2 hother) (by simp [hvalue])
    | some other => exact Or.inr ⟨value, other, hvalue, hother, values _ _ hvalue hother⟩

theorem agrees_nestedPieces (hk : property.kind = .nested target)
    (h : AgreeAt table property fields others) :
    PiecesAgree table (nestedPieces property fields) (nestedPieces property others) := by
  obtain ⟨hnone, hnone'⟩ | ⟨value, other, hvalue, hother, hagrees⟩ := h
  · rw [nestedPieces, nestedPieces, Record.record, Record.record, hnone, hnone']
    exact piecesAgree_same _
  · rw [nestedPieces_of_get? hk hvalue, nestedPieces_of_get? hk hother]
    exact .cons (agrees_placePiece _ (hk ▸ hagrees)) .nil

theorem agrees_listPieces (hk : property.kind = .list item repetition)
    (h : AgreeAt table property fields others) :
    PiecesAgree table (listPieces property fields) (listPieces property others) := by
  obtain ⟨hnone, hnone'⟩ | ⟨value, other, hvalue, hother, hagrees⟩ := h
  · rw [listPieces, listPieces, Record.list, Record.list, hnone, hnone']
    exact piecesAgree_same _
  · rw [listPieces_of_get? hk hvalue, listPieces_of_get? hk hother]
    exact agrees_listValuePieces property (hk ▸ hagrees)

theorem fieldText_of_agreeAt {framing : Option Layout} (layout : Layout)
    (hk : property.kind = .text framing) (h : AgreeAt table property fields others) :
    fieldText layout property fields = fieldText layout property others := by
  rw [fieldText_eq, fieldText_eq]
  obtain ⟨hnone, hnone'⟩ | ⟨value, other, hvalue, hother, hagrees⟩ := h
  · rw [hnone, hnone']
  · rw [hk] at hagrees
    rw [hvalue, hother, hagrees.eq_of_text]

/-- **Records that agree on the property of a step have pieces that agree.** -/
theorem agrees_stepPieces (hm : WellMade type.properties type.steps) (hs : step ∈ type.steps)
    (h : ∀ property, type.stepProperty? step = some property →
      AgreeAt table property fields others) :
    PiecesAgree table (stepPieces type fields step) (stepPieces type others step) := by
  cases step with
  | field index layout =>
    obtain ⟨property, hp, huse⟩ := hm.exists_property hs rfl
    rw [stepPieces, stepPieces, hp]
    dsimp only
    rw [fieldText_of_agreeAt layout (PropertyKind.eq_of_field_mem_stepsAt huse) (h property hp)]
    exact piecesAgree_same _
  | nested index =>
    obtain ⟨property, hp, huse⟩ := hm.exists_property hs rfl
    obtain ⟨target, hk⟩ := PropertyKind.eq_of_nested_mem_stepsAt huse
    rw [stepPieces, stepPieces, hp]
    exact agrees_nestedPieces hk (h property hp)
  | list index =>
    obtain ⟨property, hp, huse⟩ := hm.exists_property hs rfl
    obtain ⟨item, repetition, hk⟩ := PropertyKind.eq_of_list_mem_stepsAt huse
    rw [stepPieces, stepPieces, hp]
    exact agrees_listPieces hk (h property hp)
  | constant | padding | unresolved | cycle => exact piecesAgree_same _

theorem piecesAgree_flatMap {α : Type} {elements : List α} {f g : α → List Piece}
    (h : ∀ a ∈ elements, PiecesAgree table (f a) (g a)) :
    PiecesAgree table (elements.flatMap f) (elements.flatMap g) := by
  induction elements with
  | nil => exact .nil
  | cons a more ih =>
    rw [List.forall_mem_cons] at h
    rw [List.flatMap_cons, List.flatMap_cons]
    exact List.rel_append h.1 (ih h.2)

/-- **Records that agree have pieces that agree.** -/
theorem agrees_pieces (hm : WellMade type.properties type.steps)
    (found : table.types[target]? = some type)
    (h : Agrees table (.nested target) (.record fields) (.record others)) :
    PiecesAgree table (pieces type fields) (pieces type others) := by
  cases h with
  | same => exact piecesAgree_same _
  | record found' unset values =>
    cases found.symm.trans found'
    exact piecesAgree_flatMap fun step hs => agrees_stepPieces hm hs fun property hp =>
      agreeAt_of_get? (unset step hs property hp) (values step hs property hp)

/-- **Pieces that agree are written to the same end.** -/
theorem Writes.agrees {out : Encoded} (h : Writes table list out)
    (hm : ∀ type ∈ table.types, WellMade type.properties type.steps)
    (hagree : PiecesAgree table list others') : Writes table others' out := by
  induction h generalizing others' with
  | nil =>
    cases hagree
    exact .nil
  | text _ ih =>
    obtain _ | ⟨hpiece, hrest⟩ := hagree
    cases hpiece
    exact .text (ih hrest)
  | mismatch =>
    obtain _ | ⟨hpiece, hrest⟩ := hagree
    cases hpiece
    exact .mismatch
  | record found inner _ ihInner ih =>
    obtain _ | ⟨hpiece, hrest⟩ := hagree
    cases hpiece with
    | same => exact .record found inner (ih hrest)
    | record hrecords =>
      have hpieces := agrees_pieces (hm _ (List.mem_of_getElem? found)) found hrecords
      exact .record found (ihInner hpieces) (ih hrest)
  | stopped found inner ihInner =>
    obtain _ | ⟨hpiece, hrest⟩ := hagree
    cases hpiece with
    | same => exact .stopped found inner
    | record hrecords =>
      have hpieces := agrees_pieces (hm _ (List.mem_of_getElem? found)) found hrecords
      exact .stopped found (ihInner hpieces)

/-! ## Every type of every table -/

/-- **Encoding fails at the first value of the wrong kind.** A record is encoded if it is accepted
by its type; otherwise the result is its first offence. Records that agree have the same result. -/
theorem encode_fails_at_first (registry : Registry) (id : String) (index : Nat)
    (h : index < (compile registry id).types.length) (record : Record) :
    ((∃ out, encode (compile registry id) index record = .ok out) ↔
        Accepted (compile registry id) (.nested index) (.record record)) ∧
      (∀ name mismatch, encode (compile registry id) index record = .error mismatch ↔
        Offends (compile registry id) name (.nested index) (.record record) mismatch) ∧
      ∀ other, Agrees (compile registry id) (.nested index) (.record record) (.record other) →
        encode (compile registry id) index other = encode (compile registry id) index record := by
  have hrun := compiles_compile registry id
  have hm := hrun.wellMade
  obtain ⟨rank, hr⟩ := hrun.exists_ranked
  obtain ⟨type, found, hwrites⟩ := encodes_encode hr hm h record
  have hmade := hm type (List.mem_of_getElem? found)
  have hjudges := judges_pieces hmade found record
  have hverdict := hwrites.verdict hm
  refine ⟨⟨?_, fun haccepted => ?_⟩, fun name mismatch => ⟨fun herror => ?_, fun hoffends => ?_⟩,
    fun other hagrees => ?_⟩
  · rintro ⟨out, hout⟩
    rw [hout] at hverdict
    exact (hjudges "").accepted hverdict
  · cases hout : encode (compile registry id) index record with
    | ok out => exact ⟨out, rfl⟩
    | error mismatch =>
      rw [hout] at hverdict
      exact absurd ((hjudges "").offends mismatch hverdict) haccepted.not_offends
  · rw [herror] at hverdict
    exact (hjudges name).offends mismatch hverdict
  · cases hout : encode (compile registry id) index record with
    | ok out =>
      rw [hout] at hverdict
      exact absurd hoffends ((hjudges "").accepted hverdict).not_offends
    | error other =>
      rw [hout] at hverdict
      rw [((hjudges name).offends other hverdict).unique hoffends]
  · exact (encodes_encode hr hm h other).unique
      ⟨type, found, hwrites.agrees hm (agrees_pieces hmade found hagrees)⟩

/-- A parcel whose last stop is a text. The list it has as a remark is never asked for. -/
def strayParcel : Record :=
  [("remark", .list []), ("sender", .record [("name", .text "Ann")]),
    ("stops", .list [.record [("town", .text "Ulm")], .text "Rom"])]

/-- The text among the stops of a parcel is its first offence, with or without the remark. -/
theorem strayParcel_fails_at_first :
    Offends (compile parcels "Parcel") "Parcel" (.nested 0) (.record strayParcel)
        ⟨"stops", .record, .text⟩ ∧
      encode (compile parcels "Parcel") 0 (strayParcel.drop 1) =
        .error ⟨"stops", .record, .text⟩ := by
  have h : 0 < (compile parcels "Parcel").types.length := by decide +kernel
  obtain ⟨-, hfails, hagrees⟩ := encode_fails_at_first parcels "Parcel" 0 h strayParcel
  have herror : encode (compile parcels "Parcel") 0 strayParcel =
      .error ⟨"stops", .record, .text⟩ := by decide +kernel
  refine ⟨(hfails "Parcel" _).1 herror, (hagrees (strayParcel.drop 1) ?_).trans herror⟩
  exact agrees_of_get?_eq (List.getElem?_eq_getElem (by decide +kernel)) (by decide +kernel)

end FixedWidth.Codec
