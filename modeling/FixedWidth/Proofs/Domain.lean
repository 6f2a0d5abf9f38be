import FixedWidth.Proofs.CodecEnds
import FixedWidth.Proofs.Maps
import FixedWidth.Proofs.WellFormed

/-!
# Proofs/Domain — decoding lands where encoding is defined

    text ──decode──▸ record that conforms ──encode──▸ text

A record conforms to a type if it sets properties with steps only, each to a value of its kind, and
leaves out nothing that writing would have to make up (`Conforms`). Every step that is read keeps
this, so each text is decoded to such a record (`Reads.lands`); and by induction on what conforms,
each such record is encoded without a mismatch (`Conforms.encodes`).
-/

namespace FixedWidth.Table

/-- Whether reading sets the property in any case: a list, or a nested record unless it is
recursive. -/
def Property.isObligatory (property : Property) : Bool :=
  match property.kind with
  | .text _ => false
  | .nested _ => !property.recursive
  | .list _ _ => true

/-- Whether a list of this length was read: one with a declared number of items has so many, or
fewer if it is recursive. -/
def Repetition.Admits (repetition : Repetition) (recursive : Bool) (length : Nat) : Prop :=
  match repetition with
  | .dynamic => True
  | .fixed count => length ≤ count ∧ (recursive = false → length = count)

theorem Repetition.admits_of_eq {repetition : Repetition} {recursive : Bool} {length : Nat}
    (h : ∀ count, repetition = .fixed count → length = count) :
    repetition.Admits recursive length := by
  cases repetition with
  | dynamic => trivial
  | fixed count => exact ⟨(h count rfl).le, fun _ => h count rfl⟩

variable {type : RecordType} {step : Step} {property : Property}

/-- A step uses one property. -/
theorem forall_stepProperty? {P : Property → Prop} (hp : type.stepProperty? step = some property)
    (h : P property) : ∀ other, type.stepProperty? step = some other → P other := by
  intro other hother
  cases hp.symm.trans hother
  exact h

/-- A property that is set in any case has a step. -/
theorem WellMade.exists_step (hm : WellMade type.properties type.steps)
    (hp : property ∈ type.properties) (hobligatory : property.isObligatory) :
    ∃ step ∈ type.steps, type.stepProperty? step = some property := by
  obtain ⟨index, hindex⟩ := List.mem_iff_getElem?.1 hp
  have huse : ∃ step, step ∈ property.kind.stepsAt index := by
    rw [Property.isObligatory] at hobligatory
    cases hk : property.kind with
    | text => simp [hk] at hobligatory
    | nested => exact ⟨.nested index, List.mem_singleton_self _⟩
    | list => exact ⟨.list index, List.mem_singleton_self _⟩
  obtain ⟨step, hstep⟩ := huse
  refine ⟨step, hm.mem_steps hindex hstep, ?_⟩
  rw [RecordType.stepProperty?, PropertyKind.property?_of_mem_stepsAt hstep]
  exact hindex

end FixedWidth.Table

namespace FixedWidth.Codec

open Schema (Registry)
open Table
open Wire (Cursor)

/-! ## Records that conform -/

/-- **A value of a kind as reading makes it.** A record sets properties with steps, to values of
their kinds, and every property that is set in any case; a list has an admitted length. -/
inductive Conforms (table : TypeTable) : PropertyKind → (recursive : Bool) → Value → Prop
  | text {layout : Option Layout} {recursive : Bool} {content : String} :
    Conforms table (.text layout) recursive (.text content)
  | record {target : Nat} {type : RecordType} {recursive : Bool} {fields : Record}
      (found : table.types[target]? = some type)
      (known : ∀ name value, (name, value) ∈ fields →
        ∃ property, type.property? name = some property ∧ property.kind.hasStep)
      (values : ∀ name value property, (name, value) ∈ fields →
        type.property? name = some property →
        Conforms table property.kind property.recursive value)
      (obligatory : ∀ property ∈ type.properties, property.isObligatory →
        (fields.get? property.name).isSome) :
    Conforms table (.nested target) recursive (.record fields)
  | list {item : ItemType} {repetition : Repetition} {recursive : Bool} {items : List Value}
      (length : repetition.Admits recursive items.length)
      (values : ∀ value ∈ items, Conforms table (itemKind item) false value) :
    Conforms table (.list item repetition) recursive (.list items)

/-- Each field is a property of the type with a step, and a value of its kind. -/
def Lawful (table : TypeTable) (type : RecordType) (record : Record) : Prop :=
  ∀ name value, (name, value) ∈ record → ∃ property ∈ type.properties, property.name = name ∧
    property.kind.hasStep ∧ Conforms table property.kind property.recursive value

variable {table : TypeTable} {type : RecordType} {record record' fields : Record}
  {property : Property} {step : Step} {rest : List Step} {start : Nat} {cursor next last : Cursor}
  {task : Task} {result value : Value} {name : String} {set : Option (String × Value)}

theorem Lawful.empty : Lawful table type [] := nofun

theorem Lawful.insert (h : Lawful table type record) (hp : property ∈ type.properties)
    (hstep : property.kind.hasStep)
    (hv : Conforms table property.kind property.recursive value) :
    Lawful table type (record.insert property.name value) := by
  intro name' value' hmem
  obtain heq | hmem := NameMap.mem_of_mem_insert hmem
  · cases heq
    exact ⟨property, hp, rfl, hstep, hv⟩
  · exact h name' value' hmem

/-- **What reading the steps of a type makes of a record.** -/
structure Completes (table : TypeTable) (type : RecordType) (record : Record) (rest : List Step)
    (fields : Record) : Prop where
  lawful : Lawful table type fields
  keeps : ∀ name, (record.get? name).isSome → (fields.get? name).isSome
  sets : ∀ step ∈ rest, ∀ property, type.stepProperty? step = some property →
    property.isObligatory → (fields.get? property.name).isSome

theorem isSome_get?_insert (name : String) (value : Value) {other : String}
    (h : (record.get? other).isSome) : ((record.insert name value).get? other).isSome := by
  by_cases heq : name = other
  · rw [heq, Record.get?_insert_self]
    rfl
  · rwa [Record.get?_insert_of_ne _ heq]

/-- One step more is read, if it keeps what was set and sets what it has to. -/
theorem Completes.cons (h : Completes table type record' rest fields)
    (hkeeps : ∀ name, (record.get? name).isSome → (record'.get? name).isSome)
    (hsets : ∀ property, type.stepProperty? step = some property → property.isObligatory →
      (record'.get? property.name).isSome) :
    Completes table type record (step :: rest) fields where
  lawful := h.lawful
  keeps := fun name hname => h.keeps name (hkeeps name hname)
  sets := by
    rw [List.forall_mem_cons]
    exact ⟨fun property hp hob => h.keeps _ (hsets property hp hob), h.sets⟩

/-- A step that sets its property does what it has to. -/
theorem Completes.cons_insert
    (h : Completes table type (record.insert property.name value) rest fields)
    (hp : type.stepProperty? step = some property) :
    Completes table type record (step :: rest) fields := by
  refine h.cons (fun _ => isSome_get?_insert _ _) (forall_stepProperty? hp fun _ => ?_)
  rw [Record.get?_insert_self]
  rfl

/-- **A record of which all steps were read conforms to its type.** -/
theorem Completes.conforms {target : Nat} {recursive : Bool}
    (h : Completes table type [] type.steps fields) (found : table.types[target]? = some type)
    (hm : WellMade type.properties type.steps) :
    Conforms table (.nested target) recursive (.record fields) := by
  refine .record found (fun name value hmem => ?_) (fun name value property hmem hp => ?_)
    fun property hp hobligatory => ?_
  · obtain ⟨property, hp, rfl, hstep, -⟩ := h.lawful name value hmem
    exact ⟨property, hm.property?_eq hp, hstep⟩
  · obtain ⟨property', hp', rfl, -, hv⟩ := h.lawful name value hmem
    rw [hm.property?_eq hp', Option.some.injEq] at hp
    exact hp ▸ hv
  · obtain ⟨step, hs, hstep⟩ := hm.exists_step hp hobligatory
    exact h.sets step hs property hstep hobligatory

/-! ## What a step sets -/

/-- A nested property that is passed over is recursive. -/
theorem isObligatory_of_nestedAction {target : Nat} (hk : property.kind = .nested target)
    (h : nestedAction property start cursor = .put set next) :
    set = none ∧ property.isObligatory = false := by
  simp only [nestedAction, hk] at h
  split at h
  · cases h
  · rename_i hskip
    cases h
    rw [Bool.not_eq_true, Bool.or_eq_false_iff] at hskip
    refine ⟨rfl, ?_⟩
    rw [Property.isObligatory, hk]
    exact hskip.1

/-- **A step that sets nothing has nothing to set**, or its property is set to a value of its
kind. -/
theorem put_of_stepAction (hm : WellMade type.properties type.steps) (hs : step ∈ type.steps)
    (h : stepAction type start cursor step = .put set next) :
    (set = none ∧ ∀ property, type.stepProperty? step = some property →
        property.isObligatory = false) ∨
      ∃ property value, type.stepProperty? step = some property ∧
        set = some (property.name, value) ∧ property.kind.hasStep ∧
        Conforms table property.kind property.recursive value := by
  cases step with
  | field index layout =>
    obtain ⟨property, hp, huse⟩ := hm.exists_property hs rfl
    have hk := PropertyKind.eq_of_field_mem_stepsAt huse
    have hstep : type.stepProperty? (.field index layout) = some property := hp
    rw [stepAction, hp] at h
    cases h
    cases (cursor.takeValue layout).1 with
    | none =>
      refine Or.inl ⟨rfl, forall_stepProperty? hstep ?_⟩
      rw [Property.isObligatory, hk]
    | some text => exact Or.inr ⟨property, _, hstep, rfl, by rw [hk]; rfl, hk ▸ .text⟩
  | nested index =>
    obtain ⟨property, hp, huse⟩ := hm.exists_property hs rfl
    obtain ⟨target, hk⟩ := PropertyKind.eq_of_nested_mem_stepsAt huse
    have hstep : type.stepProperty? (.nested index) = some property := hp
    rw [stepAction, hp] at h
    obtain ⟨rfl, hfree⟩ := isObligatory_of_nestedAction hk h
    exact Or.inl ⟨rfl, forall_stepProperty? hstep hfree⟩
  | list index =>
    obtain ⟨property, hp, huse⟩ := hm.exists_property hs rfl
    obtain ⟨item, repetition, hk⟩ := PropertyKind.eq_of_list_mem_stepsAt huse
    rw [stepAction, hp] at h
    obtain ⟨layout, texts, rfl, rfl, -, hcount⟩ := put_of_listAction hk h
    refine Or.inr ⟨property, _, hp, rfl, by rw [hk]; rfl, ?_⟩
    rw [hk]
    refine .list (Repetition.admits_of_eq fun count heq => ?_)
      (List.forall_mem_map.2 fun _ _ => .text)
    rw [List.length_map, hcount count heq]
  | constant | padding | unresolved | cycle =>
    cases h
    refine Or.inl ⟨rfl, fun property hproperty => ?_⟩
    cases hproperty

/-! ## Every task lands -/

/-- The result of a task: a record that is complete, or items that conform. -/
def Task.Lands (table : TypeTable) (result : Value) : Task → Prop
  | .steps type _ record rest =>
    type ∈ table.types → rest ⊆ type.steps → Lawful table type record →
      ∃ fields, result = .record fields ∧ Completes table type record rest fields
  | .texts layout => ∃ items, result = .list items ∧
      ∀ value ∈ items, Conforms table (.text (some layout)) false value
  | .records target recursive _ repetition => ∃ items, result = .list items ∧
      repetition.Admits recursive items.length ∧
      ∀ value ∈ items, Conforms table (.nested target) false value

theorem admits_of_ended {repetition : Repetition} {recursive : Bool}
    (h : goesOn recursive start cursor repetition = false) : repetition.Admits recursive 0 := by
  rcases repetition with _ | _ | count
  · trivial
  · exact ⟨le_rfl, fun _ => rfl⟩
  · rw [goesOn, Bool.or_eq_false_iff] at h
    refine ⟨Nat.zero_le _, fun hrec => ?_⟩
    rw [hrec] at h
    cases h.1

/-- One record more is admitted where a list goes on. -/
theorem admits_of_goesOn {repetition : Repetition} {recursive : Bool} {length : Nat}
    (h : goesOn recursive start cursor repetition = true)
    (hleft : (leftOver repetition).Admits recursive length) :
    repetition.Admits recursive (length + 1) := by
  rcases repetition with _ | _ | count
  · trivial
  · cases h
  · exact ⟨Nat.succ_le_succ hleft.1, fun hrec => congrArg (· + 1) (hleft.2 hrec)⟩

/-- What a task yields for a list property is a value of the property. -/
theorem conforms_of_items
    (htask : (∃ layout, property.kind = .list (.text (some layout)) .dynamic ∧
        task = .texts layout) ∨
      ∃ target repetition, property.kind = .list (.record target) repetition ∧
        task = .records target property.recursive start repetition)
    (hlands : task.Lands table value) :
    property.kind.hasStep ∧ Conforms table property.kind property.recursive value := by
  obtain ⟨layout, hk, rfl⟩ | ⟨target, repetition, hk, rfl⟩ := htask
  · obtain ⟨items, rfl, hall⟩ := hlands
    rw [hk]
    exact ⟨rfl, .list trivial hall⟩
  · obtain ⟨items, rfl, hlength, hall⟩ := hlands
    rw [hk]
    exact ⟨rfl, .list hlength hall⟩

/-- A record that was read from its first step to its last conforms to its type. -/
theorem Task.Lands.conforms {target : Nat} {recursive : Bool}
    (h : (Task.steps type start [] type.steps).Lands table (.record fields))
    (found : table.types[target]? = some type)
    (hm : ∀ type ∈ table.types, WellMade type.properties type.steps) :
    Conforms table (.nested target) recursive (.record fields) := by
  have htype := List.mem_of_getElem? found
  obtain ⟨fields', hfields, hcompletes⟩ := h htype (List.Subset.refl _) .empty
  cases hfields
  exact hcompletes.conforms found (hm type htype)

/-- A step that sets its property to a value of its kind leads on to what conforms. -/
theorem Task.Lands.cons
    (h : (Task.steps type start (record.insert property.name value) rest).Lands table result)
    (hp : type.stepProperty? step = some property) (hstep : property.kind.hasStep)
    (hv : Conforms table property.kind property.recursive value) :
    (Task.steps type start record (step :: rest)).Lands table result := by
  intro ht hrest hr
  obtain ⟨fields, hresult, hcompletes⟩ := h ht (List.cons_subset.1 hrest).2
    (hr.insert (RecordType.mem_of_stepProperty? hp) hstep hv)
  exact ⟨fields, hresult, hcompletes.cons_insert hp⟩

/-- **Every task yields what conforms.** -/
theorem Reads.lands (h : Reads table task cursor result last)
    (hm : ∀ type ∈ table.types, WellMade type.properties type.steps) :
    task.Lands table result := by
  induction h with
  | done => exact fun _ _ hr => ⟨_, rfl, hr, fun _ h => h, nofun⟩
  | put action _ ih =>
    intro ht hrest hr
    have hboth := List.cons_subset.1 hrest
    obtain ⟨rfl, hfree⟩ | ⟨property, value, hp, rfl, hstep, hv⟩ :=
      put_of_stepAction (hm _ ht) hboth.1 action
    · obtain ⟨fields, hresult, hcompletes⟩ := ih ht hboth.2 hr
      refine ⟨fields, hresult, hcompletes.cons (fun _ h => h) fun property hp hob => ?_⟩
      rw [hfree property hp] at hob
      cases hob
    · exact ih.cons hp hstep hv ht hrest hr
  | nested action found _ _ ihRead ih =>
    obtain ⟨property, hp, rfl, hk⟩ := exists_of_stepAction_nested action
    exact ih.cons hp (by rw [hk]; rfl) (hk ▸ ihRead.conforms found hm)
  | items action _ _ ihRead ih =>
    obtain ⟨property, hp, rfl, htask⟩ := exists_of_stepAction_items action
    obtain ⟨hstep, hv⟩ := conforms_of_items htask ihRead
    exact ih.cons hp hstep hv
  | textsEnd => exact ⟨[], rfl, nofun⟩
  | text _ _ ih =>
    obtain ⟨items, hitems, hall⟩ := ih
    cases hitems
    exact ⟨_, rfl, List.forall_mem_cons.2 ⟨.text, hall⟩⟩
  | recordsEnd ended => exact ⟨[], rfl, admits_of_ended ended, nofun⟩
  | idle => exact ⟨[], rfl, trivial, nofun⟩
  | record goes found _ _ _ ihRead ih =>
    obtain ⟨items, hitems, hlength, hall⟩ := ih
    cases hitems
    exact ⟨_, rfl, admits_of_goesOn goes hlength,
      List.forall_mem_cons.2 ⟨ihRead.conforms found hm, hall⟩⟩

/-- **A decoded record conforms to its type.** -/
theorem Decodes.conforms {index : Nat} {text : List Char} (h : Decodes table index text fields)
    (hm : ∀ type ∈ table.types, WellMade type.properties type.steps) :
    Conforms table (.nested index) false (.record fields) := by
  obtain ⟨type, last, found, read⟩ := h
  exact (read.lands hm).conforms found hm

/-! ## What conforms is written -/

/-- A piece that has a text. -/
def Piece.Sound (table : TypeTable) : Piece → Prop
  | .text content => ∃ out, content = .ok out
  | .record target fields => ∃ out, Encodes table target fields (.ok out)
  | .missing => False

/-- Pieces that have texts are written. -/
theorem writes_of_sound {list : List Piece} (h : ∀ piece ∈ list, piece.Sound table) :
    ∃ out, Writes table list (.ok out) := by
  induction list with
  | nil => exact ⟨[], .nil⟩
  | cons piece rest ih =>
    rw [List.forall_mem_cons] at h
    obtain ⟨out, htail⟩ := ih h.2
    cases piece with
    | text content =>
      obtain ⟨first, rfl⟩ := h.1
      exact ⟨first ++ out, .text htail⟩
    | record target fields =>
      obtain ⟨first, type, found, inner⟩ := h.1
      exact ⟨first ++ out, .record found inner htail⟩
    | missing => cases h.1

/-- The records in a value of a kind are encoded. -/
def Encodable (table : TypeTable) : PropertyKind → Value → Prop
  | .nested target, .record fields => ∃ out, Encodes table target fields (.ok out)
  | .list (.record target) _, .list items =>
    ∀ fields, .record fields ∈ items → ∃ out, Encodes table target fields (.ok out)
  | _, _ => True

/-- A property of a record is set where it has to be, to a value of its kind whose records are
encoded. -/
structure Ready (table : TypeTable) (record : Record) (property : Property) : Prop where
  value : ∀ value, record.get? property.name = some value →
    Conforms table property.kind property.recursive value ∧ Encodable table property.kind value
  obligatory : property.isObligatory → (record.get? property.name).isSome

variable {item : ItemType} {repetition : Repetition} {target : Nat}

/-- A text is written whether it is set or not. -/
theorem Ready.sound_field {layout : Option Layout} (h : Ready table record property)
    (hk : property.kind = .text layout) (frame : Layout) :
    Piece.Sound table (.text (fieldText frame property record)) := by
  rw [fieldText, Record.text]
  cases hget : record.get? property.name with
  | none => exact ⟨_, rfl⟩
  | some value =>
    have hv := (h.value value hget).1
    rw [hk] at hv
    cases hv
    exact ⟨_, rfl⟩

/-- A nested record is written, or left out if it is recursive. -/
theorem Ready.sound_nested (h : Ready table record property)
    (hk : property.kind = .nested target) :
    ∀ piece ∈ nestedPieces property record, piece.Sound table := by
  cases hget : record.get? property.name with
  | none =>
    have hrec : property.recursive = true := by
      by_contra hdirect
      have hset := h.obligatory (by rw [Property.isObligatory, hk]; simpa using hdirect)
      rw [hget] at hset
      cases hset
    simp [nestedPieces, hk, Record.record, hget, hrec]
  | some value =>
    obtain ⟨hv, he⟩ := h.value value hget
    rw [hk] at hv he
    cases hv
    have hsound : Piece.Sound table (.record target _) := he
    simpa [nestedPieces, hk, Record.record, hget] using hsound

/-- The items of a list that conforms are written: it has no empty places for records. -/
theorem sound_itemPieces {items : List Value}
    (hv : Conforms table (.list item repetition) property.recursive (.list items))
    (he : Encodable table (.list item repetition) (.list items)) :
    ∀ piece ∈ itemPieces property item repetition items, piece.Sound table := by
  obtain _ | _ | ⟨hlength, hvalues⟩ := hv
  rcases item with target | _ | layout
  · have hplaces : placeCount repetition property.recursive items.length ≤ items.length := by
      cases repetition with
      | dynamic => exact le_rfl
      | fixed count =>
        rw [placeCount]
        split
        · exact Nat.min_le_right _ _
        · exact (hlength.2 (Bool.eq_false_of_not_eq_true ‹_›)).ge
    intro piece hpiece
    rw [itemPieces, slots_of_le hplaces, List.map_map] at hpiece
    obtain ⟨value, hmem, rfl⟩ := List.mem_map.1 hpiece
    have hitem := List.mem_of_mem_take hmem
    cases hvalues value hitem
    exact he _ hitem
  · exact List.forall_mem_nil _
  · intro piece hpiece
    obtain ⟨place, hmem, rfl⟩ := List.mem_map.1 hpiece
    cases place with
    | none => exact ⟨_, rfl⟩
    | some value =>
      cases hvalues value (mem_of_some_mem_slots hmem)
      exact ⟨_, rfl⟩

theorem Ready.sound_list (h : Ready table record property)
    (hk : property.kind = .list item repetition) :
    ∀ piece ∈ listPieces property record, piece.Sound table := by
  have hset := h.obligatory (by rw [Property.isObligatory, hk])
  obtain ⟨value, hget⟩ := Option.isSome_iff_exists.1 hset
  obtain ⟨hv, he⟩ := h.value value hget
  rw [hk] at hv he
  have hlist := hv
  cases hv
  simpa only [listPieces, hk, Record.list, hget, Option.getD_some] using sound_itemPieces hlist he

/-- **What a step writes of a ready record** has a text. -/
theorem sound_stepPieces (hm : WellMade type.properties type.steps)
    (hready : ∀ property ∈ type.properties, Ready table record property) (hs : step ∈ type.steps) :
    ∀ piece ∈ stepPieces type record step, piece.Sound table := by
  cases step with
  | field index layout =>
    obtain ⟨property, hp, huse⟩ := hm.exists_property hs rfl
    rw [stepPieces, hp, List.forall_mem_singleton]
    exact (hready property (List.mem_of_getElem? hp)).sound_field
      (PropertyKind.eq_of_field_mem_stepsAt huse) layout
  | nested index =>
    obtain ⟨property, hp, huse⟩ := hm.exists_property hs rfl
    obtain ⟨target, hk⟩ := PropertyKind.eq_of_nested_mem_stepsAt huse
    rw [stepPieces, hp]
    exact (hready property (List.mem_of_getElem? hp)).sound_nested hk
  | list index =>
    obtain ⟨property, hp, huse⟩ := hm.exists_property hs rfl
    obtain ⟨item, repetition, hk⟩ := PropertyKind.eq_of_list_mem_stepsAt huse
    rw [stepPieces, hp]
    exact (hready property (List.mem_of_getElem? hp)).sound_list hk
  | constant | padding => exact List.forall_mem_singleton.2 ⟨_, rfl⟩
  | unresolved | cycle => exact List.forall_mem_nil _

/-- **Records that conform are encoded**, and so are those in other values. -/
theorem Conforms.encodable {kind : PropertyKind} {recursive : Bool}
    (h : Conforms table kind recursive value)
    (hm : ∀ type ∈ table.types, WellMade type.properties type.steps) :
    Encodable table kind value := by
  induction h with
  | text => trivial
  | @record target type recursive fields found known values obligatory ih =>
    have hmade := hm type (List.mem_of_getElem? found)
    have hready : ∀ property ∈ type.properties, Ready table fields property := by
      refine fun property hp => ⟨fun value hget => ?_, obligatory property hp⟩
      have hmem := NameMap.mem_of_get? hget
      have hfind := hmade.property?_eq hp
      exact ⟨values _ _ _ hmem hfind, ih _ _ _ hmem hfind⟩
    have hsound : ∀ piece ∈ pieces type fields, piece.Sound table := by
      intro piece hpiece
      obtain ⟨step, hs, hstep⟩ := List.mem_flatMap.1 hpiece
      exact sound_stepPieces hmade hready hs piece hstep
    obtain ⟨out, hwrites⟩ := writes_of_sound hsound
    exact ⟨out, type, found, hwrites⟩
  | @list item _ _ items _ _ ih =>
    cases item with
    | record target => exact fun fields hmem => ih (.record fields) hmem
    | text => trivial

/-! ## Every type of every table -/

/-- **Decoding lands in the domain of the encoder.** For each type of a compiled table, what is
decoded from any text conforms to the type and is encoded without a mismatch. -/
theorem decode_conforms (registry : Registry) (id : String) (index : Nat)
    (h : index < (compile registry id).types.length) (text : List Char) :
    (∃ out, encode (compile registry id) index (decode (compile registry id) index text) =
        .ok out) ∧
      Conforms (compile registry id) (.nested index) false
        (.record (decode (compile registry id) index text)) := by
  have hrun := compiles_compile registry id
  obtain ⟨rank, hr⟩ := hrun.exists_ranked
  have hconforms := (decodes_decode hr hrun.wellMade h text).conforms hrun.wellMade
  obtain ⟨out, hencodes⟩ := hconforms.encodable hrun.wellMade
  exact ⟨⟨out, (encodes_encode hr hrun.wellMade h _).unique hencodes⟩, hconforms⟩

/-- Of a text that ends in the first field, a parcel gets the sender and the stops that it has in
any case, and can be written. -/
theorem parcel_decode_conforms :
    0 < (compile parcels "Parcel").types.length ∧
      decode (compile parcels "Parcel") 0 "P\"0".toList =
        [("sender", .record []), ("stops", .list [])] ∧
      (∃ out, encode (compile parcels "Parcel") 0
        (decode (compile parcels "Parcel") 0 "P\"0".toList) = .ok out) ∧
      Conforms (compile parcels "Parcel") (.nested 0) false
        (.record (decode (compile parcels "Parcel") 0 "P\"0".toList)) := by
  have h : 0 < (compile parcels "Parcel").types.length := by decide +kernel
  exact ⟨h, by decide +kernel, decode_conforms parcels "Parcel" 0 h _⟩

end FixedWidth.Codec
