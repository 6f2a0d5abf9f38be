import FixedWidth.Proofs.FreeNames
import FixedWidth.Proofs.TypeNames

/-!
# Proofs/Members — properties and the steps that use them

In a compiled type no two properties have one name, each property is used by the steps it brought
along and by no others, and texts have layouts of a positive width (`WellMade`). Filling adds one
entry after the other, and each of them keeps this (`Compiles.wellMade`).
-/

namespace FixedWidth.Schema

theorem Node.width_pos_of_declaredWidth? {decorator : Node} {width : Nat}
    (h : decorator.declaredWidth? = some width) : 0 < width := by
  simp only [declaredWidth?, Option.bind_eq_bind, Option.bind_eq_some_iff] at h
  obtain ⟨raw, -, parsed, -, hparsed⟩ := h
  split at hparsed
  · cases hparsed
  · cases hparsed
    exact Nat.pos_of_ne_zero ‹_›

theorem Node.width_pos_of_declaredLayout? {decorator : Node} {layout : Layout}
    (h : decorator.declaredLayout? = some layout) : 0 < layout.width := by
  rw [declaredLayout?, Option.map_eq_some_iff] at h
  obtain ⟨width, hwidth, rfl⟩ := h
  have hpos := width_pos_of_declaredWidth? hwidth
  split <;> exact hpos

theorem width_pos_of_fieldLayout? {following : List Node} {layout : Layout}
    (h : fieldLayout? following = some layout) : 0 < layout.width := by
  rw [fieldLayout?, Option.bind_eq_some_iff] at h
  obtain ⟨decorator, -, h⟩ := h
  exact Node.width_pos_of_declaredLayout? h

theorem width_pos_of_itemLayout? {children : List Node} {layout : Layout}
    (h : itemLayout? children = some layout) : 0 < layout.width := by
  rw [itemLayout?, Option.bind_eq_some_iff] at h
  obtain ⟨decorator, -, h⟩ := h
  exact Node.width_pos_of_declaredLayout? h

end FixedWidth.Schema

namespace FixedWidth.Table

open Schema (Node Registry)

/-! ## Layouts of texts -/

/-- The layout of the texts that a property holds. -/
def PropertyKind.layout? : PropertyKind → Option Layout
  | text layout | list (.text layout) _ => layout
  | nested _ | list (.record _) _ => none

/-- The property that the entry adds has no layout without a width. -/
def Entry.LayoutPos (entry : Entry) : Prop :=
  ∀ type m layout, entry.member? type = some m → m.kind.layout? = some layout → 0 < layout.width

variable {registry : Registry} {id : String} {properties : List Property} {steps : List Step}
  {entry : Entry}

theorem layoutPos_of_member?_none (h : ∀ type, entry.member? type = none) : entry.LayoutPos := by
  intro type m layout hm
  simp [h] at hm

theorem layoutPos_of_partOf {repetition : Option Repetition} {following : List Node} {node : Node}
    {list : List Entry} (hp : partOf registry repetition following node = .entries list) :
    ∀ entry ∈ list, entry.LayoutPos := by
  intro entry hentry
  obtain ⟨name, -, rfl⟩ | ⟨name, -, -, rfl⟩ | ⟨name, rfl⟩ | ⟨width, -, rfl⟩ | hpad :=
    mem_of_partOf hp hentry
  · rintro type m layout hm hlayout
    cases repetition <;> cases hm <;> cases hlayout
  · rintro type m layout hm hlayout
    rw [itemsOf] at hm
    split at hm
    · split at hm <;> cases hm <;> cases hlayout
    · cases hm
      exact Schema.width_pos_of_itemLayout? hlayout
    · cases hm
      cases hlayout
  · rintro type m layout hm hlayout
    cases hm
    exact Schema.width_pos_of_fieldLayout? hlayout
  · exact layoutPos_of_member?_none fun _ => rfl
  · obtain ⟨width, -, rfl⟩ | ⟨raw, rfl⟩ := eq_of_mem_paddingEntries hpad <;>
      exact layoutPos_of_member?_none fun _ => rfl

/-- **Walks meet no layout without a width.** -/
theorem Walks.layoutPos {splicing : List String} {repetition : Option Repetition}
    {nodes : List Node} {entries : List Entry}
    (h : Walks registry splicing repetition nodes entries) : ∀ entry ∈ entries, entry.LayoutPos :=
  h.forall_entries (Q := fun _ => True) (fun _ _ => trivial) (fun _ _ _ _ => trivial)
    (fun _ _ _ => trivial) (fun _ _ _ _ _ hp => layoutPos_of_partOf hp)
    (fun _ _ => layoutPos_of_member?_none fun _ => rfl)
    (fun _ _ => layoutPos_of_member?_none fun _ => rfl)

/-! ## Members that fit together -/

/-- **Properties and steps of one type fit together.** -/
structure WellMade (properties : List Property) (steps : List Step) : Prop where
  nodup_names : (properties.map (·.name)).Nodup
  uses_eq : steps.filter (·.property?.isSome) =
    properties.zipIdx.flatMap fun (property, index) => property.kind.stepsAt index
  layout_pos : ∀ property ∈ properties, ∀ layout, property.kind.layout? = some layout →
    0 < layout.width

theorem PropertyKind.property?_of_mem_stepsAt {kind : PropertyKind} {index : Nat} {step : Step}
    (h : step ∈ kind.stepsAt index) : step.property? = some index := by
  cases kind with
  | text layout =>
    obtain ⟨layout, -, rfl⟩ := List.mem_map.1 h
    rfl
  | nested | list =>
    obtain rfl := List.mem_singleton.1 h
    rfl

theorem PropertyKind.eq_of_field_mem_stepsAt {kind : PropertyKind} {index index' : Nat}
    {layout : Layout} (h : .field index layout ∈ kind.stepsAt index') :
    kind = .text (some layout) := by
  cases kind with
  | text layout' =>
    obtain ⟨layout'', hl, hfield⟩ := List.mem_map.1 h
    cases hfield
    rw [Option.mem_toList.1 hl]
  | nested | list => cases List.mem_singleton.1 h

theorem PropertyKind.eq_of_nested_mem_stepsAt {kind : PropertyKind} {index index' : Nat}
    (h : .nested index ∈ kind.stepsAt index') : ∃ target, kind = .nested target := by
  cases kind with
  | text layout =>
    obtain ⟨_, -, hnested⟩ := List.mem_map.1 h
    cases hnested
  | nested target => exact ⟨target, rfl⟩
  | list => cases List.mem_singleton.1 h

theorem PropertyKind.eq_of_list_mem_stepsAt {kind : PropertyKind} {index index' : Nat}
    (h : .list index ∈ kind.stepsAt index') :
    ∃ item repetition, kind = .list item repetition := by
  cases kind with
  | text layout =>
    obtain ⟨_, -, hlist⟩ := List.mem_map.1 h
    cases hlist
  | nested => cases List.mem_singleton.1 h
  | list item repetition => exact ⟨item, repetition, rfl⟩

theorem Entry.property?_of_mem_bareStep? {step : Step} (h : step ∈ entry.bareStep?.toList) :
    step.property? = none := by
  cases entry with
  | list _ items => cases items <;> simp [bareStep?] at h; rw [h]; rfl
  | _ => simp [bareStep?] at h <;> rw [h] <;> rfl

/-- The property of a step is one that brought it along. -/
theorem WellMade.exists_property {step : Step} {index : Nat} (h : WellMade properties steps)
    (hs : step ∈ steps) (hp : step.property? = some index) :
    ∃ property, properties[index]? = some property ∧ step ∈ property.kind.stepsAt index := by
  have hmem : step ∈ steps.filter (·.property?.isSome) :=
    List.mem_filter.2 ⟨hs, by simp [hp]⟩
  rw [h.uses_eq] at hmem
  obtain ⟨⟨property, i⟩, hi, hstep⟩ := List.mem_flatMap.1 hmem
  obtain rfl : i = index := by
    have := PropertyKind.property?_of_mem_stepsAt hstep
    rw [hp, Option.some.injEq] at this
    exact this.symm
  exact ⟨property, List.mem_zipIdx_iff_getElem?.1 hi, hstep⟩

/-- The steps that a property brought along are there. -/
theorem WellMade.mem_steps {property : Property} {index : Nat} {step : Step}
    (h : WellMade properties steps) (hp : properties[index]? = some property)
    (hs : step ∈ property.kind.stepsAt index) : step ∈ steps := by
  have hmem : step ∈ steps.filter (·.property?.isSome) := by
    rw [h.uses_eq]
    exact List.mem_flatMap.2 ⟨(property, index), List.mem_zipIdx_iff_getElem?.2 hp, hs⟩
  exact List.mem_of_mem_filter hmem

/-- Where the names differ, each element is found by its name. -/
theorem find?_eq_of_nodup {α : Type} {nameOf : α → String} {list : List α}
    (h : (list.map nameOf).Nodup) {a : α} (hmem : a ∈ list) :
    list.find? (nameOf · == nameOf a) = some a := by
  cases hfind : list.find? (nameOf · == nameOf a) with
  | none =>
    have := List.find?_eq_none.1 hfind a hmem
    simp at this
  | some other =>
    have hname : nameOf other = nameOf a := by simpa using List.find?_some hfind
    rw [List.inj_on_of_nodup_map h (List.mem_of_find?_eq_some hfind) hmem hname]

/-- Where the names differ, each of them stands at one index. -/
theorem index_eq_of_nodup {α : Type} {nameOf : α → String} {list : List α}
    (h : (list.map nameOf).Nodup) {i j : Nat} {a b : α} (ha : list[i]? = some a)
    (hb : list[j]? = some b) (hname : nameOf a = nameOf b) : i = j := by
  have hlt : i < (list.map nameOf).length := by
    simpa using (List.getElem?_eq_some_iff.1 ha).1
  exact (List.getElem?_inj hlt h).1 (by simp [ha, hb, hname])

/-- The property that a step of a type uses. -/
def RecordType.stepProperty? (type : RecordType) (step : Step) : Option Property :=
  step.property?.bind (type.properties[·]?)

theorem RecordType.mem_of_stepProperty? {type : RecordType} {step : Step} {property : Property}
    (h : type.stepProperty? step = some property) : property ∈ type.properties := by
  obtain ⟨index, -, hp⟩ := Option.bind_eq_some_iff.1 h
  exact List.mem_of_getElem? hp

/-- A property is found by its name. -/
theorem WellMade.property?_eq {type : RecordType} {property : Property}
    (h : WellMade type.properties type.steps) (hp : property ∈ type.properties) :
    type.property? property.name = some property :=
  find?_eq_of_nodup h.nodup_names hp

theorem filter_bareStep? (entry : Entry) :
    entry.bareStep?.toList.filter (·.property?.isSome) = [] :=
  List.filter_eq_nil_iff.2 fun step hs => by simp [Entry.property?_of_mem_bareStep? hs]

theorem filter_stepsAt (kind : PropertyKind) (index : Nat) :
    (kind.stepsAt index).filter (·.property?.isSome) = kind.stepsAt index :=
  List.filter_eq_self.2 fun step hs => by simp [PropertyKind.property?_of_mem_stepsAt hs]

/-- A property under a name of its own is added with the steps that use it. -/
theorem WellMade.append {property : Property} {bare : List Step} (h : WellMade properties steps)
    (hname : property.name ∉ properties.map (·.name))
    (hlayout : ∀ layout, property.kind.layout? = some layout → 0 < layout.width)
    (hbare : bare.filter (·.property?.isSome) = []) :
    WellMade (properties ++ [property])
      (steps ++ bare ++ property.kind.stepsAt properties.length) where
  nodup_names := by
    rw [List.map_append, List.nodup_append_comm, List.map_singleton, List.singleton_append,
      List.nodup_cons]
    exact ⟨hname, h.nodup_names⟩
  uses_eq := by
    rw [List.filter_append, List.filter_append, hbare, filter_stepsAt, List.append_nil, h.uses_eq,
      List.zipIdx_append, List.flatMap_append]
    simp
  layout_pos := by
    rw [List.forall_mem_append, List.forall_mem_singleton]
    exact ⟨h.layout_pos, hlayout⟩

/-- **An entry adds a property under a free name, with the steps that use it.** -/
theorem WellMade.addWith {body : Body} (h : WellMade body.properties body.steps)
    (hused : ∀ property ∈ body.properties, property.name ∈ body.scope.used)
    (hentry : entry.LayoutPos) (type : TypeRef) (inType : String) :
    WellMade (body.addWith type inType entry).properties (body.addWith type inType entry).steps ∧
      ∀ property ∈ (body.addWith type inType entry).properties,
        property.name ∈ (body.addWith type inType entry).scope.used := by
  rw [Body.properties_addWith, Body.steps_addWith, Body.scope_addWith]
  cases hm : entry.member? type with
  | none =>
    simp only [Option.map_none, Option.toList_none, List.append_nil, Option.getD_none]
    refine ⟨⟨h.nodup_names, ?_, h.layout_pos⟩, hused⟩
    rw [List.filter_append, filter_bareStep?, List.append_nil, h.uses_eq]
  | some m =>
    simp only [Option.map_some, Option.toList_some, Option.getD_some]
    refine ⟨h.append (fun hmem => ?_) (fun layout hl => hentry type m layout hm hl)
      (filter_bareStep? entry), ?_⟩
    · obtain ⟨property, hp, hname⟩ := List.mem_map.1 hmem
      have := hused property hp
      rw [hname] at this
      exact body.scope.grant_notMem m.base this
    · rw [List.forall_mem_append, List.forall_mem_singleton]
      exact ⟨fun property hp => List.mem_cons_of_mem _ (hused property hp), List.mem_cons_self⟩

/-- **Compiled types are well made.** -/
theorem Compiles.wellMade {table : TypeTable} (h : Compiles registry id table) :
    ∀ type ∈ table.types, WellMade type.properties type.steps := by
  have inv : Invariant registry (fun _ _ => True) Entry.LayoutPos
      (fun scope properties steps => WellMade properties steps ∧
        ∀ property ∈ properties, property.name ∈ scope.used)
      (fun type => WellMade type.properties type.steps) := {
    request := fun _ _ _ _ _ => trivial
    walk := fun _ _ _ _ walk => walk.layoutPos
    empty := ⟨⟨List.nodup_nil, rfl, nofun⟩, nofun⟩
    add := fun type inType _ _ hentry hb => hb.1.addWith hb.2 hentry type inType
    type := fun _ _ _ _ _ _ hb => hb.1 }
  exact h.forall_types inv fun _ _ => trivial

end FixedWidth.Table
