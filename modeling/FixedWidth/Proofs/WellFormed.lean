import FixedWidth.Proofs.Cycles
import FixedWidth.Proofs.Members

/-!
# Proofs/WellFormed — compiled tables are well formed

The codec and the emitter follow indices without looking: from a type to the types of its
properties, and from a step to the property that it uses. `compile_wellFormed` says that every
index leads where it should. What a type has of its own comes from `WellMade` and from the widths
of bare steps; that every type but the root has an owner before it (`Fills.exists_owner`) and a name
of its own (`Fills.nodup_names`) is an induction on the filling.
-/

namespace FixedWidth.Schema

theorem width_pos_of_constantWidth? {following : List Node} {width : Nat}
    (h : constantWidth? following = some width) : 0 < width := by
  rw [constantWidth?, Option.bind_eq_some_iff] at h
  obtain ⟨decorator, -, h⟩ := h
  exact Node.width_pos_of_declaredWidth? h

end FixedWidth.Schema

namespace FixedWidth.Table

open Naming (sanitize)
open Schema (Node Provenance Registry)

variable {registry : Registry} {unfinished : List Nat} {id inType : String}
  {body last : Body} {entry : Entry} {entries : List Entry} {types types' : List RecordType}
  {table : TypeTable} {F : Nat → Nat → Prop}

/-! ## Steps without a property -/

/-- The width that a step has of its own. -/
def Step.width? : Step → Option Nat
  | field _ layout => some layout.width
  | constant _ width | padding width => some width
  | nested _ | list _ | unresolved _ | cycle _ => none

/-- The step without a property that the entry adds is not empty. -/
def Entry.BarePos (entry : Entry) : Prop :=
  ∀ step ∈ entry.bareStep?, ∀ width ∈ step.width?, 0 < width

theorem barePos_of_partOf {repetition : Option Repetition} {following : List Node} {node : Node}
    {list : List Entry} (hp : partOf registry repetition following node = .entries list) :
    ∀ entry ∈ list, entry.BarePos := by
  intro entry hentry step hstep width hwidth
  obtain ⟨name, -, rfl⟩ | ⟨name, -, -, rfl⟩ | ⟨name, rfl⟩ | ⟨constant, hc, rfl⟩ | hpad :=
    mem_of_partOf hp hentry
  · cases hstep
  · rw [itemsOf] at hstep
    split at hstep
    · split at hstep <;> cases hstep
    · cases hstep
    · cases hstep
      cases hwidth
  · cases hstep
  · cases hstep
    cases hwidth
    exact Schema.width_pos_of_constantWidth? hc
  · obtain ⟨padding, hpos, rfl⟩ | ⟨raw, rfl⟩ := eq_of_mem_paddingEntries hpad
    · cases hstep
      cases hwidth
      exact hpos
    · cases hstep

theorem Walks.barePos {splicing : List String} {repetition : Option Repetition}
    {nodes : List Node} (h : Walks registry splicing repetition nodes entries) :
    ∀ entry ∈ entries, entry.BarePos :=
  h.forall_entries (Q := fun _ => True) (fun _ _ => trivial) (fun _ _ _ _ => trivial)
    (fun _ _ _ => trivial) (fun _ _ _ _ _ hp => barePos_of_partOf hp)
    (fun _ _ _ hstep _ hwidth => by cases hstep; cases hwidth)
    (fun _ _ _ hstep _ hwidth => by cases hstep; cases hwidth)

/-- The steps without a property are not empty. -/
def BareStepsPos (steps : List Step) : Prop :=
  ∀ step ∈ steps, step.property? = none → ∀ width ∈ step.width?, 0 < width

theorem BareStepsPos.addWith (h : BareStepsPos body.steps) (hentry : entry.BarePos)
    (type : TypeRef) (inType : String) : BareStepsPos (body.addWith type inType entry).steps := by
  intro step hmem hbare width hwidth
  rw [Body.steps_addWith, List.mem_append, List.mem_append] at hmem
  rcases hmem with (hold | hadded) | huse
  · exact h step hold hbare width hwidth
  · exact hentry step (Option.mem_toList.1 hadded) width hwidth
  · cases hm : entry.member? type with
    | none => simp [hm] at huse
    | some m =>
      rw [hm, Option.map_some, Option.getD_some] at huse
      rw [PropertyKind.property?_of_mem_stepsAt huse] at hbare
      cases hbare

/-- **No compiled type has an empty constant or padding.** -/
theorem Compiles.bareStepsPos (h : Compiles registry id table) :
    ∀ type ∈ table.types, BareStepsPos type.steps := by
  have inv : Invariant registry (fun _ _ => True) Entry.BarePos
      (fun _ _ steps => BareStepsPos steps) (fun type => BareStepsPos type.steps) := {
    request := fun _ _ _ _ _ => trivial
    walk := fun _ _ _ _ walk => walk.barePos
    empty := nofun
    add := fun type inType _ _ hentry hb => hb.addWith hentry type inType
    type := fun _ _ _ _ _ _ hb => hb }
  exact h.forall_types inv fun _ _ => trivial

/-! ## Names of types -/

/-- **Filling gives no name twice.** -/
theorem Fills.nodup_names (h : Fills registry unfinished inType body entries last)
    (hn : (body.draft.types.map (·.name)).Nodup) : (last.draft.types.map (·.name)).Nodup := by
  induction h with
  | nil => exact hn
  | plain _ _ ih | known _ _ _ ih => exact ih (by rwa [Body.types_addWith])
  | @fresh _ _ name node body inner _ _ _ _ _ absent _ fill _ ihFill ih =>
    obtain ⟨more, hinner, hresume⟩ := Body.types_resume _ _ fill.prefix_types
    have hbegun : ((body.draft.reserve name node.place).types.map (·.name)).Nodup := by
      rw [Draft.reserve, List.map_append, List.nodup_append_comm]
      exact List.nodup_cons.2 ⟨Draft.find?_eq_none_iff.1 absent, hn⟩
    have hnames := ihFill hbegun
    rw [hinner] at hnames
    refine ih ?_
    rw [Body.types_addWith, hresume]
    simpa using hnames

/-- **No two types of a table have one name.** -/
theorem Compiles.nodup_names (h : Compiles registry id table) :
    (table.types.map (·.name)).Nodup := by
  cases h with
  | missing => exact List.nodup_nil
  | found root walk fill =>
    obtain ⟨more, hbody, hfinish⟩ := fill.types_root
    have hnames := fill.nodup_names (List.nodup_singleton _)
    rw [hbody] at hnames
    rw [hfinish]
    simpa using hnames

/-- Where names differ, a type is found by its name. -/
theorem TypeTable.find?_name (h : (table.types.map (·.name)).Nodup) {index : Nat}
    {type : RecordType} (found : table.types[index]? = some type) :
    table.find? type.name = some index := by
  obtain ⟨hlt, heq⟩ := List.getElem?_eq_some_iff.1 found
  refine List.findIdx?_eq_some_iff_getElem.2 ⟨hlt, by simp [heq], fun earlier hlt' hname => ?_⟩
  have hearlier := List.getElem?_eq_getElem (hlt'.trans hlt)
  exact hlt'.ne (index_eq_of_nodup h hearlier found (by simpa using hname))

/-! ## Owners -/

theorem DirectEdge.mono {owner target : Nat} (he : DirectEdge types owner target)
    (h : types <+: types') : DirectEdge types' owner target := by
  obtain ⟨type, property, ht, hp⟩ := he
  obtain ⟨more, rfl⟩ := h
  have hlt := (List.getElem?_eq_some_iff.1 ht).1
  exact ⟨type, property, by rwa [List.getElem?_append_left hlt], hp⟩

/-- Finishing a type keeps the direct edges of the others; it had none itself. -/
theorem DirectEdge.finish {owner target : Nat} {name : String} {place : Provenance}
    {more : List RecordType}
    (he : DirectEdge (types ++ ⟨name, [], [], place⟩ :: more) owner target)
    (properties : List Property) (steps : List Step) :
    DirectEdge (types ++ ⟨name, properties, steps, place⟩ :: more) owner target := by
  obtain ⟨type, property, ht, hp, hdirect⟩ := he
  rw [getElem?_append_cons_of_ne (ne_length_of_mem_properties ht hp)] at ht
  exact ⟨type, property, ht, hp, hdirect⟩

/-- The direct edges of a type with these properties are among those of `F`. -/
def DirectEdgesIn (F : Nat → Nat → Prop) (owner : Nat) (properties : List Property) : Prop :=
  ∀ property ∈ properties, property.recursive = false →
    ∀ target, property.kind.target? = some target → F owner target

/-- An entry that had its type made adds a property that refers to it directly. -/
theorem Body.exists_direct_mem_addWith {request : String × Node}
    (h : entry.request? = some request) (index : Nat) (inType : String) (body : Body) :
    ∃ property ∈ (body.addWith ⟨index, false⟩ inType entry).properties,
      property.recursive = false ∧ property.kind.target? = some index := by
  obtain ⟨m, hm, hrec, htarget⟩ := Entry.member?_of_request? h ⟨index, false⟩
  refine ⟨⟨body.scope.grant m.base, m.kind, m.recursive, m.place⟩, ?_, hrec, htarget⟩
  rw [properties_addWith, hm]
  simp

/-- **A type that filling begins has an owner before it**: the type whose entry asked for it. As
with ways back, `F` has the edges of the table afterwards and of the filled type. -/
theorem Fills.exists_owner (owner : Nat) (h : Fills registry unfinished inType body entries last)
    (hlast : ∀ i j, DirectEdge last.draft.types i j → F i j)
    (howner : DirectEdgesIn F owner last.properties) (hlt : owner < body.draft.types.length)
    (index : Nat) (hbegun : body.draft.types.length ≤ index)
    (hindex : index < last.draft.types.length) : ∃ i < index, F i index := by
  induction h generalizing owner index with
  | nil => omega
  | plain _ _ ih | known _ _ _ ih =>
    exact ih owner hlast howner (by rwa [Body.types_addWith]) index (by rwa [Body.types_addWith])
      hindex
  | @fresh unfinished inType name node body inner last entry _ _ request _ _ fill tail ihFill ih =>
    obtain ⟨more, hinner, hresume⟩ := Body.types_resume _ _ fill.prefix_types
    have hto : ∀ i j, DirectEdge (body.resume inner).draft.types i j → F i j := fun i j he => by
      have := tail.prefix_types
      rw [Body.types_addWith] at this
      exact hlast i j (he.mono this)
    have hlength : (body.resume inner).draft.types.length = inner.draft.types.length := by
      rw [hinner, hresume]
      simp
    obtain rfl | hne := eq_or_ne index body.draft.types.length
    · obtain ⟨property, hp, hrec, htarget⟩ := Body.exists_direct_mem_addWith request
        body.draft.types.length inType (body.resume inner)
      exact ⟨owner, hlt, howner property (tail.prefix_properties.subset hp) hrec _ htarget⟩
    obtain hin | hout := Nat.lt_or_ge index inner.draft.types.length
    · refine ihFill body.draft.types.length (fun i j he => ?_) ?_ (by simp [Body.begin,
        Draft.reserve]) index (by simp [Body.begin, Draft.reserve]; omega) hin
      · rw [hinner] at he
        exact hto i j (hresume ▸ he.finish inner.properties inner.steps)
      · intro property hp hrec target htarget
        exact hto _ _ ⟨⟨name, inner.properties, inner.steps, node.place⟩, property,
          by simp [hresume], hp, hrec, htarget⟩
    · refine ih owner hlast howner ?_ index ?_ hindex
      · rw [Body.types_addWith, hresume, List.length_append]
        omega
      · rw [Body.types_addWith, hlength]
        exact hout

/-- **Every type but the root has an owner before it.** -/
theorem Compiles.exists_owner (h : Compiles registry id table) (index : Nat) (hpos : 0 < index)
    (hindex : index < table.types.length) :
    ∃ owner < index, DirectEdge table.types owner index := by
  cases h with
  | missing => simp at hindex
  | @found node entries body root walk fill =>
    obtain ⟨more, hbody, hfinish⟩ := fill.types_root
    have hlength : (body.finish 0).types.length = body.draft.types.length := by
      rw [hbody, hfinish]
      simp
    refine fill.exists_owner 0 (fun i j he => ?_) ?_ (by simp [Body.begin,
      Draft.reserve]) index (by simp [Body.begin, Draft.reserve, Draft.empty]; omega)
      (hlength ▸ hindex)
    · rw [hbody, ← List.nil_append (_ :: more)] at he
      rw [hfinish]
      exact he.finish body.properties body.steps
    · intro property hp hrec target htarget
      exact ⟨⟨sanitize id, body.properties, body.steps, node.place⟩, property, by simp [hfinish],
        hp, hrec, htarget⟩

/-! ## Well-formed tables -/

/-- Whether a property brings a step along: only a text without a layout does not. -/
def PropertyKind.hasStep : PropertyKind → Bool
  | text none => false
  | text (some _) | nested _ | list _ _ => true

/-- **The steps of a type fit its properties.** -/
structure RecordType.WellFormed (type : RecordType) : Prop where
  names_nodup : (type.properties.map (·.name)).Nodup
  /-- One step for each property that has one, in the order of the properties, and no other. -/
  uses_eq : type.steps.filterMap (·.property?) =
    (type.properties.zipIdx.filter (·.1.kind.hasStep)).map Prod.snd
  field_fits : ∀ index layout, .field index layout ∈ type.steps →
    ∃ property, type.properties[index]? = some property ∧ property.kind = .text (some layout)
  nested_fits : ∀ index, .nested index ∈ type.steps →
    ∃ property target, type.properties[index]? = some property ∧ property.kind = .nested target
  list_fits : ∀ index, .list index ∈ type.steps → ∃ property item repetition,
    type.properties[index]? = some property ∧ property.kind = .list item repetition
  /-- Only properties with records are recursive. -/
  recursive_fits : ∀ property ∈ type.properties, property.recursive = true →
    ∃ target, property.kind.target? = some target
  layout_pos : ∀ property ∈ type.properties, ∀ layout, property.kind.layout? = some layout →
    1 ≤ layout.width
  step_pos : ∀ step ∈ type.steps, ∀ width, step.width? = some width → 1 ≤ width

/-- **Every index of a table leads where it should.** -/
structure TypeTable.WellFormed (table : TypeTable) : Prop where
  names_nodup : (table.types.map (·.name)).Nodup
  find?_eq : ∀ index type, table.types[index]? = some type → table.find? type.name = some index
  root_eq : table.root = some 0
  root_lt : 0 < table.types.length
  /-- Every type but the root belongs to an earlier one. -/
  owned : ∀ index, 0 < index → index < table.types.length →
    ∃ owner < index, DirectEdge table.types owner index
  target_lt : ∀ owner target, Edge table.types owner target → target < table.types.length
  types_wellFormed : ∀ type ∈ table.types, type.WellFormed

theorem PropertyKind.filterMap_stepsAt (kind : PropertyKind) (index : Nat) :
    (kind.stepsAt index).filterMap (·.property?) = if kind.hasStep then [index] else [] := by
  cases kind with
  | text layout => cases layout <;> rfl
  | nested | list => rfl

/-- The steps that use a property are used in the order of the properties. -/
theorem WellMade.filterMap_property? {properties : List Property} {steps : List Step}
    (h : WellMade properties steps) : steps.filterMap (·.property?) =
      (properties.zipIdx.filter (·.1.kind.hasStep)).map Prod.snd := by
  have hfilter : steps.filterMap (·.property?) =
      (steps.filter (·.property?.isSome)).filterMap (·.property?) := by
    rw [List.filterMap_filter]
    refine List.filterMap_congr fun step _ => ?_
    cases step.property? <;> rfl
  rw [hfilter, h.uses_eq, List.filterMap_flatMap]
  induction properties.zipIdx with
  | nil => rfl
  | cons entry rest ih =>
    rw [List.flatMap_cons, ih, PropertyKind.filterMap_stepsAt, List.filter_cons]
    split <;> rfl

/-- No property is used twice. -/
theorem WellMade.nodup_uses {properties : List Property} {steps : List Step}
    (h : WellMade properties steps) : (steps.filterMap (·.property?)).Nodup := by
  rw [h.filterMap_property?]
  refine List.Nodup.sublist (List.filter_sublist.map _) ?_
  rw [List.zipIdx_map_snd]
  exact List.nodup_range'

/-- **The types of a compiled table are well formed.** -/
theorem Compiles.wellFormed_of_mem (h : Compiles registry id table) {type : RecordType}
    (hmem : type ∈ table.types) : type.WellFormed := by
  have hm := h.wellMade type hmem
  refine ⟨hm.nodup_names, hm.filterMap_property?, fun index layout hs => ?_, fun index hs => ?_,
    fun index hs => ?_, fun property hp hrec => ?_, hm.layout_pos, fun step hs width hwidth => ?_⟩
  · obtain ⟨property, hp, huse⟩ := hm.exists_property hs rfl
    exact ⟨property, hp, PropertyKind.eq_of_field_mem_stepsAt huse⟩
  · obtain ⟨property, hp, huse⟩ := hm.exists_property hs rfl
    obtain ⟨target, hk⟩ := PropertyKind.eq_of_nested_mem_stepsAt huse
    exact ⟨property, target, hp, hk⟩
  · obtain ⟨property, hp, huse⟩ := hm.exists_property hs rfl
    obtain ⟨item, repetition, hk⟩ := PropertyKind.eq_of_list_mem_stepsAt huse
    exact ⟨property, item, repetition, hp, hk⟩
  · obtain ⟨owner, found⟩ := List.mem_iff_getElem?.1 hmem
    obtain ⟨target, htarget, -⟩ := h.leadsBack owner type found property hp hrec
    exact ⟨target, htarget⟩
  · cases hproperty : step.property? with
    | none => exact h.bareStepsPos type hmem step hs hproperty width hwidth
    | some index =>
      obtain ⟨property, hp, huse⟩ := hm.exists_property hs hproperty
      cases step with
      | field index layout =>
        have hk := PropertyKind.eq_of_field_mem_stepsAt huse
        cases hwidth
        exact hm.layout_pos property (List.mem_of_getElem? hp) layout (by rw [hk]; rfl)
      | nested | list => cases hwidth
      | constant | padding | unresolved | cycle => cases hproperty

/-- The type of a registered root is the first one. -/
theorem Compiles.root_of_lookup? (h : Compiles registry id table)
    (hroot : (registry.lookup? id).isSome) : table.root = some 0 ∧ 0 < table.types.length := by
  cases h with
  | missing absent => simp [absent] at hroot
  | found root walk fill =>
    obtain ⟨more, -, hfinish⟩ := fill.types_root
    exact ⟨rfl, by simp [hfinish]⟩

/-- **The table of a registered root is well formed.** -/
theorem compile_wellFormed (registry : Registry) (id : String)
    (h : (registry.lookup? id).isSome) : (compile registry id).WellFormed := by
  have hrun := compiles_compile registry id
  obtain ⟨rank, hr⟩ := hrun.exists_ranked
  obtain ⟨hroot, hlt⟩ := hrun.root_of_lookup? h
  exact ⟨hrun.nodup_names, fun index type found => TypeTable.find?_name hrun.nodup_names found,
    hroot, hlt, hrun.exists_owner, hr.target_lt, fun type hmem => hrun.wellFormed_of_mem hmem⟩

/-- A parcel has a literal, a number, a gap, a remark of no width, a sender with a name, any number
of stops, and perhaps a parcel inside. -/
def parcelNode : Node :=
  { Node.ofTag "record" ⟨"parcels.xml", 1⟩ with
    id := some "Parcel"
    children := [
      { Node.ofTag "constant" ⟨"parcels.xml", 2⟩ with attributes := [("value", "P\"")] },
      { Node.ofTag "stringFormatterDecor" ⟨"parcels.xml", 3⟩ with
        attributes := [("length", "2")] },
      { Node.ofTag "fCSString" ⟨"parcels.xml", 4⟩ with attributes := [("dataName", "type")] },
      { Node.ofTag "numericFormatterDecor" ⟨"parcels.xml", 5⟩ with
        attributes := [("length", "4")] },
      { Node.ofTag "fixedLength" ⟨"parcels.xml", 6⟩ with attributes := [("length", "1")] },
      { Node.ofTag "fCSString" ⟨"parcels.xml", 7⟩ with attributes := [("dataName", "remark")] },
      { Node.ofTag "record" ⟨"parcels.xml", 8⟩ with
        attributes := [("dataName", "sender")]
        children := [
          { Node.ofTag "fCSString" ⟨"parcels.xml", 9⟩ with attributes := [("dataName", "name")] },
          { Node.ofTag "stringFormatterDecor" ⟨"parcels.xml", 10⟩ with
            attributes := [("length", "5")] }] },
      { Node.ofTag "record" ⟨"parcels.xml", 11⟩ with attributes := [("dataName", "Parcel")] },
      { Node.ofTag "fCSList" ⟨"parcels.xml", 12⟩ with
        attributes := [("dataName", "stops"), ("times", "*")]
        children := [
          { Node.ofTag "record" ⟨"parcels.xml", 13⟩ with
            children := [
              { Node.ofTag "fCSString" ⟨"parcels.xml", 14⟩ with
                attributes := [("dataName", "town")] },
              { Node.ofTag "stringFormatterDecor" ⟨"parcels.xml", 15⟩ with
                attributes := [("length", "3")] }] }] }] }

/-- The registry of a parcel alone. -/
def parcels : Registry := ⟨[parcelNode], ⟨[("Parcel", ⟨0, []⟩)], []⟩⟩

/-- The table of a parcel has three types, and leads everywhere where it should. -/
theorem parcel_wellFormed :
    (parcels.lookup? "Parcel").isSome ∧
      (compile parcels "Parcel").names = ["Parcel", "sender", "stopsItem"] ∧
      (compile parcels "Parcel").WellFormed := by
  have h : (parcels.lookup? "Parcel").isSome := by decide +kernel
  exact ⟨h, by decide +kernel, compile_wellFormed parcels "Parcel" h⟩

end FixedWidth.Table
