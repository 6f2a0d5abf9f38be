import FixedWidth.Proofs.Edges

/-!
# Proofs/Cycles — recursive properties stand on cycles

Direct edges form no cycle (`Ranked.acyclic`), and a recursive property has a way back from its
type to its owner (`Compiles.leadsBack`): its type was unfinished, and each unfinished type has a
way to the type that is being filled. `compile_cuts_cycles` has both for every compiled table.
-/

namespace FixedWidth.Table

open Naming (sanitize)
open Relation (ReflTransGen TransGen)
open Schema (Node Provenance Registry)

variable {registry : Registry} {unfinished : List Nat} {id inType : String}
  {body last : Body} {entry : Entry} {entries : List Entry} {types types' : List RecordType}
  {F : Nat → Nat → Prop}

/-! ## Edges of tables that grow -/

theorem Edge.mono {owner target : Nat} (he : Edge types owner target) (h : types <+: types') :
    Edge types' owner target := by
  obtain ⟨type, property, ht, hp⟩ := he
  obtain ⟨more, rfl⟩ := h
  have hlt := (List.getElem?_eq_some_iff.1 ht).1
  exact ⟨type, property, by rwa [List.getElem?_append_left hlt], hp⟩

/-- Finishing a type keeps the edges of the others; it had none itself. -/
theorem Edge.finish {owner target : Nat} {name : String} {place : Provenance}
    {more : List RecordType} (he : Edge (types ++ ⟨name, [], [], place⟩ :: more) owner target)
    (properties : List Property) (steps : List Step) :
    Edge (types ++ ⟨name, properties, steps, place⟩ :: more) owner target := by
  obtain ⟨type, property, ht, hp, htarget⟩ := he
  rw [getElem?_append_cons_of_ne (ne_length_of_mem_properties ht hp)] at ht
  exact ⟨type, property, ht, hp, htarget⟩

/-- The edges of a type with these properties are among those of `F`. -/
def EdgesIn (F : Nat → Nat → Prop) (owner : Nat) (properties : List Property) : Prop :=
  ∀ property ∈ properties, ∀ target, property.kind.target? = some target → F owner target

/-- **Every recursive property has a way back** from its type to its owner. -/
def LeadsBack (F : Nat → Nat → Prop) (types : List RecordType) : Prop :=
  ∀ owner type, types[owner]? = some type → ∀ property ∈ type.properties,
    property.recursive = true → ∃ target, property.kind.target? = some target ∧
      ReflTransGen F target owner

/-- A type without properties has none that are recursive. -/
theorem LeadsBack.reserve (h : LeadsBack F types) (name : String) (place : Provenance) :
    LeadsBack F (types ++ [⟨name, [], [], place⟩]) := by
  intro owner type ht property hp hrec
  exact h owner type (getElem?_of_reserve ht hp) property hp hrec

/-- A finished type refers recursively to unfinished types, which have a way to it. -/
theorem LeadsBack.finish {name : String} {place : Provenance} {more : List RecordType}
    {properties : List Property} (h : LeadsBack F (types ++ ⟨name, [], [], place⟩ :: more))
    (hu : RefersToUnfinished unfinished properties)
    (hway : ∀ index ∈ unfinished, ReflTransGen F index types.length) (steps : List Step) :
    LeadsBack F (types ++ ⟨name, properties, steps, place⟩ :: more) := by
  intro owner type ht property hp hrec
  obtain rfl | hne := eq_or_ne owner types.length
  · cases (getElem?_append_cons_self _).symm.trans ht
    obtain ⟨target, hmem, htarget⟩ := hu property hp hrec
    exact ⟨target, htarget, hway target hmem⟩
  · rw [getElem?_append_cons_of_ne hne] at ht
    exact h owner type ht property hp hrec

/-! ## Filling -/

/-- **Filling a type makes recursive properties that lead back**, along the edges of any relation
that has those of the table afterwards, and of the filled type. The ways from the unfinished types
to the filled one go on to each type that is begun. -/
theorem Fills.leadsBack {owner : Nat} (h : Fills registry unfinished inType body entries last)
    (hb : LeadsBack F body.draft.types)
    (hlast : ∀ i j, Edge last.draft.types i j → F i j) (howner : EdgesIn F owner last.properties)
    (hway : ∀ index ∈ unfinished, ReflTransGen F index owner) : LeadsBack F last.draft.types := by
  induction h generalizing owner with
  | nil => exact hb
  | plain _ _ ih | known _ _ _ ih => exact ih (by rwa [Body.types_addWith]) hlast howner hway
  | @fresh unfinished inType name node body inner last entry _ _ request _ _ fill tail ihFill ih =>
    obtain ⟨more, hinner, hresume⟩ := Body.types_resume _ _ fill.prefix_types
    have hto : ∀ i j, Edge (body.resume inner).draft.types i j → F i j := fun i j he => by
      have := tail.prefix_types
      rw [Body.types_addWith] at this
      exact hlast i j (he.mono this)
    have hbegun : F owner body.draft.types.length := by
      obtain ⟨property, hp, htarget⟩ := Body.exists_mem_addWith_of_request? request
        ⟨body.draft.types.length, false⟩ inType (body.resume inner)
      exact howner property (tail.prefix_properties.subset hp) _ htarget
    have hway' : ∀ index ∈ body.draft.types.length :: unfinished,
        ReflTransGen F index body.draft.types.length := by
      rw [List.forall_mem_cons]
      exact ⟨.refl, fun index hi => (hway index hi).tail hbegun⟩
    have hin : LeadsBack F inner.draft.types := by
      refine ihFill (hb.reserve name node.place) (fun i j he => ?_) ?_ hway'
      · rw [hinner] at he
        exact hto i j (hresume ▸ he.finish inner.properties inner.steps)
      · intro property hp target htarget
        exact hto _ _ ⟨⟨name, inner.properties, inner.steps, node.place⟩, property,
          by simp [hresume], hp, htarget⟩
    refine ih ?_ hlast howner hway
    rw [Body.types_addWith, hresume]
    rw [hinner] at hin
    have hu := fill.refersToUnfinished (by simp [RefersToUnfinished, Body.begin])
    exact hin.finish hu hway' _

/-- **Recursive properties of a compiled table lead back**, along its own edges. -/
theorem Compiles.leadsBack {table : TypeTable} (h : Compiles registry id table) :
    LeadsBack (Edge table.types) table.types := by
  have hnil {F : Nat → Nat → Prop} : LeadsBack F [] := by
    intro owner type ht
    simp at ht
  cases h with
  | missing => exact hnil
  | @found node entries body root walk fill =>
    obtain ⟨more, hbody, hfinish⟩ := fill.types_root
    rw [← List.nil_append (_ :: more)] at hbody hfinish
    have hway : ∀ index ∈ [0], ReflTransGen (Edge (body.finish 0).types) index 0 := by
      simp [ReflTransGen.refl]
    have hb : LeadsBack (Edge (body.finish 0).types) body.draft.types := by
      refine fill.leadsBack (hnil.reserve (sanitize id) node.place) (fun i j he => ?_) ?_ hway
      · rw [hbody] at he
        exact hfinish ▸ he.finish body.properties body.steps
      · intro property hp target htarget
        exact ⟨⟨sanitize id, body.properties, body.steps, node.place⟩, property, by simp [hfinish],
          hp, htarget⟩
    have hu := fill.refersToUnfinished (by simp [RefersToUnfinished, Body.begin])
    rw [hbody] at hb
    rw [hfinish] at hb ⊢
    rw [hfinish] at hway
    exact hb.finish hu hway body.steps

/-! ## Compiled tables -/

/-- **Recursive properties cut every cycle, and nothing else.** In a compiled table the direct
edges form no cycle, so that records held directly are finite, and the type of a recursive
property leads back to its owner. -/
theorem compile_cuts_cycles (registry : Registry) (id : String) :
    (∀ index, ¬ TransGen (DirectEdge (compile registry id).types) index index) ∧
      WellFounded (fun target owner => DirectEdge (compile registry id).types owner target) ∧
      ∀ owner type property, (compile registry id).types[owner]? = some type →
        property ∈ type.properties → property.recursive = true →
        ∃ target, property.kind.target? = some target ∧
          ReflTransGen (Edge (compile registry id).types) target owner := by
  have h := compiles_compile registry id
  obtain ⟨rank, hrank⟩ := h.exists_ranked
  refine ⟨hrank.acyclic, ?_, fun owner type property ht hp hrec => ?_⟩
  · exact Subrelation.wf (fun he => hrank.rank_lt _ _ he) (measure rank).wf
  · exact h.leadsBack owner type ht property hp hrec

/-- A person with a name of eight characters, who may hold another person. -/
def person : Node :=
  { Node.ofTag "record" ⟨"people.xml", 1⟩ with
    id := some "Person"
    children := [
      { Node.ofTag "fCSString" ⟨"people.xml", 2⟩ with attributes := [("dataName", "name")] },
      { Node.ofTag "stringFormatterDecor" ⟨"people.xml", 3⟩ with
        attributes := [("length", "8")] },
      { Node.ofTag "record" ⟨"people.xml", 4⟩ with attributes := [("dataName", "Person")] }] }

/-- The registry of a person alone. -/
def people : Registry := ⟨[person], ⟨[("Person", ⟨0, []⟩)], []⟩⟩

/-- A person holds a person through a recursive property, whose type leads back to it. -/
theorem person_leads_back :
    ∃ type property, (compile people "Person").types[0]? = some type ∧
      property ∈ type.properties ∧ property.recursive = true ∧
      ∃ target, property.kind.target? = some target ∧
        ReflTransGen (Edge (compile people "Person").types) target 0 := by
  have h : ∃ type ∈ (compile people "Person").types[0]?, ∃ property ∈ type.properties,
      property.recursive = true := by decide +kernel
  obtain ⟨type, ht, property, hp, hrec⟩ := h
  exact ⟨type, property, ht, hp, hrec,
    (compile_cuts_cycles people "Person").2.2 0 type property ht hp hrec⟩

end FixedWidth.Table
