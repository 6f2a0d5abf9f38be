import FixedWidth.Proofs.Edges
import Mathlib.Algebra.GroupWithZero.Nat

/-!
# Proofs/Width — types whose width is fixed

A type is `Rigid` if no way from it leads to a recursive property or to a dynamic list that has a
place on the wire. Its `width` is the sum of the widths of its steps (`width_eq`), with that of
an item for each place of a fixed list; it is the width of `RecordType.flatWidth?` where there is
one.
-/

namespace FixedWidth.Table

open Relation (ReflTransGen)

/-! ## Rigid types -/

/-- Whether the number of items on the wire is open: a dynamic list, unless it has texts without a
layout. -/
def PropertyKind.isOpen : PropertyKind → Bool
  | list (.record _) .dynamic | list (.text (some _)) .dynamic => true
  | text _ | nested _ | list _ _ => false

/-- The property is neither recursive nor a list with an open number of items. -/
def Property.Rigid (property : Property) : Prop :=
  property.recursive = false ∧ property.kind.isOpen = false

instance : DecidablePred Property.Rigid := fun property =>
  inferInstanceAs (Decidable (property.recursive = false ∧ property.kind.isOpen = false))

/-- **All properties of the type and of those it leads to are rigid.** -/
def Rigid (types : List RecordType) (index : Nat) : Prop :=
  ∀ owner type property, ReflTransGen (Edge types) index owner → types[owner]? = some type →
    property ∈ type.properties → property.Rigid

variable {types : List RecordType} {table : TypeTable} {type : RecordType} {property : Property}
  {index target : Nat} {rank : Nat → Nat} {widths widths' : Nat → Nat} {step : Step}

theorem rigid_of_forall (h : ∀ type ∈ types, ∀ property ∈ type.properties, property.Rigid)
    (index : Nat) : Rigid types index :=
  fun _ type property _ found hp => h type (List.mem_of_getElem? found) property hp

theorem Rigid.of_mem (h : Rigid types index) (found : types[index]? = some type)
    (hp : property ∈ type.properties) : property.Rigid :=
  h index type property .refl found hp

theorem Rigid.of_edge (h : Rigid types index) (he : Edge types index target) :
    Rigid types target :=
  fun owner type property hway => h owner type property (hway.head he)

/-! ## Widths -/

/-- The width of a property that is no text, as far as it is fixed. -/
def propertyWidth (widths : Nat → Nat) (property : Property) : Nat :=
  match property.kind with
  | .nested target => if property.recursive then 0 else widths target
  | .list (.text (some layout)) (.fixed count) => count * layout.width
  | .list (.record target) (.fixed count) =>
    if property.recursive then 0 else count * widths target
  | _ => 0

/-- The width of a step of a type, as far as it is fixed. -/
def stepWidth (widths : Nat → Nat) (type : RecordType) : Step → Nat
  | .field _ layout => layout.width
  | .constant _ width | .padding width => width
  | .nested index | .list index => (type.properties[index]?).elim 0 (propertyWidth widths)
  | .unresolved _ | .cycle _ => 0

/-- The sum of the widths of the steps of a type. -/
def stepsWidth (widths : Nat → Nat) (type : RecordType) : Nat :=
  (type.steps.map (stepWidth widths type)).sum

/-- The width of the type at an index, down to a depth of `fuel`. -/
def widthWith (table : TypeTable) : (fuel : Nat) → Nat → Nat
  | 0, _ => 0
  | fuel + 1, index =>
    match table.types[index]? with
    | some type => stepsWidth (widthWith table fuel) type
    | none => 0

/-- **The width** of the type at an index, as far as it is fixed. -/
def width (table : TypeTable) (index : Nat) : Nat := widthWith table table.types.length index

theorem propertyWidth_congr
    (h : ∀ target, property.recursive = false → property.kind.target? = some target →
      widths target = widths' target) :
    propertyWidth widths property = propertyWidth widths' property := by
  rw [propertyWidth, propertyWidth]
  split
  · rename_i target hk
    split
    · rfl
    · exact h target (Bool.eq_false_of_not_eq_true ‹_›) (by rw [hk]; rfl)
  · rfl
  · rename_i target count hk
    split
    · rfl
    · rw [h target (Bool.eq_false_of_not_eq_true ‹_›) (by rw [hk]; rfl)]
  · rfl

theorem stepsWidth_congr
    (h : ∀ property ∈ type.properties, ∀ target, property.recursive = false →
      property.kind.target? = some target → widths target = widths' target) :
    stepsWidth widths type = stepsWidth widths' type := by
  have helim : ∀ index : Nat, (type.properties[index]?).elim 0 (propertyWidth widths)
      = (type.properties[index]?).elim 0 (propertyWidth widths') := by
    intro index
    cases hp : type.properties[index]? with
    | none => rfl
    | some property => exact propertyWidth_congr (h property (List.mem_of_getElem? hp))
  rw [stepsWidth, stepsWidth]
  congr 1
  refine List.map_congr_left fun step _ => ?_
  cases step with
  | nested index | list index => exact helim index
  | field | constant | padding | unresolved | cycle => rfl

/-- The width does not depend on the fuel, above the rank. -/
theorem widthWith_congr (hr : Ranked table.types rank) (fuel fuel' : Nat)
    (hindex : index < table.types.length) (h : rank index < fuel) (h' : rank index < fuel') :
    widthWith table fuel index = widthWith table fuel' index := by
  induction fuel generalizing fuel' index with
  | zero => omega
  | succ fuel ih =>
    cases fuel' with
    | zero => omega
    | succ fuel' =>
      have found := List.getElem?_eq_getElem hindex
      rw [widthWith, widthWith, found]
      refine stepsWidth_congr fun property hp target hrec htarget => ?_
      have hlt := hr.target_lt index target ⟨_, property, found, hp, htarget⟩
      have hrank := hr.rank_lt index target ⟨_, property, found, hp, hrec, htarget⟩
      exact ih _ hlt (by omega) (by omega)

/-- **The width of a type is the sum of the widths of its steps.** -/
theorem width_eq (hr : Ranked table.types rank) (found : table.types[index]? = some type) :
    width table index = stepsWidth (width table) type := by
  have hindex := (List.getElem?_eq_some_iff.1 found).1
  have hrank := hr.rank_lt_length index hindex
  obtain ⟨fuel, hfuel⟩ : ∃ fuel, table.types.length = fuel + 1 :=
    ⟨table.types.length - 1, by omega⟩
  rw [width, hfuel, widthWith, found]
  refine stepsWidth_congr fun property hp target hrec htarget => ?_
  have hlt := hr.target_lt index target ⟨_, property, found, hp, htarget⟩
  have hdirect := hr.rank_lt index target ⟨_, property, found, hp, hrec, htarget⟩
  exact widthWith_congr hr _ _ hlt (by omega) (hr.rank_lt_length target hlt)

/-! ## Flat types -/

theorem stepWidth_eq_of_stepWidth? {w : Nat} (h : RecordType.stepWidth? step = some w) :
    stepWidth widths type step = w := by
  cases step <;> cases h <;> rfl

/-- **A flat width is the width.** -/
theorem stepsWidth_eq_of_flatWidth? {w : Nat} (h : type.flatWidth? = some w) :
    stepsWidth widths type = w := by
  have hfold : ∀ (steps : List Step) (total : Nat),
      steps.foldlM (fun total step => (RecordType.stepWidth? step).map (total + ·)) total = some w →
      total + (steps.map (stepWidth widths type)).sum = w := by
    intro steps
    induction steps with
    | nil =>
      intro total h
      simpa using h
    | cons step rest ih =>
      intro total h
      rw [List.foldlM_cons, Option.bind_eq_bind, Option.bind_eq_some_iff] at h
      obtain ⟨total', hstep, hrest⟩ := h
      obtain ⟨w', hw', rfl⟩ := Option.map_eq_some_iff.1 hstep
      rw [List.map_cons, List.sum_cons, stepWidth_eq_of_stepWidth? hw', ← ih _ hrest, Nat.add_assoc]
  have := hfold type.steps 0 h
  rwa [Nat.zero_add] at this

end FixedWidth.Table
