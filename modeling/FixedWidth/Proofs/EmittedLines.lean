import FixedWidth.Proofs.DecoderSource
import FixedWidth.Proofs.EmittedTypes
import FixedWidth.Proofs.EncoderSource

/-!
# Proofs/EmittedLines — emitted routines are what their lines say

    type ──ofType──▸ routine ──lines──▸ emitted source ──reader──▸ routine

The lines of an emitted routine are read back as the routine (`encodeRoutine?_ofType`,
`decodeRoutine?_ofType`), since what emitted source calls its fields and types are identifiers.
-/

namespace FixedWidth.Naming

open Emit (isIdentifierChar)
open Emit.TextReader (IsPlain)

theorem isPlain_numbered {base : String} (h : IsPlain base) (k : Nat) :
    IsPlain (numbered base k) := by
  refine ⟨by simp [toList_numbered], fun c hc => ?_⟩
  rw [toList_numbered, List.mem_append, List.mem_cons] at hc
  obtain hc | rfl | hc := hc
  · exact h.chars c hc
  · rfl
  · have hdigit := isDigit_of_mem_toDigits hc
    have hcode : 48 ≤ c.toNat ∧ c.toNat ≤ 57 := Char.isDigit_iff_toNat.1 hdigit
    rw [isIdentifierChar, Unicode.isAlphanumeric_of_lt (by omega), Char.isAlphanum, hdigit,
      Bool.or_true, Bool.true_or]

/-- A granted name is plain if the requests are. -/
theorem isPlain_of_mem_distinct {bases : List String} (h : ∀ base ∈ bases, IsPlain base)
    {name : String} (hname : name ∈ distinct bases) : IsPlain name := by
  obtain ⟨base, hbase, rfl | ⟨k, rfl⟩⟩ := exists_of_mem_distinct hname
  · exact h name hbase
  · exact isPlain_numbered (h base hbase) k

end FixedWidth.Naming

namespace FixedWidth.Emit

open LineReader (complete?)
open Naming TextReader
open Table (ItemType Property PropertyKind RecordType Repetition Step TypeTable WellMade)

/-! ## Identifiers -/

theorem guardStart_ne_nil (list : List Char) : guardStart list ≠ [] := by
  fun_cases guardStart list <;> simp

theorem isPlain_clean (name : String) : IsPlain (clean name) := by
  refine ⟨?_, fun c hc => ?_⟩
  · rw [clean, String.toList_ofList]
    exact guardStart_ne_nil _
  · by_contra hchar
    exact notMem_clean (Bool.eq_false_of_not_eq_true hchar) name hc

theorem TextReader.IsPlain.append_underscore {word : String} (h : IsPlain word) :
    IsPlain (word ++ "_") := by
  refine ⟨by simp, fun c hc => ?_⟩
  rw [String.toList_append, List.mem_append] at hc
  obtain hc | hc := hc
  · exact h.chars c hc
  · cases List.mem_singleton.1 hc
    rfl

theorem isPlain_fieldBase (property : String) : IsPlain (fieldBase property) := by
  simp only [fieldBase]
  split
  · exact (isPlain_clean property).append_underscore
  · exact isPlain_clean property

theorem isPlain_typeIdentifier (name : String) : IsPlain (typeIdentifier name) := by
  simp only [typeIdentifier]
  split
  · exact (isPlain_clean name).append_underscore
  · exact isPlain_clean name

/-- **Fields go by identifiers.** -/
theorem isName_of_mem_fieldIdentifiers {properties : List String} {name : String}
    (h : name ∈ fieldIdentifiers properties) : IsName name := by
  obtain ⟨granted, hgranted, rfl⟩ := List.mem_map.1 h
  have hplain : IsPlain granted := by
    refine isPlain_of_mem_distinct (fun base hbase => ?_) hgranted
    obtain ⟨property, -, rfl⟩ := List.mem_map.1 hbase
    exact isPlain_fieldBase property
  rw [rawIfKeyword]
  split
  · exact .raw hplain
  · exact .plain hplain

/-- **Types go by identifiers.** -/
theorem TypeIdentifiers.isName_get (names : List String) (name : String) :
    IsName ((ofNames names).get name) := by
  rw [get]
  cases hlookup : (ofNames names).pairs.lookup name with
  | none => exact .plain (isPlain_typeIdentifier name)
  | some identifier =>
    obtain ⟨before, behind, hpairs, -⟩ := List.lookup_eq_some_iff.1 hlookup
    have hpair : (name, identifier) ∈ (ofNames names).pairs := by
      rw [hpairs]
      exact List.mem_append_right before List.mem_cons_self
    have hmem : identifier ∈ distinct (names.map typeIdentifier) := (List.of_mem_zip hpair).2
    refine .plain (isPlain_of_mem_distinct (fun base hbase => ?_) hmem)
    obtain ⟨name, -, rfl⟩ := List.mem_map.1 hbase
    exact isPlain_typeIdentifier name

variable {type : RecordType} {property : Property} {step : Step} {identify : Nat → String}
  {field : String}

/-- A property has a field that goes by an identifier. -/
theorem isName_getD {i : Nat} (hp : type.properties[i]? = some property) :
    IsName ((fieldIdentifiers (type.properties.map (·.name)))[i]?.getD "") := by
  have hlt : i < (fieldIdentifiers (type.properties.map (·.name))).length := by
    rw [length_fieldIdentifiers, List.length_map]
    exact (List.getElem?_eq_some_iff.1 hp).1
  rw [List.getElem?_eq_getElem hlt, Option.getD_some]
  exact isName_of_mem_fieldIdentifiers (List.getElem_mem hlt)

/-! ## Steps -/

section Steps

variable {i : Nat} {item : ItemType} {repetition : Repetition}

theorem listShape?_list (hp : type.properties[i]? = some property)
    (hk : property.kind = .list item repetition) :
    listShape? type (.list i) = some (item, repetition) := by
  simp [listShape?, hp, hk]

/-- Only texts without a width leave a list off the wire. -/
theorem touchesWire_list_iff (hp : type.properties[i]? = some property)
    (hk : property.kind = .list item repetition) :
    touchesWire type (.list i) = true ↔ item ≠ .text none := by
  rw [touchesWire, listShape?_list hp hk]
  rcases item with target | _ | layout <;> simp

/-- Only a list of texts without a width stays as it is, if it has no count. -/
theorem assignsValue_list_iff (hp : type.properties[i]? = some property)
    (hk : property.kind = .list item repetition) :
    assignsValue type (.list i) = true ↔ ¬ (item = .text none ∧ repetition = .dynamic) := by
  rw [assignsValue, listShape?_list hp hk]
  rcases item with target | _ | layout <;> cases repetition <;> simp

/-- A property that leads to a type has a step, which reads a nested record or a list of them. -/
theorem exists_step_of_target (hm : WellMade type.properties type.steps)
    (hp : property ∈ type.properties) {target : Nat}
    (htarget : property.kind.target? = some target) :
    ∃ i, type.properties[i]? = some property ∧
      (property.kind = .nested target ∧ .nested i ∈ type.steps ∨
        ∃ repetition, property.kind = .list (.record target) repetition ∧
          .list i ∈ type.steps) := by
  obtain ⟨i, hi⟩ := List.mem_iff_getElem?.1 hp
  refine ⟨i, hi, ?_⟩
  cases hk : property.kind with
  | text => simp [hk, PropertyKind.target?] at htarget
  | nested other =>
    obtain rfl : other = target := by simpa [hk, PropertyKind.target?] using htarget
    exact Or.inl ⟨rfl, hm.mem_steps hi (by rw [hk]; exact List.mem_cons_self)⟩
  | list item repetition =>
    cases item with
    | text => simp [hk, PropertyKind.target?] at htarget
    | record other =>
      obtain rfl : other = target := by simpa [hk, PropertyKind.target?] using htarget
      exact Or.inr ⟨repetition, rfl, hm.mem_steps hi (by rw [hk]; exact List.mem_cons_self)⟩

/-- A property that leads to a type touches the wire. -/
theorem any_touchesWire_of_target (hm : WellMade type.properties type.steps)
    (hp : property ∈ type.properties) {target : Nat}
    (htarget : property.kind.target? = some target) :
    type.steps.any (touchesWire type) = true := by
  rw [List.any_eq_true]
  obtain ⟨i, hi, ⟨-, hstep⟩ | ⟨repetition, hk, hstep⟩⟩ := exists_step_of_target hm hp htarget
  · exact ⟨.nested i, hstep, rfl⟩
  · exact ⟨.list i, hstep, (touchesWire_list_iff hi hk).2 (by simp)⟩

end Steps

/-! ## Routines that write -/

namespace EncodeStatement

variable {i : Nat} {names : List String} {statement : EncodeStatement}

/-- The statement of a nested property. -/
theorem exists_of_ofStep?_nested
    (h : ofStep? identify type names (.nested i) = some statement) :
    ∃ property, type.properties[i]? = some property ∧
      statement = if property.recursive then boxed (names[i]?.getD "")
        else nested (names[i]?.getD "") := by
  simp only [ofStep?, Option.bind_eq_bind, Option.bind_eq_some_iff] at h
  obtain ⟨property, hp, h⟩ := h
  cases h
  exact ⟨property, hp, rfl⟩

/-- The statement of a list property. -/
theorem exists_of_ofStep?_list (h : ofStep? identify type names (.list i) = some statement) :
    ∃ property item repetition, type.properties[i]? = some property ∧
      property.kind = .list item repetition ∧
      statement = ofList identify (names[i]?.getD "") property item repetition := by
  simp only [ofStep?, Option.bind_eq_bind, Option.bind_eq_some_iff] at h
  obtain ⟨property, hp, h⟩ := h
  split at h <;> cases h
  exact ⟨property, _, _, hp, ‹_›, rfl⟩

/-- **Each step has a statement.** -/
theorem exists_ofStep? (hm : WellMade type.properties type.steps) (hstep : step ∈ type.steps)
    (identify : Nat → String) (names : List String) :
    ∃ statement, ofStep? identify type names step = some statement := by
  cases step with
  | nested i =>
    obtain ⟨property, hp, -⟩ := hm.exists_property hstep rfl
    simp [ofStep?, hp]
  | list i =>
    obtain ⟨property, hp, huse⟩ := hm.exists_property hstep rfl
    obtain ⟨item, repetition, hk⟩ := PropertyKind.eq_of_list_mem_stepsAt huse
    simp [ofStep?, hp, hk]
  | field | constant | padding | unresolved | cycle => exact ⟨_, rfl⟩

theorem isName_ofList (hfield : IsName field) (hidentify : ∀ i, IsName (identify i))
    (item : ItemType) (repetition : Repetition) :
    ∀ name ∈ (ofList identify field property item repetition).names, IsName name := by
  rcases item with target | _ | layout <;> cases repetition <;> simp only [ofList]
  case record.fixed => split <;> simp [EncodeStatement.names, hfield, hidentify]
  all_goals simp [EncodeStatement.names, hfield]

/-- **A statement names its fields and types by identifiers.** -/
theorem isName_ofStep? (hm : WellMade type.properties type.steps) (hstep : step ∈ type.steps)
    (hidentify : ∀ i, IsName (identify i))
    (h : ofStep? identify type (fieldIdentifiers (type.properties.map (·.name))) step =
      some statement) : ∀ name ∈ statement.names, IsName name := by
  cases step with
  | field i layout =>
    obtain ⟨property, hp, -⟩ := hm.exists_property hstep rfl
    cases h
    simpa [EncodeStatement.names] using isName_getD hp
  | nested i =>
    obtain ⟨property, hp, rfl⟩ := exists_of_ofStep?_nested h
    split <;> simpa [EncodeStatement.names] using isName_getD hp
  | list i =>
    obtain ⟨property, item, repetition, hp, -, rfl⟩ := exists_of_ofStep?_list h
    exact isName_ofList (isName_getD hp) hidentify item repetition
  | constant | padding | unresolved | cycle =>
    cases h
    exact List.forall_mem_nil _

end EncodeStatement

theorem EncodeRoutine.statements_ofType (identify : Nat → String) (identifier : String)
    (type : RecordType) : (ofType identify identifier type).statements =
      type.steps.filterMap (EncodeStatement.ofStep? identify type
        (fieldIdentifiers (type.properties.map (·.name)))) := by
  simp only [statements, ofType]
  split
  · rename_i hsteps
    rw [List.isEmpty_iff.1 hsteps]
    rfl
  · rfl

/-! ## Routines that read -/

namespace DecodeStatement

variable {i : Nat} {names : List String} {statement : DecodeStatement}

theorem ofStep?_nested (identify : Nat → String) (names : List String) {target : Nat}
    (hp : type.properties[i]? = some property) (hk : property.kind = .nested target) :
    ofStep? identify type names (.nested i) =
      some (if property.recursive then boxed (names[i]?.getD "") (identify target)
        else nested (names[i]?.getD "") (identify target)) := by
  simp [ofStep?, hp, hk]

theorem ofStep?_list (identify : Nat → String) (names : List String) {item : ItemType}
    {repetition : Repetition} (hp : type.properties[i]? = some property)
    (hk : property.kind = .list item repetition) :
    ofStep? identify type names (.list i) =
      some (ofList identify (names[i]?.getD "") property item repetition) := by
  simp [ofStep?, hp, hk]

/-- The statement of a nested property. -/
theorem exists_of_ofStep?_nested
    (h : ofStep? identify type names (.nested i) = some statement) :
    ∃ property target, type.properties[i]? = some property ∧
      statement = if property.recursive then boxed (names[i]?.getD "") (identify target)
        else nested (names[i]?.getD "") (identify target) := by
  simp only [ofStep?, Option.bind_eq_bind, Option.bind_eq_some_iff] at h
  obtain ⟨property, hp, h⟩ := h
  split at h <;> cases h
  exact ⟨property, _, hp, rfl⟩

/-- The statement of a list property. -/
theorem exists_of_ofStep?_list (h : ofStep? identify type names (.list i) = some statement) :
    ∃ property item repetition, type.properties[i]? = some property ∧
      property.kind = .list item repetition ∧
      statement = ofList identify (names[i]?.getD "") property item repetition := by
  simp only [ofStep?, Option.bind_eq_bind, Option.bind_eq_some_iff] at h
  obtain ⟨property, hp, h⟩ := h
  split at h <;> cases h
  exact ⟨property, _, _, hp, ‹_›, rfl⟩

/-- **Each step has a statement.** -/
theorem exists_ofStep? (hm : WellMade type.properties type.steps) (hstep : step ∈ type.steps)
    (identify : Nat → String) (names : List String) :
    ∃ statement, ofStep? identify type names step = some statement := by
  cases step with
  | nested i =>
    obtain ⟨property, hp, huse⟩ := hm.exists_property hstep rfl
    obtain ⟨target, hk⟩ := PropertyKind.eq_of_nested_mem_stepsAt huse
    exact ⟨_, ofStep?_nested identify names hp hk⟩
  | list i =>
    obtain ⟨property, hp, huse⟩ := hm.exists_property hstep rfl
    obtain ⟨item, repetition, hk⟩ := PropertyKind.eq_of_list_mem_stepsAt huse
    exact ⟨_, ofStep?_list identify names hp hk⟩
  | field | constant | padding | unresolved | cycle => exact ⟨_, rfl⟩

theorem isName_ofList (hfield : IsName field) (hidentify : ∀ i, IsName (identify i))
    (item : ItemType) (repetition : Repetition) :
    ∀ name ∈ (ofList identify field property item repetition).names, IsName name := by
  rcases item with target | _ | layout <;> cases repetition <;> simp only [ofList]
  case record.fixed => split <;> simp [DecodeStatement.names, hfield, hidentify]
  all_goals simp [DecodeStatement.names, hfield, hidentify]

/-- **A statement names its fields and types by identifiers.** -/
theorem isName_ofStep? (hm : WellMade type.properties type.steps) (hstep : step ∈ type.steps)
    (hidentify : ∀ i, IsName (identify i))
    (h : ofStep? identify type (fieldIdentifiers (type.properties.map (·.name))) step =
      some statement) : ∀ name ∈ statement.names, IsName name := by
  cases step with
  | field i layout =>
    obtain ⟨property, hp, -⟩ := hm.exists_property hstep rfl
    cases h
    simpa [DecodeStatement.names] using isName_getD hp
  | nested i =>
    obtain ⟨property, target, hp, rfl⟩ := exists_of_ofStep?_nested h
    split <;> simpa [DecodeStatement.names, hidentify] using isName_getD hp
  | list i =>
    obtain ⟨property, item, repetition, hp, -, rfl⟩ := exists_of_ofStep?_list h
    exact isName_ofList (isName_getD hp) hidentify item repetition
  | constant | padding | unresolved | cycle =>
    cases h
    exact List.forall_mem_nil _

theorem mem_bindings_iff : statement ∈ bindings type ↔
    statement = bindStart ∧ type.properties.any (·.recursive) = true ∨
      statement = bindValue (type.steps.any (assignsValue type)) := by
  rw [bindings, List.mem_append, List.mem_singleton]
  split <;> simp [*]

end DecodeStatement

/-! ## Emitted source -/

/-- The routine that writes, as its lines say. -/
def EmittedType.encodeRoutine? (emitted : EmittedType) : Option EncodeRoutine :=
  complete? EncodeRoutine.reader emitted.artifact.encode.lines

/-- The routine that reads, as its lines say. -/
def EmittedType.decodeRoutine? (emitted : EmittedType) : Option DecodeRoutine :=
  complete? DecodeRoutine.reader emitted.artifact.decode.lines

namespace EmittedType

variable {options : Options} {table : TypeTable}

theorem isName_identifierOf (table : TypeTable) (index : Nat) : IsName (identifierOf table index) :=
  TypeIdentifiers.isName_get _ _

/-- **The lines of a routine that writes say what it is.** -/
theorem encodeRoutine?_ofType (hm : WellMade type.properties type.steps) :
    (ofType options table type).encodeRoutine? =
      some (ofType options table type).artifact.encode := by
  refine EncodeRoutine.complete?_lines (TypeIdentifiers.isName_get _ _) ?_ ?_
  · simp only [ofType, Artifact.ofType, EncodeRoutine.ofType]
    split
    · exact .plain ⟨by simp, by simp; decide⟩
    · exact .plain ⟨by simp, by simp; decide⟩
  · intro statement hmem
    simp only [ofType, Artifact.ofType, EncodeRoutine.statements_ofType] at hmem
    obtain ⟨step, hstep, h⟩ := List.mem_filterMap.1 hmem
    exact EncodeStatement.isName_ofStep? hm hstep (isName_identifierOf table) h

/-- **The lines of a routine that reads say what it is.** -/
theorem decodeRoutine?_ofType (hm : WellMade type.properties type.steps) :
    (ofType options table type).decodeRoutine? =
      some (ofType options table type).artifact.decode := by
  have hparameter : IsName (if type.steps.any (touchesWire type) then "cursor" else "_cursor") := by
    split
    · exact .plain ⟨by simp, by simp; decide⟩
    · exact .plain ⟨by simp, by simp; decide⟩
  rw [decodeRoutine?]
  simp only [ofType, Artifact.ofType, DecodeRoutine.ofType]
  split
  · exact DecodeRoutine.complete?_lines (TypeIdentifiers.isName_get _ _) hparameter
      (List.forall_mem_nil _)
  · refine DecodeRoutine.complete?_lines (TypeIdentifiers.isName_get _ _) hparameter ?_
    intro statement hmem
    rw [List.mem_append] at hmem
    obtain hmem | hmem := hmem
    · obtain ⟨rfl, -⟩ | rfl := DecodeStatement.mem_bindings_iff.1 hmem
      · exact List.forall_mem_nil _
      · exact List.forall_mem_nil _
    · obtain ⟨step, hstep, h⟩ := List.mem_filterMap.1 hmem
      exact DecodeStatement.isName_ofStep? hm hstep (isName_identifierOf table) h

end EmittedType

end FixedWidth.Emit
