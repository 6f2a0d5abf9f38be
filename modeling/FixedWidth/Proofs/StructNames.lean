import FixedWidth.Proofs.EmittedTypes
import FixedWidth.Proofs.ModuleClashes

/-!
# Proofs/StructNames — names for structs

    name ──clean──▸ word ──evade──▸ request ──number──▸ identifier

A struct needs a word that is not reserved and that emitted source does not use for something else
(`IsStructName`). Cleaning makes words of names in ASCII, reserved words and most of the names that
emitted source uses are evaded, and a request with a number behind it is none of them. Three words
are left over, which nothing evades (`wordsNotEvaded`): each goes to the first type that cleans to
it (`distinct_eq_some_iff`), so that exactly these types have no name for a struct
(`isStructName_iff`).
-/

namespace FixedWidth.Naming

variable {bases : List String} {base word : String} {index : Nat}

/-- **A word that no number makes goes to the first request for it.** -/
theorem distinct_eq_some_iff (hword : ∀ other k, numbered other k ≠ word)
    (h : bases[index]? = some base) :
    (distinct bases)[index]? = some word ↔ base = word ∧ word ∉ bases.take index := by
  have hmem : word ∈ distinct (bases.take index) ↔ word ∈ bases.take index := by
    refine ⟨fun hgranted => ?_, mem_distinct_of_mem⟩
    obtain ⟨other, hother, rfl | ⟨k, hk⟩⟩ := exists_of_mem_distinct hgranted
    · exact hother
    · exact absurd hk.symm (hword other k)
  rw [getElem?_distinct h, Option.some.injEq, ← hmem, Scope.grant]
  simp only [List.contains_iff_mem, List.mem_reverse]
  split
  · rename_i htaken
    refine ⟨fun heq => absurd heq (hword _ _), ?_⟩
    rintro ⟨rfl, hfree⟩
    exact absurd htaken hfree
  · rename_i hfree
    constructor
    · rintro rfl
      exact ⟨rfl, hfree⟩
    · exact And.left

end FixedWidth.Naming

namespace FixedWidth.Emit

open Naming
open Schema (Node Registry)
open Table (RecordType TypeTable compile compiles_compile)

/-! ## Names that are taken -/

/-- The names that emitted source refers to without a path. -/
def plainNames : List String :=
  ["Option", "Some", "None", "String", "Vec", "Box", "Default", "FieldLayout", "EncodeBuffer",
   "DecodeCursor", "HostEncode", "HostDecode", "Self", "str", "ironfw_core"]

/-- **A name for a struct**: a word that is not reserved, not a lone underscore, and no name that
emitted source refers to. -/
structure IsStructName (identifier : String) : Prop where
  word_shape : isWord identifier.toList
  wildcard : identifier ≠ "_"
  free : ¬ IsReserved identifier
  apart : identifier ∉ plainNames

/-- The words that are no names for structs and that types do not evade. -/
def wordsNotEvaded : List String := ["_", "str", "ironfw_core"]

variable {name identifier word : String}

theorem not_isStructName_of_mem (h : identifier ∈ wordsNotEvaded) : ¬ IsStructName identifier := by
  have hbad : ∀ word ∈ wordsNotEvaded, word = "_" ∨ word ∈ plainNames := by decide
  exact fun hname => (hbad _ h).elim hname.wildcard hname.apart

/-- No taken name has a digit, so that a name with a number is none of them. -/
theorem numbered_notMem_taken (base : String) (k : Nat) :
    numbered base k ∉ keywords ++ reservedTypes ++ wordsNotEvaded := by
  have hwords : ∀ word ∈ keywords ++ reservedTypes ++ wordsNotEvaded,
      (word.toList.any (·.isDigit)) = false := by decide
  intro hmem
  have hdigit := List.any_eq_true.2 (exists_digit_mem_numbered base k)
  rw [hwords _ hmem] at hdigit
  cases hdigit

/-- Types never ask for a word that they evade. -/
theorem typeIdentifier_notMem (name : String) :
    typeIdentifier name ∉ keywords ++ reservedTypes := by
  have hmore : ∀ word ∈ keywords ++ reservedTypes, word ++ "_" ∉ keywords ++ reservedTypes := by
    decide
  simp only [typeIdentifier]
  split
  · rename_i htaken
    refine hmore _ (List.mem_append.2 ?_)
    simpa using htaken
  · rename_i hfree
    simpa using hfree

/-- A type asks for a word that is not evaded if its name is cleaned to it. -/
theorem typeIdentifier_eq_iff (h : word ∈ wordsNotEvaded) :
    typeIdentifier name = word ↔ clean name = word := by
  have hmore : ∀ word ∈ keywords ++ reservedTypes, word ++ "_" ∉ wordsNotEvaded := by decide
  have hapart : ∀ word ∈ wordsNotEvaded, word ∉ keywords ++ reservedTypes := by decide
  simp only [typeIdentifier]
  split
  · rename_i htaken
    have hmem : clean name ∈ keywords ++ reservedTypes := List.mem_append.2 (by simpa using htaken)
    constructor
    · rintro rfl
      exact absurd h (hmore _ hmem)
    · rintro rfl
      exact absurd hmem (hapart _ h)
  · rfl

theorem isWord_typeIdentifier (h : IsAscii name) : isWord (typeIdentifier name).toList := by
  have hword := isWord_clean h
  simp only [typeIdentifier]
  split
  · rw [String.toList_append]
    exact isWord_append hword (List.all_eq_true.1 rfl)
  · exact hword

/-- **A word that is granted to a type is a name for a struct, unless it is one of those that are
not evaded.** -/
theorem isStructName_of_granted (hascii : IsAscii name)
    (h : identifier = typeIdentifier name ∨ ∃ k, identifier = numbered (typeIdentifier name) k) :
    IsStructName identifier ↔ identifier ∉ wordsNotEvaded := by
  have hplain : ∀ word ∈ plainNames, word ∈ keywords ++ reservedTypes ∨ word ∈ wordsNotEvaded := by
    decide
  have hword : isWord identifier.toList := by
    obtain rfl | ⟨k, rfl⟩ := h
    · exact isWord_typeIdentifier hascii
    · exact isWord_numbered (isWord_typeIdentifier hascii) k
  have hevaded : identifier ∉ keywords ++ reservedTypes := by
    obtain rfl | ⟨k, rfl⟩ := h
    · exact typeIdentifier_notMem name
    · exact fun hmem => numbered_notMem_taken _ k (List.mem_append_left _ hmem)
  refine ⟨fun hname hmem => not_isStructName_of_mem hmem hname, fun hfree => ⟨hword, ?_, ?_, ?_⟩⟩
  · rintro rfl
    exact hfree (by decide)
  · exact fun hreserved => hevaded (List.mem_append_left _ (isReserved_iff.1 hreserved))
  · exact fun hmem => (hplain _ hmem).elim hevaded hfree

/-! ## The types of a table -/

/-- Whether the type at an index is the first one whose name is cleaned to a word. -/
def IsFirstCleanedTo (table : TypeTable) (index : Nat) (word : String) : Prop :=
  clean (table.typeName index) = word ∧
    ∀ earlier < index, clean (table.typeName earlier) ≠ word

variable {table : TypeTable} {index : Nat} {type : RecordType}

theorem typeName_eq (found : table.types[index]? = some type) :
    table.typeName index = type.name := by
  rw [TypeTable.typeName, found, Option.map_some, Option.getD_some]

theorem getElem?_names (found : table.types[index]? = some type) :
    table.names[index]? = some type.name := by
  rw [TypeTable.names, List.getElem?_map, found, Option.map_some]

/-- The identifier of a type is granted at its place. -/
theorem getElem?_identifierOf (hnodup : table.names.Nodup)
    (found : table.types[index]? = some type) :
    (distinct (table.names.map typeIdentifier))[index]? = some (identifierOf table index) := by
  rw [identifierOf, typeName_eq found]
  exact TypeIdentifiers.get_ofNames hnodup (getElem?_names found)

/-- A word is asked for before a type if the name of an earlier type is cleaned to it. -/
theorem mem_take_typeIdentifiers_iff (hword : word ∈ wordsNotEvaded)
    (found : table.types[index]? = some type) :
    word ∈ (table.names.map typeIdentifier).take index ↔
      ∃ earlier < index, clean (table.typeName earlier) = word := by
  have hlt := (List.getElem?_eq_some_iff.1 found).1
  simp only [List.mem_iff_getElem?, List.getElem?_take, List.getElem?_map]
  constructor
  · rintro ⟨earlier, h⟩
    split at h
    · rename_i hearlier
      obtain ⟨name, hname, hrequest⟩ := Option.map_eq_some_iff.1 h
      refine ⟨earlier, hearlier, ?_⟩
      have hother := List.getElem?_eq_getElem (hearlier.trans hlt)
      rw [getElem?_names hother, Option.some.injEq] at hname
      rwa [typeName_eq hother, hname, ← typeIdentifier_eq_iff hword]
    · cases h
  · rintro ⟨earlier, hearlier, hclean⟩
    have hother := List.getElem?_eq_getElem (hearlier.trans hlt)
    rw [typeName_eq hother, ← typeIdentifier_eq_iff hword] at hclean
    exact ⟨earlier, by rw [if_pos hearlier, getElem?_names hother, Option.map_some, hclean]⟩

/-- **A word that is not evaded goes to the first type whose name is cleaned to it.** -/
theorem identifierOf_eq_iff (hnodup : table.names.Nodup) (hword : word ∈ wordsNotEvaded)
    (found : table.types[index]? = some type) :
    identifierOf table index = word ↔ IsFirstCleanedTo table index word := by
  have hrequest : (table.names.map typeIdentifier)[index]? = some (typeIdentifier type.name) := by
    rw [List.getElem?_map, getElem?_names found, Option.map_some]
  have hnumber : ∀ other k, numbered other k ≠ word := fun other k heq =>
    numbered_notMem_taken other k (List.mem_append_right _ (heq ▸ hword))
  have hgranted := distinct_eq_some_iff hnumber hrequest
  rw [getElem?_identifierOf hnodup found, Option.some.injEq] at hgranted
  rw [hgranted, typeIdentifier_eq_iff hword, mem_take_typeIdentifiers_iff hword found,
    IsFirstCleanedTo, typeName_eq found]
  simp only [not_exists, not_and, ne_eq]

/-- **A type with a name in ASCII has a name for a struct**, unless it is the first one whose name
is cleaned to one of the words that are not evaded. -/
theorem isStructName_iff (registry : Registry) (id : String) {index : Nat} {type : RecordType}
    (found : (compile registry id).types[index]? = some type) (hascii : IsAscii type.name) :
    IsStructName (identifierOf (compile registry id) index) ↔
      ∀ word ∈ wordsNotEvaded, ¬ IsFirstCleanedTo (compile registry id) index word := by
  have hnodup : (compile registry id).names.Nodup := (compiles_compile registry id).nodup_names
  obtain ⟨base, hbase, hname⟩ := exists_getElem?_of_distinct (getElem?_identifierOf hnodup found)
  rw [List.getElem?_map, getElem?_names found, Option.map_some, Option.some.injEq] at hbase
  subst hbase
  rw [isStructName_of_granted hascii hname]
  constructor
  · intro hfree word hword hfirst
    rw [← identifierOf_eq_iff hnodup hword found] at hfirst
    exact hfree (hfirst ▸ hword)
  · intro hother hmem
    exact hother _ hmem ((identifierOf_eq_iff hnodup hmem found).1 rfl)

/-- Names can be checked to be in ASCII. -/
instance (name : String) : Decidable (IsAscii name) :=
  decidable_of_iff (name.toList.all fun c => c.toNat < 0x80) (by simp [IsAscii])

/-- A root called by a lone underscore, with one record for each word that emitted source uses. -/
def underscoreNode : Node :=
  { Node.ofTag "fmtDef" ⟨"names.xml", 1⟩ with
    id := some "_"
    children := ["str", "ironfw_core", "Self"].map fun name =>
      { Node.ofTag "record" ⟨"names.xml", 1⟩ with attributes := [("dataName", name)] } }

/-- The registry of that root alone. -/
def underscore : Registry := ⟨[underscoreNode], ⟨[("_", ⟨0, []⟩)], []⟩⟩

/-- The words that are not evaded are taken as they are. -/
theorem underscore_not_isStructName :
    (compile underscore "_").names.take 3 = ["_", "str", "ironfw_core"] ∧
      IsAscii "_" ∧ IsAscii "str" ∧ IsAscii "ironfw_core" ∧
      [0, 1, 2].map (identifierOf (compile underscore "_")) = ["_", "str", "ironfw_core"] ∧
      ¬ IsStructName "_" ∧ ¬ IsStructName "str" ∧ ¬ IsStructName "ironfw_core" := by
  refine ⟨by decide +kernel, by decide +kernel, by decide +kernel, by decide +kernel,
    by decide +kernel, ?_, ?_, ?_⟩ <;> exact not_isStructName_of_mem (by decide)

/-- The path of the type itself is evaded. -/
theorem underscore_isStructName : ∃ type, (compile underscore "_").types[3]? = some type ∧
    IsAscii type.name ∧ IsStructName (identifierOf (compile underscore "_") 3) := by
  have found : (compile underscore "_").types[3]? = some _ :=
    List.getElem?_eq_getElem (by decide +kernel)
  have hascii : ∀ type ∈ (compile underscore "_").types, IsAscii type.name := by decide +kernel
  have hclean : clean ((compile underscore "_").typeName 3) ∉ wordsNotEvaded := by decide +kernel
  refine ⟨_, found, hascii _ (List.getElem_mem _), ?_⟩
  refine (isStructName_iff underscore "_" found (hascii _ (List.getElem_mem _))).2 ?_
  rintro word hword ⟨rfl, -⟩
  exact hclean hword

end FixedWidth.Emit
