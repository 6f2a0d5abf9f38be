import FixedWidth.Emit.Identifier
import FixedWidth.Proofs.FreeNames

/-!
# Proofs/EmittedNames — identifiers of emitted source differ

Emitted source refers to fields and structs by identifiers. Those of one type are granted by one
scope, and so are those of one table, so no two of them are the same. The raw form of a keyword
begins with `r#`, which no other identifier does (`nodup_fieldIdentifiers`). A type of a table goes
by the identifier at its own place (`TypeIdentifiers.get_ofNames`).
-/

namespace FixedWidth.Naming

/-- A granted name is its request, possibly with a number. -/
theorem Scope.grant_eq (scope : Scope) (base : String) :
    scope.grant base = base ∨ ∃ k, scope.grant base = numbered base k := by
  rw [grant]
  split
  · exact Or.inr ⟨_, rfl⟩
  · exact Or.inl rfl

theorem Scope.exists_getElem?_of_uniqueAll {scope : Scope} {bases : List String} {index : Nat}
    {name : String} (h : (scope.uniqueAll bases)[index]? = some name) :
    ∃ base, bases[index]? = some base ∧ (name = base ∨ ∃ k, name = numbered base k) := by
  induction bases generalizing scope index with
  | nil => simp [uniqueAll] at h
  | cons base rest ih =>
    cases index with
    | zero =>
      cases h
      exact ⟨base, rfl, scope.grant_eq base⟩
    | succ index => exact ih h

/-- **A granted name is the request at its place, possibly with a number.** -/
theorem exists_getElem?_of_distinct {bases : List String} {index : Nat} {name : String}
    (h : (distinct bases)[index]? = some name) :
    ∃ base, bases[index]? = some base ∧ (name = base ∨ ∃ k, name = numbered base k) :=
  Scope.exists_getElem?_of_uniqueAll h

theorem exists_of_mem_distinct {bases : List String} {name : String} (h : name ∈ distinct bases) :
    ∃ base ∈ bases, name = base ∨ ∃ k, name = numbered base k := by
  obtain ⟨index, hindex⟩ := List.mem_iff_getElem?.1 h
  obtain ⟨base, hbase, hname⟩ := exists_getElem?_of_distinct hindex
  exact ⟨base, List.mem_of_getElem? hbase, hname⟩

/-! ## Numbers -/

theorem toList_numbered (base : String) (k : Nat) :
    (numbered base k).toList = base.toList ++ '_' :: Nat.toDigits 10 k := by
  rw [numbered, String.toList_append, String.toList_append, Nat.toString_eq_ofList_toDigits,
    @String.toList_ofList (Nat.toDigits 10 k), List.append_assoc]
  rfl

theorem isDigit_of_mem_toDigits {c : Char} {k : Nat} (h : c ∈ Nat.toDigits 10 k) :
    c.isDigit = true :=
  Nat.isDigit_of_mem_toDigits (by omega) (Nat.le_refl 10) h

/-- A number brings no characters along but digits and an underscore. -/
theorem notMem_numbered {base : String} {c : Char} (h : c ∉ base.toList) (hline : c ≠ '_')
    (hdigit : c.isDigit = false) (k : Nat) : c ∉ (numbered base k).toList := by
  rw [toList_numbered, List.mem_append, List.mem_cons]
  rintro (hmem | rfl | hmem)
  · exact h hmem
  · exact hline rfl
  · exact absurd (isDigit_of_mem_toDigits hmem) (by simp [hdigit])

/-- A character that no request has is in no granted name, unless it belongs to numbers. -/
theorem notMem_of_mem_distinct {bases : List String} {c : Char}
    (h : ∀ base ∈ bases, c ∉ base.toList) (hline : c ≠ '_') (hdigit : c.isDigit = false) :
    ∀ name ∈ distinct bases, c ∉ name.toList := by
  intro name hname
  obtain ⟨base, hbase, rfl | ⟨k, rfl⟩⟩ := exists_of_mem_distinct hname
  · exact h name hbase
  · exact notMem_numbered (h base hbase) hline hdigit k

end FixedWidth.Naming

namespace FixedWidth.Emit

open Naming

/-! ## Fields -/

/-- A clean name has identifier characters only. -/
theorem notMem_clean {c : Char} (hc : isIdentifierChar c = false) (name : String) :
    c ∉ (clean name).toList := by
  have hline : c ≠ '_' := by
    rintro rfl
    exact absurd hc (by decide)
  have hmap : c ∉ name.toList.map fun c => if isIdentifierChar c then c else '_' := by
    intro hmem
    obtain ⟨other, -, hother⟩ := List.mem_map.1 hmem
    split at hother
    · rename_i hident
      exact absurd hident (by simp [hother, hc])
    · exact hline hother.symm
  rw [clean, String.toList_ofList]
  generalize name.toList.map (fun c => if isIdentifierChar c then c else '_') = cleaned at hmap
  fun_cases guardStart cleaned with
  | case1 => simpa using hline
  | case2 => simpa [hline] using hmap
  | case3 => exact hmap

theorem notMem_fieldBase (property : String) : '#' ∉ (fieldBase property).toList := by
  have hclean := notMem_clean (c := '#') (by decide +kernel) property
  simp only [fieldBase]
  split
  · simpa using hclean
  · exact hclean

/-- The raw form of a keyword is the raw form of no other word. -/
theorem rawIfKeyword_inj {x y : String} (hx : '#' ∉ x.toList) (hy : '#' ∉ y.toList)
    (h : rawIfKeyword x = rawIfKeyword y) : x = y := by
  have hraw : ∀ word : String, '#' ∈ ("r#" ++ word).toList := by simp
  rw [rawIfKeyword, rawIfKeyword] at h
  split at h <;> split at h
  · simpa using h
  · exact absurd (hraw x) (h ▸ hy)
  · exact absurd (hraw y) (h ▸ hx)
  · exact h

/-- **The fields of a struct have different identifiers.** -/
theorem nodup_fieldIdentifiers (properties : List String) :
    (fieldIdentifiers properties).Nodup := by
  have hplain : ∀ name ∈ distinct (properties.map fieldBase), '#' ∉ name.toList := by
    refine notMem_of_mem_distinct (fun base hbase => ?_) (by decide) (by decide)
    obtain ⟨property, -, rfl⟩ := List.mem_map.1 hbase
    exact notMem_fieldBase property
  exact List.Nodup.map_on (fun x hx y hy => rawIfKeyword_inj (hplain x hx) (hplain y hy))
    (nodup_distinct _)

theorem length_fieldIdentifiers (properties : List String) :
    (fieldIdentifiers properties).length = properties.length := by
  rw [fieldIdentifiers, List.length_map, length_distinct, List.length_map]

/-! ## Types -/

/-- Where the names differ, each value is found under its name. -/
theorem lookup_of_getElem? {α : Type} {pairs : List (String × α)} (h : (pairs.map Prod.fst).Nodup)
    {index : Nat} {name : String} {value : α} (hpair : pairs[index]? = some (name, value)) :
    pairs.lookup name = some value := by
  induction pairs generalizing index with
  | nil => simp at hpair
  | cons first rest ih =>
    rw [List.map_cons, List.nodup_cons] at h
    cases index with
    | zero =>
      cases hpair
      simp
    | succ index =>
      have hne : name ≠ first.1 := fun heq =>
        h.1 (List.mem_map.2 ⟨(name, value), List.mem_of_getElem? hpair, heq⟩)
      rw [List.lookup_cons, beq_false_of_ne hne]
      exact ih h.2 hpair

/-- **A type of a table goes by the identifier at its place.** -/
theorem TypeIdentifiers.get_ofNames {names : List String} (h : names.Nodup) {index : Nat}
    {name : String} (hname : names[index]? = some name) :
    (distinct (names.map typeIdentifier))[index]? = some ((ofNames names).get name) := by
  have hlen : (distinct (names.map typeIdentifier)).length = names.length := by
    rw [length_distinct, List.length_map]
  have hlt : index < (distinct (names.map typeIdentifier)).length :=
    hlen ▸ (List.getElem?_eq_some_iff.1 hname).1
  have hidentifier := List.getElem?_eq_getElem hlt
  have hpair : (names.zip (distinct (names.map typeIdentifier)))[index]? = some (name, _) :=
    List.getElem?_zip_eq_some.2 ⟨hname, hidentifier⟩
  have hnodup : ((names.zip (distinct (names.map typeIdentifier))).map Prod.fst).Nodup := by
    rwa [List.map_fst_zip (Nat.le_of_eq hlen.symm)]
  rw [get, ofNames, lookup_of_getElem? hnodup hpair, hidentifier, Option.getD_some]

/-- The identifiers of the types of a table, in their order. -/
theorem TypeIdentifiers.map_get_ofNames {names : List String} (h : names.Nodup) :
    names.map (ofNames names).get = distinct (names.map typeIdentifier) := by
  refine List.ext_getElem? fun index => ?_
  rw [List.getElem?_map]
  cases hname : names[index]? with
  | none =>
    rw [Option.map_none, eq_comm, List.getElem?_eq_none_iff, length_distinct, List.length_map]
    exact List.getElem?_eq_none_iff.1 hname
  | some name => rw [Option.map_some, get_ofNames h hname]

end FixedWidth.Emit
