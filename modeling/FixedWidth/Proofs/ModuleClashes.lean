import FixedWidth.Proofs.Bundle

/-!
# Proofs/ModuleClashes — modules and structs share one namespace

    name ──clean, evade, number──▸ identifier ─┐
                                               ├─ one namespace of mod.rs
    name ──clean, lower, number──▸ module ─────┘

The index of a bundle declares a module a type and takes the struct of each module in. A struct that
goes by the name of a module is hidden by it. Module names have no capital letters, so this happens
to no identifier that has one; but an identifier without capital letters is asked for by a name that
asks for the same module (`moduleName_eq`). Hence the two stay apart exactly if every identifier
has a capital letter (`modulesApart_iff`).
-/

namespace FixedWidth.Naming

open Unicode

variable {base name : String} {bases : List String}

/-- What was requested is taken from then on, whether it was granted or was taken before. -/
theorem Scope.mem_uniqueAll_or_mem_used (scope : Scope) (h : base ∈ bases) :
    base ∈ scope.uniqueAll bases ∨ base ∈ scope.used := by
  induction bases generalizing scope with
  | nil => cases h
  | cons first rest ih =>
    rw [uniqueAll]
    obtain rfl | hrest := List.mem_cons.1 h
    · by_cases hused : base ∈ scope.used
      · exact Or.inr hused
      · have hgrant : scope.grant base = base := by
          rw [grant, if_neg fun h => hused (List.contains_iff_mem.1 h)]
        exact Or.inl (List.mem_cons.2 (Or.inl hgrant.symm))
    · obtain hgranted | htaken := ih (scope.unique first).2 hrest
      · exact Or.inl (List.mem_cons_of_mem _ hgranted)
      · obtain heq | hused := List.mem_cons.1 htaken
        · exact Or.inl (List.mem_cons.2 (Or.inl heq))
        · exact Or.inr hused

/-- **Every request is among the names that are granted.** -/
theorem mem_distinct_of_mem (h : base ∈ bases) : base ∈ distinct bases := by
  obtain hmem | hused := Scope.mem_uniqueAll_or_mem_used .empty h
  · exact hmem
  · cases hused

/-! ## Capital letters -/

/-- A name with a capital letter. -/
def HasCapital (name : String) : Prop := ∃ c ∈ name.toList, isUpper c = true

/-- Capital letters can be looked for. -/
instance (name : String) : Decidable (HasCapital name) :=
  decidable_of_iff (name.toList.any isUpper = true) List.any_eq_true

/-- A name whose capital letters have lower case forms. A few letters, as those of mathematical
alphabets, have none. -/
def Lowers (name : String) : Prop :=
  ∀ c ∈ name.toList, isUpper c = true → ∀ d ∈ toLower c, isUpper d = false

/-- Lower case forms can be looked up. -/
instance (name : String) : Decidable (Lowers name) :=
  decidable_of_iff (name.toList.all fun c => !isUpper c || (toLower c).all (!isUpper ·)) <| by
    simp [Lowers, ← Bool.not_eq_true, imp_iff_not_or]

theorem not_hasCapital_iff : ¬ HasCapital name ↔ ∀ c ∈ name.toList, isUpper c = false := by
  simp [HasCapital]

theorem hasCapital_append {more : String} :
    HasCapital (name ++ more) ↔ HasCapital name ∨ HasCapital more := by
  simp only [HasCapital, String.toList_append, List.mem_append, or_and_right, exists_or]

theorem isUpper_eq_false_of_isDigit {c : Char} (h : c.isDigit = true) : isUpper c = false := by
  have hdigits : ∀ n < 0x80, (Char.ofNat n).isDigit = true → isUpper (Char.ofNat n) = false := by
    decide
  have hlt : c.toNat < 0x80 := by
    rw [Char.isDigit, Bool.and_eq_true, decide_eq_true_eq, decide_eq_true_eq] at h
    exact Nat.lt_of_le_of_lt (UInt32.le_iff_toNat_le.1 h.2) (by decide)
  have hdigit := hdigits c.toNat hlt
  rw [Char.ofNat_toNat] at hdigit
  exact hdigit h

/-- A number brings no capital letter along. -/
theorem hasCapital_numbered_iff (base : String) (k : Nat) :
    HasCapital (numbered base k) ↔ HasCapital base := by
  simp only [HasCapital, toList_numbered, List.mem_append, List.mem_cons]
  constructor
  · rintro ⟨c, hc | rfl | hc, hupper⟩
    · exact ⟨c, hc, hupper⟩
    · cases hupper
    · simp [isUpper_eq_false_of_isDigit (isDigit_of_mem_toDigits hc)] at hupper
  · rintro ⟨c, hc, hupper⟩
    exact ⟨c, Or.inl hc, hupper⟩

theorem snakeCaseFrom_eq_self {chars : List Char} (h : ∀ c ∈ chars, isUpper c = false)
    (afterLower : Bool) : snakeCaseFrom afterLower chars = chars := by
  induction chars generalizing afterLower with
  | nil => rfl
  | cons c rest ih =>
    rw [List.forall_mem_cons] at h
    rw [snakeCaseFrom, if_neg (by simp [h.1]), ih h.2]

/-- A name without capital letters is in lower case. -/
theorem snakeCase_eq_self (h : ¬ HasCapital name) : snakeCase name = name := by
  rw [snakeCase, snakeCaseFrom_eq_self (not_hasCapital_iff.1 h), String.ofList_toList]

/-- The lower case of a name has no capital letter. -/
theorem not_hasCapital_snakeCase (h : Lowers name) : ¬ HasCapital (snakeCase name) := by
  rw [not_hasCapital_iff, snakeCase, String.toList_ofList]
  exact forall_mem_snakeCaseFrom (P := (isUpper · = false)) rfl (fun _ _ hc => hc) h false

end FixedWidth.Naming

namespace FixedWidth.Emit

open Naming Unicode
open Schema (Node Registry)
open Table (TypeTable compile compiles_compile people)

variable {table : TypeTable} {name : String}

/-! ## Two ways to make a name -/

theorem mem_of_mem_clean {c : Char} (h : c ∈ (clean name).toList) : c = '_' ∨ c ∈ name.toList := by
  have hmap : ∀ d ∈ name.toList.map (fun c => if isIdentifierChar c then c else '_'),
      d = '_' ∨ d ∈ name.toList := by
    intro d hd
    obtain ⟨other, hother, rfl⟩ := List.mem_map.1 hd
    split
    · exact Or.inr hother
    · exact Or.inl rfl
  rw [clean, String.toList_ofList] at h
  generalize name.toList.map (fun c => if isIdentifierChar c then c else '_') = cleaned at h hmap
  revert h
  fun_cases guardStart cleaned with
  | case1 => exact fun h => Or.inl (List.mem_singleton.1 h)
  | case2 => exact fun h => (List.mem_cons.1 h).elim Or.inl (hmap c)
  | case3 => exact hmap c

theorem lowers_clean (h : Lowers name) : Lowers (clean name) := by
  intro c hc hupper
  obtain rfl | hmem := mem_of_mem_clean hc
  · cases hupper
  · exact h c hmem hupper

theorem not_hasCapital_moduleName (h : Lowers name) : ¬ HasCapital (moduleName name) := by
  have hsnake := not_hasCapital_snakeCase (lowers_clean h)
  simp only [moduleName]
  split
  · rw [hasCapital_append, not_or]
    exact ⟨hsnake, by decide⟩
  · exact hsnake

/-- **A name that asks for an identifier without capital letters asks for the same module.** -/
theorem moduleName_eq (h : ¬ HasCapital (typeIdentifier name)) :
    moduleName name = typeIdentifier name := by
  have hreserved : ∀ word ∈ reservedTypes, HasCapital word := by decide
  have hclean : ¬ HasCapital (clean name) := by
    simp only [typeIdentifier] at h
    split at h
    · exact fun hcapital => h (hasCapital_append.2 (Or.inl hcapital))
    · exact h
  have hfree : reservedTypes.contains (clean name) = false :=
    Bool.eq_false_of_not_eq_true fun hmem =>
      hclean (hreserved _ (List.contains_iff_mem.1 hmem))
  simp only [moduleName, typeIdentifier, snakeCase_eq_self hclean, hfree, Bool.or_false]

/-! ## The namespace of the index -/

/-- The identifiers of the types of a table. -/
def typeIdentifiers (table : TypeTable) : List String :=
  table.names.map (TypeIdentifiers.ofNames table.names).get

/-- The line that declares a module. -/
def moduleLine (module : String) : Line := ⟨0, s!"pub mod {module};"⟩

/-- **No module that the index declares is called as a type.** -/
def ModulesApart (table : TypeTable) : Prop :=
  ∀ module, moduleLine module ∈ indexLines table → module ∉ typeIdentifiers table

/-- The index declares the modules of the table. -/
theorem moduleLine_mem_indexLines_iff {module : String} :
    moduleLine module ∈ indexLines table ↔ module ∈ moduleNames table := by
  have hheader : moduleLine module ≠ header := fun heq => by
    simpa [moduleLine, header, Line.comment, toString] using congrArg (·.text.toList.head?) heq
  have huse : ∀ other : String, moduleLine module ≠ ⟨0, s!"pub use {other}::*;"⟩ :=
    fun other heq => by simpa [moduleLine, toString] using congrArg (·.text.toList) heq
  have hmod : ∀ other : String, moduleLine module = ⟨0, s!"pub mod {other};"⟩ ↔ module = other :=
    fun other => by simp [moduleLine, toString]
  simp only [indexLines, List.mem_cons, hheader, false_or, List.mem_flatMap, hmod, huse,
    List.not_mem_nil, or_false, exists_eq_right']

theorem typeIdentifiers_eq (h : table.names.Nodup) :
    typeIdentifiers table = distinct (table.names.map typeIdentifier) :=
  TypeIdentifiers.map_get_ofNames h

/-- Identifiers with capital letters are no modules. -/
theorem hasCapital_notMem_moduleNames (hlowers : ∀ name ∈ table.names, Lowers name)
    (h : HasCapital name) : name ∉ moduleNames table := by
  intro hmem
  obtain ⟨base, hbase, hname⟩ := exists_of_mem_distinct hmem
  obtain ⟨type, htype, rfl⟩ := List.mem_map.1 hbase
  have hbase := not_hasCapital_moduleName (hlowers type htype)
  obtain hname | ⟨k, hname⟩ := hname
  · rw [hname] at h
    exact hbase h
  · rw [hname, hasCapital_numbered_iff] at h
    exact hbase h

/-- An identifier without capital letters is in the way of a module, or was numbered because
another one is. -/
theorem exists_mem_moduleNames (hnodup : table.names.Nodup) (hname : name ∈ typeIdentifiers table)
    (h : ¬ HasCapital name) : ∃ module ∈ moduleNames table, module ∈ typeIdentifiers table := by
  rw [typeIdentifiers_eq hnodup] at hname ⊢
  obtain ⟨base, hbase, hgranted⟩ := exists_of_mem_distinct hname
  obtain ⟨type, htype, rfl⟩ := List.mem_map.1 hbase
  have hlower : ¬ HasCapital (typeIdentifier type) := by
    obtain rfl | ⟨k, rfl⟩ := hgranted
    · exact h
    · exact fun hcapital => h ((hasCapital_numbered_iff _ k).2 hcapital)
  refine ⟨typeIdentifier type, ?_, mem_distinct_of_mem hbase⟩
  rw [← moduleName_eq hlower]
  exact mem_distinct_of_mem (List.mem_map_of_mem htype)

/-- **Modules and types of a table stay apart exactly if each identifier has a capital letter**,
where the capital letters of its names have lower case forms. -/
theorem modulesApart_iff (registry : Registry) (id : String)
    (h : ∀ name ∈ (compile registry id).names, Lowers name) :
    ModulesApart (compile registry id) ↔
      ∀ name ∈ typeIdentifiers (compile registry id), HasCapital name := by
  have hnodup : (compile registry id).names.Nodup := (compiles_compile registry id).nodup_names
  constructor
  · intro hapart name hname
    by_contra hlower
    obtain ⟨module, hmodule, hclash⟩ := exists_mem_moduleNames hnodup hname hlower
    exact hapart module (moduleLine_mem_indexLines_iff.2 hmodule) hclash
  · intro hcapitals module hmodule hclash
    exact hasCapital_notMem_moduleNames h (hcapitals module hclash)
      (moduleLine_mem_indexLines_iff.1 hmodule)

/-- A person has a capital letter, and a module in lower case. -/
theorem person_modulesApart : (∀ name ∈ (compile people "Person").names, Lowers name) ∧
    ModulesApart (compile people "Person") := by
  have h : ∀ name ∈ (compile people "Person").names, Lowers name := by
    have hnames : (compile people "Person").names = ["Person"] := by decide +kernel
    rw [hnames]
    decide
  exact ⟨h, (modulesApart_iff people "Person" h).2 (by decide +kernel)⟩

/-- A root with one record, whose name has no capital letter. -/
def lowerNode : Node :=
  { Node.ofTag "fmtDef" ⟨"lower.xml", 1⟩ with
    id := some "R"
    children := [
      { Node.ofTag "record" ⟨"lower.xml", 2⟩ with
        attributes := [("dataName", "foo")]
        children := [
          { Node.ofTag "fString" ⟨"lower.xml", 3⟩ with attributes := [("dataName", "A")] },
          { Node.ofTag "delimDecor" ⟨"lower.xml", 4⟩ with attributes := [("length", "1")] }] }] }

/-- The registry of that root alone. -/
def lower : Registry := ⟨[lowerNode], ⟨[("R", ⟨0, []⟩)], []⟩⟩

/-- The struct of the record is hidden by its own module. -/
theorem lower_clashes : ¬ ModulesApart (compile lower "R") := by
  have hmodule : "foo" ∈ moduleNames (compile lower "R") := by decide +kernel
  have htype : "foo" ∈ typeIdentifiers (compile lower "R") := by decide +kernel
  exact fun hapart => hapart "foo" (moduleLine_mem_indexLines_iff.2 hmodule) htype

end FixedWidth.Emit
