import FixedWidth.Emit.Generate
import FixedWidth.Proofs.Files
import FixedWidth.Proofs.LegalNames
import FixedWidth.Proofs.Maps
import FixedWidth.Proofs.WellFormed

/-!
# Proofs/Bundle — no two names of emitted source clash

    properties ──▸ fields of a struct      one scope a type
    types      ──▸ identifiers             one scope a table
    types      ──▸ modules ──▸ files       one scope a table, and mod.rs

Each group of names is granted by one scope, so what is left to show is that no step after it, and
nothing beside it, brings two of them together: no module is called `mod`, because that is a
keyword, and no module name has a slash, so that the files of a bundle are put side by side
(`Proofs/Files`). `compile_namesApart` has all of this for every compiled table.
-/

namespace FixedWidth.Naming

open Unicode

/-- The characters of a name in lower case are those of the name, lines, and lower case forms. -/
theorem forall_mem_snakeCaseFrom {P : Char → Prop} {list : List Char} (hline : P '_')
    (hplain : ∀ c ∈ list, isUpper c = false → P c)
    (hlower : ∀ c ∈ list, isUpper c = true → ∀ d ∈ toLower c, P d) (afterLower : Bool) :
    ∀ d ∈ snakeCaseFrom afterLower list, P d := by
  induction list generalizing afterLower with
  | nil => exact nofun
  | cons c rest ih =>
    rw [List.forall_mem_cons] at hplain hlower
    rw [snakeCaseFrom]
    split
    · rename_i hupper
      intro d hd
      rw [List.mem_append, List.mem_append] at hd
      obtain (hd | hd) | hd := hd
      · cases afterLower with
        | false => cases hd
        | true => exact List.mem_singleton.1 hd ▸ hline
      · exact hlower.1 hupper d hd
      · exact ih hplain.2 hlower.2 _ d hd
    · rename_i hupper
      exact List.forall_mem_cons.2
        ⟨hplain.1 (Bool.eq_false_of_not_eq_true hupper), ih hplain.2 hlower.2 _⟩

theorem ofNat_ne_slash {n : Nat} (h : '/'.toNat < n) : Char.ofNat n ≠ '/' := by
  by_cases hvalid : n.isValidChar
  · rw [Char.ofNat, dif_pos hvalid]
    exact fun heq => Nat.ne_of_gt h (congrArg Char.toNat heq)
  · rw [Char.ofNat, dif_neg hvalid]
    decide

/-- No lower case form is a slash. -/
theorem slash_notMem_toLower {c : Char} (h : c ≠ '/') : '/' ∉ toLower c := by
  have hascii : ∀ n < 0x80, (Char.ofNat n).toLower = '/' → Char.ofNat n = '/' := by decide
  have himage : ∀ mapping ∈ lowerMappings, '/'.toNat < mapping.image := by decide +kernel
  intro hmem
  rw [toLower] at hmem
  split at hmem
  · rename_i hlt
    have hlower := hascii c.toNat hlt
    rw [Char.ofNat_toNat] at hlower
    exact h (hlower (List.mem_singleton.1 hmem).symm)
  · split at hmem
    · exact absurd hmem (by decide)
    · split at hmem
      · rename_i mapping hfind
        have hlt := himage mapping (List.mem_of_find?_eq_some hfind)
        exact ofNat_ne_slash (by omega) (List.mem_singleton.1 hmem).symm
      · exact h (List.mem_singleton.1 hmem).symm

end FixedWidth.Naming

namespace FixedWidth.Emit

open Naming
open Table (Property RecordType TypeTable compile compiles_compile)

variable {options : Options} {table : TypeTable} {name : String}

/-! ## Modules and their files -/

/-- The keyword `mod` is no module name. -/
theorem moduleName_ne_mod (name : String) : moduleName name ≠ "mod" := by
  have hmod : "mod" ∈ keywords := by decide
  have hmore : ∀ word ∈ keywords, word ++ "_" ≠ "mod" := by decide
  simp only [moduleName]
  split
  · rename_i hkeyword
    exact hmore _ (List.contains_iff_mem.1 hkeyword)
  · rename_i hfree
    rintro heq
    exact hfree (List.contains_iff_mem.2 (heq ▸ hmod))

theorem slash_notMem_moduleName (name : String) : '/' ∉ (moduleName name).toList := by
  have hclean : ∀ c ∈ (clean name).toList, c ≠ '/' := by
    rintro c hc rfl
    exact notMem_clean (by decide +kernel) name hc
  have hsnake : '/' ∉ (snakeCase (clean name)).toList := by
    rw [snakeCase, String.toList_ofList]
    intro hmem
    refine forall_mem_snakeCaseFrom (P := (· ≠ '/')) (by decide) (fun c hc _ => hclean c hc)
      (fun c hc _ d hd => ?_) false _ hmem rfl
    rintro rfl
    exact slash_notMem_toLower (hclean c hc) hd
  simp only [moduleName]
  split
  · simpa using hsnake
  · exact hsnake

theorem slash_notMem_moduleNames : ∀ module ∈ moduleNames table, '/' ∉ module.toList := by
  refine notMem_of_mem_distinct (fun base hbase => ?_) (by decide) (by decide)
  obtain ⟨name, -, rfl⟩ := List.mem_map.1 hbase
  exact slash_notMem_moduleName name

theorem mod_notMem_moduleNames : "mod" ∉ moduleNames table := by
  intro hmem
  obtain ⟨base, hbase, heq | ⟨k, heq⟩⟩ := exists_of_mem_distinct hmem
  · obtain ⟨name, -, rfl⟩ := List.mem_map.1 hbase
    exact moduleName_ne_mod name heq.symm
  · exact numbered_notMem_keywords base k (heq ▸ by decide)

theorem length_moduleNames : (moduleNames table).length = table.types.length := by
  rw [moduleNames, length_distinct, List.length_map, TypeTable.names, List.length_map]

/-- The names of the files of a table. -/
theorem map_fst_bundle : (bundle options table).map Prod.fst =
    (moduleNames table).map (· ++ ".rs") ++ ["mod.rs"] := by
  have hlength : (moduleNames table).length ≤ (artifactList options table).length := by
    rw [length_moduleNames, artifactList, List.length_map]
  rw [bundle, List.map_append, List.map_map, List.map_singleton]
  congr 1
  change ((moduleNames table).zip (artifactList options table)).map ((· ++ ".rs") ∘ Prod.fst) = _
  rw [← List.map_map, List.map_fst_zip hlength]

theorem fileName_injective : Function.Injective fun module : String => module ++ ".rs" :=
  fun x y h => by simpa using h

/-- **No two files of a table have one name.** -/
theorem nodup_bundle : ((bundle options table).map Prod.fst).Nodup := by
  rw [map_fst_bundle, List.nodup_append_comm, List.singleton_append, List.nodup_cons]
  refine ⟨fun hmem => ?_, (nodup_distinct _).map fileName_injective⟩
  obtain ⟨module, hmodule, heq⟩ := List.mem_map.1 hmem
  obtain rfl : module = "mod" := fileName_injective heq
  exact mod_notMem_moduleNames hmodule

/-- The names of a bundle are names of files. -/
theorem isFileName_of_mem_bundle :
    ∀ file ∈ bundle options table, Store.IsFileName file.1 := by
  intro file hfile
  have hname : file.1 ∈ (moduleNames table).map (· ++ ".rs") ++ ["mod.rs"] :=
    map_fst_bundle ▸ List.mem_map_of_mem hfile
  obtain ⟨stem, hstem, hslash⟩ : ∃ stem, file.1 = stem ++ ".rs" ∧ '/' ∉ stem.toList := by
    obtain hmodule | hindex := List.mem_append.1 hname
    · obtain ⟨module, hmodule, heq⟩ := List.mem_map.1 hmodule
      exact ⟨module, heq.symm, slash_notMem_moduleNames module hmodule⟩
    · exact ⟨"mod", List.mem_singleton.1 hindex, by decide⟩
  have hlist : file.1.toList = stem.toList ++ ['.', 'r', 's'] := by simp [hstem]
  have hlast : file.1.toList.getLast? = some 's' := by simp [hlist]
  refine ⟨fun h => ?_, by simp [hlist, hslash], fun h => ?_, fun h => ?_⟩ <;>
  · rw [h] at hlast
    cases hlast

/-! ## Artifacts -/

theorem length_artifactList : (artifactList options table).length = table.types.length :=
  List.length_map _

theorem map_typeName_artifactList :
    ((artifactList options table).map fun artifact => (artifact.typeName, artifact)).map Prod.fst =
      table.names := by
  rw [artifactList, List.map_map, List.map_map]
  rfl

/-- The file of a type holds its artifact. -/
theorem getElem?_bundle {index : Nat} {module : String} {type : RecordType}
    (hmodule : (moduleNames table)[index]? = some module)
    (htype : table.types[index]? = some type) :
    (bundle options table)[index]? = some (module ++ ".rs",
      render (moduleLines (.ofType options table (.ofNames table.names) type))) := by
  have hartifact : (artifactList options table)[index]? =
      some (.ofType options table (.ofNames table.names) type) := by
    rw [artifactList, List.getElem?_map, htype, Option.map_some]
  have hpair : ((moduleNames table).zip (artifactList options table))[index]? = some (module, _) :=
    List.getElem?_zip_eq_some.2 ⟨hmodule, hartifact⟩
  have hlt := (List.getElem?_eq_some_iff.1 hpair).1
  rw [bundle, List.getElem?_append_left (by rwa [List.length_map]), List.getElem?_map, hpair]
  rfl

/-! ## Writing a bundle -/

theorem writeBundle_eq (directory : String) :
    writeBundle options table directory = (do
      if table.types.isEmpty then throw .noTypes
      (Store.createDirectories directory).adapt .store
      (bundle options table).mapM (Store.putText .store directory)) := rfl

/-- **A bundle is written by putting its files into the directory**, once that is made. -/
theorem run_writeBundle_eq_ok_iff {directory : String} {store after : Store} {paths : List String} :
    (writeBundle options table directory).run store = (.ok paths, after) ↔
      table.types ≠ [] ∧ ∃ between,
        (Store.createDirectories directory).run store = (.ok (), between) ∧
          paths = (bundle options table).map (joinPath directory ·.1) ∧
            Store.PutsFiles directory between (bundle options table) after := by
  rw [writeBundle_eq]
  by_cases hempty : table.types = []
  · rw [if_pos (List.isEmpty_iff.2 hempty)]
    constructor
    · intro h
      cases h
    · rintro ⟨hne, -⟩
      exact absurd hempty hne
  · rw [if_neg (by simpa using hempty)]
    constructor
    · intro h
      obtain ⟨_, between, hcreate, hput⟩ := StoreAction.run_bind_eq_ok_iff.1 h
      obtain ⟨rfl, hputs⟩ := Store.run_mapM_putText_eq_ok_iff.1 hput
      exact ⟨hempty, between, StoreAction.run_adapt_eq_ok_iff.1 hcreate, rfl, hputs⟩
    · rintro ⟨-, between, hcreate, rfl, hputs⟩
      exact StoreAction.run_bind_eq_ok_iff.2 ⟨(), between,
        StoreAction.run_adapt_eq_ok_iff.2 hcreate,
        Store.run_mapM_putText_eq_ok_iff.2 ⟨rfl, hputs⟩⟩

/-! ## All names of a table -/

/-- **No two names of the emitted source of a table clash.** -/
structure NamesApart (options : Options) (table : TypeTable) : Prop where
  /-- The fields of a struct have different identifiers. -/
  fields_nodup : ∀ type ∈ table.types, (fieldIdentifiers (type.properties.map (·.name))).Nodup
  /-- A property with a name in ASCII has a legal one. -/
  fields_legal : ∀ type ∈ table.types, ∀ (index : Nat) (property : Property),
    type.properties[index]? = some property → IsAscii property.name → ∃ identifier,
      (fieldIdentifiers (type.properties.map (·.name)))[index]? = some identifier ∧
        IsLegal identifier
  /-- The types have different identifiers. -/
  identifiers_nodup : (table.names.map (TypeIdentifiers.ofNames table.names).get).Nodup
  /-- There is one artifact a type. -/
  artifacts_length : (artifacts options table).length = table.types.length
  artifacts_get? : ∀ type ∈ table.types, NameMap.get? (artifacts options table) type.name =
    some (.ofType options table (.ofNames table.names) type)
  /-- Files have different names, and each type has its own, which is not that of the index. -/
  files_nodup : ((bundle options table).map Prod.fst).Nodup
  files_own : ∀ (index : Nat) (type : RecordType), table.types[index]? = some type →
    ∃ file, file ≠ "mod.rs" ∧ (bundle options table)[index]? =
      some (file, render (moduleLines (.ofType options table (.ofNames table.names) type)))
  /-- When all files are written, each of them has its text: none was written over. -/
  files_kept : ∀ directory store paths after,
    (writeBundle options table directory).run store = (.ok paths, after) →
      paths = (bundle options table).map (joinPath directory ·.1) ∧
        ∀ file ∈ bundle options table, after.textAt (joinPath directory file.1) = .ok file
  /-- They are written wherever no directory stands in the way. -/
  files_written : ∀ directory store between here, table.types ≠ [] →
    (Store.createDirectories directory).run store = (.ok (), between) →
      between.HasDirectory directory here →
        (∀ file ∈ bundle options table, between.entryAt? (here ++ [file.1]) ≠ some .directory) →
          ∃ paths after, (writeBundle options table directory).run store = (.ok paths, after)

/-- **No two names clash in the source that is emitted for a compiled table.** -/
theorem compile_namesApart (options : Options) (registry : Schema.Registry) (id : String) :
    NamesApart options (compile registry id) where
  fields_nodup type _ := nodup_fieldIdentifiers _
  fields_legal type _ index property hproperty hascii := by
    have hname : (type.properties.map (·.name))[index]? = some property.name := by
      rw [List.getElem?_map, hproperty, Option.map_some]
    have hlt : index < (fieldIdentifiers (type.properties.map (·.name))).length := by
      rw [length_fieldIdentifiers]
      exact (List.getElem?_eq_some_iff.1 hname).1
    have hidentifier := List.getElem?_eq_getElem hlt
    exact ⟨_, hidentifier, isLegal_of_fieldIdentifiers hname hascii hidentifier⟩
  identifiers_nodup := by
    have hnodup : (compile registry id).names.Nodup := (compiles_compile registry id).nodup_names
    rw [TypeIdentifiers.map_get_ofNames hnodup]
    exact nodup_distinct _
  artifacts_length := by
    rw [artifacts, NameMap.length_ofList, List.length_map, length_artifactList]
    rw [map_typeName_artifactList]
    exact (compiles_compile registry id).nodup_names
  artifacts_get? type htype := by
    refine NameMap.get?_ofList ?_ ?_
    · rw [map_typeName_artifactList]
      exact (compiles_compile registry id).nodup_names
    · exact List.mem_map.2 ⟨_, List.mem_map_of_mem htype, rfl⟩
  files_nodup := nodup_bundle
  files_own index type htype := by
    have hlt : index < (moduleNames (compile registry id)).length := by
      rw [length_moduleNames]
      exact (List.getElem?_eq_some_iff.1 htype).1
    have hmodule := List.getElem?_eq_getElem hlt
    refine ⟨_, fun heq => ?_, getElem?_bundle hmodule htype⟩
    have hmod : (moduleNames (compile registry id))[index] = "mod" := fileName_injective heq
    exact mod_notMem_moduleNames (hmod ▸ List.getElem_mem hlt)
  files_kept directory store paths after h := by
    obtain ⟨-, between, -, rfl, hputs⟩ := run_writeBundle_eq_ok_iff.1 h
    exact ⟨rfl, hputs.textAt isFileName_of_mem_bundle nodup_bundle⟩
  files_written directory store between here hne hcreate hhere hfree := by
    obtain ⟨after, hputs⟩ := Store.exists_putsFiles hhere isFileName_of_mem_bundle hfree
    exact ⟨_, after, run_writeBundle_eq_ok_iff.2 ⟨hne, between, hcreate, rfl, hputs⟩⟩

end FixedWidth.Emit
