import FixedWidth.NameMap
import Mathlib.Data.List.Basic

/-!
# Proofs/Maps — maps in the order of their names

A map whose names are in order has one pair for each of them, so it is the same as any other with
the same look-ups (`Ordered.ext`), and putting a value in makes it longer only under a new name. A
map made of pairs with different names holds these pairs and no others (`mem_ofList_iff`).
-/

namespace FixedWidth.NameMap

variable {α : Type _} {map : NameMap α}

/-- Names below the first one of a map have no value. -/
theorem get?_eq_none_of_lt {name : String} (h : ∀ pair ∈ map, name < pair.1) :
    NameMap.get? map name = none := by
  cases hget : NameMap.get? map name with
  | none => rfl
  | some value =>
    obtain ⟨pair, hmem, rfl⟩ := List.mem_map.1 (mem_names_of_get? hget)
    exact absurd (h pair hmem) (String.lt_irrefl _)

/-- A value under a name is one of the pairs. -/
theorem mem_of_get? {name : String} {value : α} (h : NameMap.get? map name = some value) :
    (name, value) ∈ map := by
  induction map with
  | nil => cases h
  | cons pair rest ih =>
    rw [get?] at h
    split at h
    · rename_i heq
      cases h
      exact heq ▸ List.mem_cons_self
    · exact List.mem_cons_of_mem _ (ih h)

/-- Each name of a map has a value. -/
theorem isSome_get?_of_mem_names {name : String} (h : name ∈ names map) :
    (NameMap.get? map name).isSome := by
  induction map with
  | nil => cases h
  | cons pair rest ih =>
    rw [get?]
    split
    · rfl
    · rename_i hne
      exact ih ((List.mem_cons.1 h).resolve_left fun heq => hne heq.symm)

/-- In a map, a name has at most one pair. -/
theorem filter_eq_of_ordered (h : Ordered map) (name : String) :
    (map.filter (·.1 = name)).map Prod.snd = (get? map name).toList := by
  induction map with
  | nil => rfl
  | cons pair rest ih =>
    obtain ⟨key, value⟩ := pair
    obtain ⟨hkey, hrest⟩ := List.pairwise_cons.1 h
    rw [get?]
    by_cases hname : key = name
    · subst hname
      rw [if_pos rfl, List.filter_cons_of_pos (by simp), List.map_cons, ih hrest,
        get?_eq_none_of_lt hkey]
      rfl
    · rw [if_neg hname, List.filter_cons_of_neg (by simpa using hname), ih hrest]

/-- A value under a new name makes a map longer, and one in place of another does not. -/
theorem length_insert (h : Ordered map) (name : String) (value : α) :
    (insert map name value).length + (get? map name).toList.length = map.length + 1 := by
  fun_induction insert map name value with
  | case1 => rfl
  | case2 => simp [get?]
  | case3 key old rest name value hne hlt =>
    have hnone : get? ((key, old) :: rest) name = none :=
      get?_eq_none_of_lt (List.forall_mem_cons.2
        ⟨hlt, fun pair hmem => String.lt_trans hlt ((List.pairwise_cons.1 h).1 pair hmem)⟩)
    rw [hnone]
    rfl
  | case4 key old rest name value hne hnlt ih =>
    have := ih (List.pairwise_cons.1 h).2
    rw [get?, if_neg fun heq => hne heq.symm, List.length_cons, List.length_cons]
    omega

/-- A map without a name does not begin behind it. -/
theorem Ordered.not_lt_of_isSome {key name : String} {value : α} {rest : NameMap α}
    (h : Ordered ((key, value) :: rest))
    (hname : (NameMap.get? ((key, value) :: rest) name).isSome) : ¬ name < key := by
  intro hlt
  have hall : ∀ pair ∈ (key, value) :: rest, name < pair.1 := List.forall_mem_cons.2
    ⟨hlt, fun pair hmem => String.lt_trans hlt ((List.pairwise_cons.1 h).1 pair hmem)⟩
  simp [get?_eq_none_of_lt hall] at hname

/-- **Maps with the same look-ups are the same list.** -/
theorem Ordered.ext {map' : NameMap α} (h : Ordered map) (h' : Ordered map')
    (heq : ∀ name, NameMap.get? map name = NameMap.get? map' name) : map = map' := by
  induction map generalizing map' with
  | nil =>
    cases map' with
    | nil => rfl
    | cons pair rest' => simpa [NameMap.get?] using heq pair.1
  | cons pair rest ih =>
    obtain ⟨key, value⟩ := pair
    cases map' with
    | nil => simpa [NameMap.get?] using heq key
    | cons pair' rest' =>
      obtain ⟨key', value'⟩ := pair'
      have hsame : key = key' := String.le_antisymm
        (String.not_lt.1 (h.not_lt_of_isSome (by rw [heq]; simp [NameMap.get?])))
        (String.not_lt.1 (h'.not_lt_of_isSome (by rw [← heq]; simp [NameMap.get?])))
      subst hsame
      obtain ⟨hkey, hrest⟩ := List.pairwise_cons.1 h
      obtain ⟨hkey', hrest'⟩ := List.pairwise_cons.1 h'
      have hvalue : value = value' := by simpa [NameMap.get?] using heq key
      have htail : rest = rest' := ih hrest hrest' fun name => by
        obtain rfl | hne := eq_or_ne key name
        · rw [get?_eq_none_of_lt hkey, get?_eq_none_of_lt hkey']
        · simpa [NameMap.get?, hne] using heq name
      rw [hvalue, htail]

/-- In a map, a name has the value that it is paired with. -/
theorem get?_eq_some_iff (h : Ordered map) {name : String} {value : α} :
    NameMap.get? map name = some value ↔ (name, value) ∈ map := by
  refine ⟨mem_of_get?, fun hmem => ?_⟩
  have hfilter : value ∈ (map.filter (·.1 = name)).map Prod.snd :=
    List.mem_map.2 ⟨(name, value), List.mem_filter.2 ⟨hmem, by simp⟩, rfl⟩
  rwa [filter_eq_of_ordered h, Option.mem_toList] at hfilter

/-! ## Maps made of pairs -/

variable {pairs : List (String × α)}

/-- Pairs with other names do not change a look-up. -/
theorem get?_foldl_insert_of_notMem {name : String} (h : name ∉ pairs.map Prod.fst) :
    NameMap.get? (pairs.foldl (fun map pair => insert map pair.1 pair.2) map) name =
      NameMap.get? map name := by
  induction pairs generalizing map with
  | nil => rfl
  | cons pair rest ih =>
    rw [List.map_cons, List.mem_cons, not_or] at h
    rw [List.foldl_cons, ih h.2, get?_insert_of_ne map (Ne.symm h.1)]

theorem get?_foldl_insert_of_mem (h : (pairs.map Prod.fst).Nodup) {name : String} {value : α}
    (hmem : (name, value) ∈ pairs) :
    NameMap.get? (pairs.foldl (fun map pair => insert map pair.1 pair.2) map) name =
      some value := by
  induction pairs generalizing map with
  | nil => cases hmem
  | cons pair rest ih =>
    rw [List.map_cons, List.nodup_cons] at h
    rw [List.foldl_cons]
    obtain rfl | hrest := List.mem_cons.1 hmem
    · rw [get?_foldl_insert_of_notMem h.1, get?_insert_self]
    · exact ih h.2 hrest

/-- **Where names differ, each pair is found under its name.** -/
theorem get?_ofList (h : (pairs.map Prod.fst).Nodup) {name : String} {value : α}
    (hmem : (name, value) ∈ pairs) : NameMap.get? (ofList pairs) name = some value :=
  get?_foldl_insert_of_mem h hmem

theorem length_foldl_insert (hmap : Ordered map) (h : (pairs.map Prod.fst).Nodup)
    (hfresh : ∀ pair ∈ pairs, NameMap.get? map pair.1 = none) :
    (pairs.foldl (fun map pair => insert map pair.1 pair.2) map).length =
      map.length + pairs.length := by
  induction pairs generalizing map with
  | nil => rfl
  | cons pair rest ih =>
    rw [List.map_cons, List.nodup_cons] at h
    rw [List.forall_mem_cons] at hfresh
    have hnext : ∀ other ∈ rest, NameMap.get? (insert map pair.1 pair.2) other.1 = none := by
      intro other hother
      have hne : pair.1 ≠ other.1 := fun heq => h.1 (List.mem_map.2 ⟨other, hother, heq.symm⟩)
      rw [get?_insert_of_ne map hne, hfresh.2 other hother]
    have hlength := length_insert hmap pair.1 pair.2
    rw [hfresh.1, Option.toList_none, List.length_nil, Nat.add_zero] at hlength
    rw [List.foldl_cons, ih (hmap.insert pair.1 pair.2) h.2 hnext, hlength, List.length_cons]
    omega

/-- Where names differ, a map has as many pairs as it was made of. -/
theorem length_ofList (h : (pairs.map Prod.fst).Nodup) : (ofList pairs).length = pairs.length := by
  rw [ofList, length_foldl_insert List.Pairwise.nil h fun _ _ => rfl]
  exact Nat.zero_add _

theorem Ordered.foldl_insert (hmap : Ordered map) :
    Ordered (pairs.foldl (fun map pair => NameMap.insert map pair.1 pair.2) map) := by
  induction pairs generalizing map with
  | nil => exact hmap
  | cons pair rest ih => exact ih (hmap.insert pair.1 pair.2)

theorem ordered_ofList (pairs : List (String × α)) : Ordered (ofList pairs) :=
  Ordered.foldl_insert List.Pairwise.nil

/-- What is in a map was put in, or was there before. -/
theorem mem_of_mem_foldl_insert {pair : String × α}
    (h : pair ∈ pairs.foldl (fun map pair => insert map pair.1 pair.2) map) :
    pair ∈ pairs ∨ pair ∈ map := by
  induction pairs generalizing map with
  | nil => exact .inr h
  | cons first rest ih =>
    obtain hrest | hmap := ih h
    · exact .inl (List.mem_cons_of_mem _ hrest)
    · obtain rfl | hold := mem_of_mem_insert hmap
      · exact .inl List.mem_cons_self
      · exact .inr hold

/-- **Where names differ, a map holds the pairs that it was made of**, and no others. -/
theorem mem_ofList_iff (h : (pairs.map Prod.fst).Nodup) {name : String} {value : α} :
    (name, value) ∈ ofList pairs ↔ (name, value) ∈ pairs :=
  ⟨fun hmem => (mem_of_mem_foldl_insert hmem).resolve_right List.not_mem_nil,
    fun hmem => mem_of_get? (get?_ofList h hmem)⟩

end FixedWidth.NameMap
