/-!
# NameMap — association lists ordered by name

A `NameMap` pairs names with values, at most once each and in the order of their code points,
which is also the order of their UTF-8 bytes. `NameMap.insert` keeps that order, so two maps with
the same look-ups are the same list. The look-up laws `get?_insert_self` and
`get?_insert_of_ne` need no assumption on the list.
-/

namespace FixedWidth

/-- Values under names, in the order of the names. -/
abbrev NameMap (α : Type _) := List (String × α)

namespace NameMap

variable {α : Type _}

/-- The value under a name. -/
def get? : NameMap α → String → Option α
  | [], _ => none
  | (key, value) :: rest, name => if key = name then some value else NameMap.get? rest name

/-- Whether a name has a value. -/
def contains (map : NameMap α) (name : String) : Bool := (NameMap.get? map name).isSome

/-- Puts a value under a name, in place of the one that was there. -/
def insert : NameMap α → String → α → NameMap α
  | [], name, value => [(name, value)]
  | (key, old) :: rest, name, value =>
    if name = key then (name, value) :: rest
    else if name < key then (name, value) :: (key, old) :: rest
    else (key, old) :: NameMap.insert rest name value

/-- Puts pairs in from left to right, so that the last one of a name stays. -/
def ofList (pairs : List (String × α)) : NameMap α :=
  pairs.foldl (fun map pair => NameMap.insert map pair.1 pair.2) []

/-- The names in order. -/
def names (map : NameMap α) : List String := map.map Prod.fst

/-- Each name is below the names after it. -/
def Ordered (map : NameMap α) : Prop := map.Pairwise fun a b => a.1 < b.1

theorem get?_insert_self (map : NameMap α) (name : String) (value : α) :
    NameMap.get? (NameMap.insert map name value) name = some value := by
  fun_induction NameMap.insert map name value with
  | case1 => simp [NameMap.get?]
  | case2 => simp [NameMap.get?]
  | case3 => simp [NameMap.get?]
  | case4 key old rest name value hne _ ih =>
    rw [NameMap.get?, if_neg (fun h => hne h.symm), ih]

theorem get?_insert_of_ne (map : NameMap α) {name other : String} (h : name ≠ other) (value : α) :
    NameMap.get? (NameMap.insert map name value) other = NameMap.get? map other := by
  fun_induction NameMap.insert map name value with
  | case1 => simp [NameMap.get?, h]
  | case2 => simp [NameMap.get?, h]
  | case3 => simp [NameMap.get?, h]
  | case4 key old rest name value hne _ ih => rw [NameMap.get?, NameMap.get?, ih h]

/-- A name with a value is one of the names. -/
theorem mem_names_of_get? {map : NameMap α} {name : String} {value : α}
    (h : NameMap.get? map name = some value) : name ∈ names map := by
  fun_induction NameMap.get? map name with
  | case1 => simp at h
  | case2 => simp [names]
  | case3 key old rest name hne ih => exact List.mem_cons_of_mem _ (ih h)

/-- What is in a map after a value was put in was put in, or was there before. -/
theorem mem_of_mem_insert {map : NameMap α} {name : String} {value : α} {pair : String × α}
    (h : pair ∈ NameMap.insert map name value) : pair = (name, value) ∨ pair ∈ map := by
  fun_induction NameMap.insert map name value with
  | case1 => exact Or.inl (List.mem_singleton.1 h)
  | case2 =>
    obtain rfl | hrest := List.mem_cons.1 h
    · exact Or.inl rfl
    · exact Or.inr (List.mem_cons_of_mem _ hrest)
  | case3 =>
    obtain rfl | hrest := List.mem_cons.1 h
    · exact Or.inl rfl
    · exact Or.inr hrest
  | case4 _ _ _ _ _ _ _ ih =>
    obtain rfl | hrest := List.mem_cons.1 h
    · exact Or.inr List.mem_cons_self
    · obtain heq | hmem := ih hrest
      · exact Or.inl heq
      · exact Or.inr (List.mem_cons_of_mem _ hmem)

/-- **Putting a value in keeps the order.** -/
theorem Ordered.insert {map : NameMap α} (h : Ordered map) (name : String) (value : α) :
    Ordered (NameMap.insert map name value) := by
  fun_induction NameMap.insert map name value with
  | case1 => exact List.pairwise_singleton _ _
  | case2 => exact List.pairwise_cons.2 (List.pairwise_cons.1 h)
  | case3 key old rest name value _ hlt =>
    refine List.pairwise_cons.2 ⟨fun pair hmem => ?_, h⟩
    obtain rfl | hrest := List.mem_cons.1 hmem
    · exact hlt
    · exact String.lt_trans hlt ((List.pairwise_cons.1 h).1 pair hrest)
  | case4 key old rest name value hne hnlt ih =>
    obtain ⟨hkey, hrest⟩ := List.pairwise_cons.1 h
    refine List.pairwise_cons.2 ⟨fun pair hmem => ?_, ih hrest⟩
    obtain rfl | hmem := mem_of_mem_insert hmem
    · exact String.not_le.1 fun hle => hne (String.le_antisymm hle (String.not_lt.1 hnlt))
    · exact hkey pair hmem

end NameMap

end FixedWidth
