import FixedWidth.Proofs.Maps
import FixedWidth.Proofs.WellNamed

/-!
# Proofs/Contents — what a directory holds

    here ++ [name] ↦ entry      ⇄      name ↦ entry

Where each place has one entry, the contents of a directory are the entries one step below it, each
under the name of that step (`WellNamed.mem_contents_iff`). Taking away a file takes its name from
the contents of its directory, and a path that led to a directory still does
(`WellNamed.contents_erase`, `WellNamed.hasDirectory_erase`).
-/

namespace FixedWidth

variable {here place other : Location} {name path : String} {entry : Entry} {store : Store}

/-! ## Names in a directory -/

/-- The name of a place in a directory, if it is one step below it. -/
def Location.nameIn (here place : Location) : Option String :=
  if place.dropLast = here then place.getLast? else none

theorem Location.nameIn_eq_some_iff : here.nameIn place = some name ↔ place = here ++ [name] := by
  rw [nameIn]
  obtain rfl | ⟨above, last, rfl⟩ := List.eq_nil_or_concat place
  · simp
  · simp

namespace Store

/-- Looking up a place finds its only entry. -/
theorem lookup_eq_some_iff {entries : List (Location × Entry)}
    (h : (entries.map Prod.fst).Nodup) :
    entries.lookup place = some entry ↔ (place, entry) ∈ entries := by
  induction entries with
  | nil => simp
  | cons pair rest ih =>
    obtain ⟨key, value⟩ := pair
    obtain ⟨hkey, hrest⟩ := List.nodup_cons.1 h
    rw [List.lookup_cons, List.mem_cons]
    by_cases hplace : place = key
    · subst hplace
      have hout : (place, entry) ∉ rest := fun hmem => hkey (List.mem_map.2 ⟨_, hmem, rfl⟩)
      simp [hout, eq_comm]
    · have hapart : (place == key) = false := by simpa using hplace
      simp [hplace, hapart, ih hrest]

theorem WellNamed.entryAt?_eq_some_iff (h : store.WellNamed) (hplace : place ≠ []) :
    store.entryAt? place = some entry ↔ (place, entry) ∈ store.entries := by
  rw [entryAt?, if_neg hplace, lookup_eq_some_iff h.places]

/-! ## The contents of a directory -/

/-- The entries one step below a place, with their names. -/
def below (store : Store) (here : Location) : List (String × Entry) :=
  store.entries.filterMap fun pair => (here.nameIn pair.1).map (·, pair.2)

theorem contents_eq (store : Store) (here : Location) :
    store.contents here = NameMap.ofList (store.below here) := by
  rw [contents, below]
  congr 2
  funext ⟨place, entry⟩
  rw [Location.nameIn]
  dsimp only
  cases place.getLast? <;> split_ifs <;> rfl

theorem mem_below_iff :
    (name, entry) ∈ store.below here ↔ (here ++ [name], entry) ∈ store.entries := by
  simp only [below, List.mem_filterMap, Option.map_eq_some_iff, Prod.mk.injEq]
  constructor
  · rintro ⟨⟨place, _⟩, hmem, other, hname, rfl, rfl⟩
    obtain rfl := Location.nameIn_eq_some_iff.1 hname
    exact hmem
  · intro hmem
    exact ⟨_, hmem, name, Location.nameIn_eq_some_iff.2 rfl, rfl, rfl⟩

/-- Places of their own have names of their own. -/
theorem WellNamed.nodup_below (h : store.WellNamed) (here : Location) :
    ((store.below here).map Prod.fst).Nodup := by
  have hnames : (store.below here).map Prod.fst =
      (store.entries.map Prod.fst).filterMap here.nameIn := by
    rw [below, List.map_filterMap, List.filterMap_map]
    congr 1
    funext pair
    rw [Option.map_map]
    exact Option.map_id'
  rw [hnames]
  refine h.places.filterMap fun place place' name hplace hplace' => ?_
  rw [Location.nameIn_eq_some_iff.1 hplace, Location.nameIn_eq_some_iff.1 hplace']

theorem ordered_contents (store : Store) (here : Location) :
    NameMap.Ordered (store.contents here) := by
  rw [contents_eq]
  exact NameMap.ordered_ofList _

/-- **A directory holds what is one step below it.** -/
theorem WellNamed.mem_contents_iff (h : store.WellNamed) :
    (name, entry) ∈ store.contents here ↔ store.entryAt? (here ++ [name]) = some entry := by
  rw [contents_eq, NameMap.mem_ofList_iff (h.nodup_below here), mem_below_iff,
    h.entryAt?_eq_some_iff (by simp)]

/-- What a directory holds has a name of a file. -/
theorem WellNamed.isFileName (h : store.WellNamed)
    (hentry : store.entryAt? (here ++ [name]) = some entry) : IsFileName name := by
  rw [h.entryAt?_eq_some_iff (by simp)] at hentry
  exact h.names _ hentry name (by simp)

/-- **The contents of the directory at a path.** -/
theorem HasDirectory.contentsAt (h : store.HasDirectory path here) :
    store.contentsAt path = .ok (store.contents here) := by
  have hrequire := requireDirectory_eq_ok_iff.2 h.entry_eq
  have hlocate : store.locate path = .ok here := by
    change store.walk (store.start path)
      (namesOnPath path ++ if endsWithSlash path then ["."] else []) = .ok here
    rw [walk_append, h.walk_eq]
    split
    · simp only [Except.bind, walk, hrequire]
      rfl
    · rfl
  rw [Store.contentsAt, hlocate]
  simp only [bind, Except.bind, hrequire]
  rfl

/-! ## Taking a file away -/

/-- The store without what is at a place. -/
def erase (store : Store) (place : Location) : Store :=
  { store with entries := store.entries.filter (·.1 ≠ place) }

theorem WellNamed.erase (h : store.WellNamed) (place : Location) :
    (store.erase place).WellNamed where
  places := h.places.sublist (List.filter_sublist.map _)
  names pair hmem := h.names pair (List.mem_filter.1 hmem).1
  working := h.working

theorem WellNamed.entryAt?_erase (h : store.WellNamed) (hne : other ≠ place) :
    (store.erase place).entryAt? other = store.entryAt? other := by
  obtain rfl | hother := eq_or_ne other []
  · rfl
  · refine Option.ext fun entry => ?_
    rw [(h.erase place).entryAt?_eq_some_iff hother, h.entryAt?_eq_some_iff hother, Store.erase,
      List.mem_filter]
    simp [hne]

/-- **Without a file, the directory that it was in holds the same except for its name.** -/
theorem WellNamed.contents_erase (h : store.WellNamed) (here : Location) (name : String) :
    (store.erase (here ++ [name])).contents here =
      (store.contents here).filter (·.1 ≠ name) := by
  refine (ordered_contents _ _).ext ((ordered_contents _ _).filter _) fun other =>
    Option.ext fun entry => ?_
  rw [NameMap.get?_eq_some_iff (ordered_contents _ _),
    NameMap.get?_eq_some_iff ((ordered_contents _ _).filter _), List.mem_filter,
    (h.erase _).mem_contents_iff, h.mem_contents_iff,
    (h.erase _).entryAt?_eq_some_iff (by simp), h.entryAt?_eq_some_iff (by simp), Store.erase,
    List.mem_filter]
  simp

/-- Without what is no directory, directories are where they were. -/
theorem WellNamed.hasDirectory_erase (h : store.WellNamed) (hhere : store.HasDirectory path here)
    (hfree : store.entryAt? place ≠ some .directory) :
    (store.erase place).HasDirectory path here := by
  have hkeep : ∀ other, store.entryAt? other = some .directory →
      (store.erase place).entryAt? other = some .directory := by
    intro other hother
    have hne : other ≠ place := by
      rintro rfl
      exact hfree hother
    rw [h.entryAt?_erase hne, hother]
  exact hhere.of_directories rfl fun other hother =>
    requireDirectory_eq_ok_iff.2 (hkeep other (requireDirectory_eq_ok_iff.1 hother))

end Store

end FixedWidth
