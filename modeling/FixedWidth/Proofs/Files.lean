import FixedWidth.Store.Write
import Mathlib.Data.List.Basic

/-!
# Proofs/Files — files that are put into one directory

    directory ──▸ place ──name──▸ place of the file ──put──▸ next file ──▸ …

A path that joins a directory and a name leads to the place of the directory, one step of that name
further (`locate_joinPath_iff`). Putting a file anywhere but over a directory leaves directories
what they are, so the directory stays where it is, and files of different names stay apart: in the
end each of them has its text (`PutsFiles.textAt`).
-/

namespace FixedWidth

/-! ## Actions that succeed -/

namespace StoreAction

variable {ε δ α β : Type} {store after : Store}

/-- An action runs, and what follows it runs where it left off. -/
theorem run_bind (action : StoreAction ε α) (next : α → StoreAction ε β) (store : Store) :
    (action >>= next).run store = match action.run store with
      | (.ok a, between) => (next a).run between
      | (.error cause, between) => (.error cause, between) := by
  simp only [ExceptT.run, bind, ExceptT.bind, ExceptT.mk, StateT.bind, ExceptT.bindCont]
  cases action store with
  | mk result between => cases result <;> rfl

/-- **An action succeeds if it does so step by step.** -/
theorem run_bind_eq_ok_iff {action : StoreAction ε α} {next : α → StoreAction ε β} {b : β} :
    (action >>= next).run store = (.ok b, after) ↔
      ∃ a between, action.run store = (.ok a, between) ∧
        (next a).run between = (.ok b, after) := by
  rw [run_bind]
  constructor
  · intro h
    split at h
    · exact ⟨_, _, ‹_›, h⟩
    · cases h
  · rintro ⟨a, between, hfirst, hnext⟩
    rw [hfirst]
    exact hnext

/-- An action succeeds under other errors as it does under its own. -/
theorem run_adapt_eq_ok_iff {action : StoreAction ε α} {f : ε → δ} {a : α} :
    (action.adapt f).run store = (.ok a, after) ↔ action.run store = (.ok a, after) := by
  have hadapt : (action.adapt f).run store =
      ((action.run store).1.mapError f, (action.run store).2) := rfl
  rw [hadapt]
  obtain ⟨_ | _, between⟩ := action.run store
  · constructor <;>
    · intro h
      cases h
  · constructor <;>
    · intro h
      cases h
      rfl

theorem run_get (store : Store) : (get : StoreAction ε Store).run store = (.ok store, store) := rfl

theorem run_liftM (found : Except ε α) (store : Store) :
    (liftM found : StoreAction ε α).run store = (found, store) := by
  cases found <;> rfl

end StoreAction

namespace Store

variable {store after : Store} {path directory name : String} {bytes : ByteArray}
  {here place other : Location} {steps more : List String}

/-- Putting a file, as a function of the store. -/
theorem run_putFile (store : Store) (path : String) (bytes : ByteArray) :
    (putFile path bytes).run store =
      match store.locate path with
      | .error cause => (.error cause, store)
      | .ok place =>
        if store.entryAt? place = some .directory then (.error .isADirectory, store)
        else (.ok (), store.put place (.file bytes)) := by
  rw [putFile, StoreAction.run_bind, StoreAction.run_get]
  dsimp only
  rw [StoreAction.run_bind, StoreAction.run_liftM]
  cases store.locate path with
  | error => rfl
  | ok place =>
    dsimp only
    split
    · rename_i hentry
      rw [if_pos hentry]
      rfl
    · rename_i hentry
      rw [if_neg hentry]
      rfl

/-- **A file is put where its path leads**, but not over a directory. -/
theorem run_putFile_eq_ok_iff :
    (putFile path bytes).run store = (.ok (), after) ↔
      ∃ place, store.locate path = .ok place ∧ store.entryAt? place ≠ some .directory ∧
        after = store.put place (.file bytes) := by
  rw [run_putFile]
  constructor
  · intro h
    split at h
    · cases h
    · rename_i place hlocate
      split at h
      · cases h
      · rename_i hfree
        cases h
        exact ⟨place, hlocate, hfree, rfl⟩
  · rintro ⟨place, hlocate, hfree, rfl⟩
    rw [hlocate]
    exact if_neg hfree

/-! ## Where a path leads -/

theorem requireDirectory_eq_ok_iff :
    store.requireDirectory place = .ok () ↔ store.entryAt? place = some .directory := by
  rw [requireDirectory]
  split <;> simp_all

theorem walk_append (store : Store) (here : Location) (steps more : List String) :
    store.walk here (steps ++ more) = (store.walk here steps).bind (store.walk · more) := by
  induction steps generalizing here with
  | nil => rfl
  | cons name rest ih =>
    rw [List.cons_append, walk, walk, ih]
    cases store.requireDirectory here <;> rfl

/-- A text without slashes is one piece. -/
theorem piecesOfPath_of_notMem {list : List Char} (h : '/' ∉ list) :
    piecesOfPath list = [list] := by
  fun_induction piecesOfPath list with
  | case1 => rfl
  | case2 => simp at h
  | case3 _ _ _ hnil => exact absurd hnil (piecesOfPath_ne_nil _)
  | case4 c rest _ piece pieces hpieces ih =>
    rw [List.mem_cons, not_or] at h
    rw [ih h.2] at hpieces
    cases hpieces
    rfl

/-- A slash divides the pieces before it from those behind it. -/
theorem piecesOfPath_append (front back : List Char) :
    piecesOfPath (front ++ '/' :: back) = piecesOfPath front ++ piecesOfPath back := by
  fun_induction piecesOfPath front with
  | case1 => rfl
  | case2 rest ih => rw [List.cons_append, piecesOfPath, ih, List.cons_append]
  | case3 _ _ _ hnil => exact absurd hnil (piecesOfPath_ne_nil _)
  | case4 c rest hslash piece pieces hpieces ih =>
    rw [hpieces] at ih
    rw [List.cons_append, piecesOfPath, ih]
    · rfl
    · exact hslash

/-- The names on a path. -/
def namesOnPath (path : String) : List String :=
  ((piecesOfPath path.toList).filter (!·.isEmpty)).map String.ofList

/-- A name of a file: not empty, without slashes, and no dots that mean a directory. -/
structure IsFileName (name : String) : Prop where
  ne_empty : name ≠ ""
  slash_notMem : '/' ∉ name.toList
  ne_dot : name ≠ "."
  ne_dots : name ≠ ".."

theorem IsFileName.toList_ne_nil (h : IsFileName name) : name.toList ≠ [] := fun hnil =>
  h.ne_empty (String.toList_inj.1 hnil)

theorem IsFileName.endsWithSlash_append (h : IsFileName name) (front : String) :
    endsWithSlash (front ++ name) = false := by
  obtain ⟨last, hlast⟩ := Option.isSome_iff_exists.1 (List.getLast?_isSome.2 h.toList_ne_nil)
  rw [endsWithSlash, String.toList_append, List.getLast?_append, hlast]
  have hne : last ≠ '/' := fun heq => h.slash_notMem (heq ▸ List.mem_of_getLast? hlast)
  simp [hne]

theorem namesOnPath_of_isFileName (h : IsFileName name) : namesOnPath name = [name] := by
  rw [namesOnPath, piecesOfPath_of_notMem h.slash_notMem]
  simp [h.toList_ne_nil]

theorem namesOnPath_append (front back : String) :
    namesOnPath (front ++ "/" ++ back) = namesOnPath front ++ namesOnPath back := by
  have hlist : (front ++ "/" ++ back).toList = front.toList ++ '/' :: back.toList := by simp
  rw [namesOnPath, hlist, piecesOfPath_append, List.filter_append, List.map_append]
  rfl

/-- A slash at the end brings no name. -/
theorem namesOnPath_slash (front : String) : namesOnPath (front ++ "/") = namesOnPath front := by
  have h := namesOnPath_append front ""
  rwa [String.append_empty, show namesOnPath "" = [] from rfl, List.append_nil] at h

theorem exists_of_endsWithSlash (h : endsWithSlash path = true) : ∃ front, path = front ++ "/" := by
  have hlast : path.toList.getLast? = some '/' := by simpa [endsWithSlash] using h
  refine ⟨String.ofList path.toList.dropLast, String.toList_inj.1 ?_⟩
  rw [String.toList_append, String.toList_ofList]
  exact (List.dropLast_append_getLast? '/' hlast).symm

theorem namesOnPath_joinPath (h : IsFileName name) (directory : String) :
    namesOnPath (joinPath directory name) = namesOnPath directory ++ [name] := by
  rw [joinPath]
  split
  · rename_i hjoin
    obtain hempty | hslash := Bool.or_eq_true_iff.1 hjoin
    · obtain rfl : directory = "" := by simpa using hempty
      rw [String.empty_append, namesOnPath_of_isFileName h]
      rfl
    · obtain ⟨front, rfl⟩ := exists_of_endsWithSlash hslash
      rw [namesOnPath_append, namesOnPath_slash, namesOnPath_of_isFileName h]
  · rw [namesOnPath_append, namesOnPath_of_isFileName h]

/-- **The path of a file leads along the path of its directory, and one step further.** -/
theorem pathSteps_joinPath (h : IsFileName name) (directory : String) :
    pathSteps (joinPath directory name) = namesOnPath directory ++ [name] := by
  have hslash : endsWithSlash (joinPath directory name) = false := by
    rw [joinPath]
    split <;> exact h.endsWithSlash_append _
  rw [← namesOnPath_joinPath h, pathSteps, hslash]
  exact List.append_nil _

theorem isAbsolutePath_append (hpath : path ≠ "") (more : String) :
    isAbsolutePath (path ++ more) = isAbsolutePath path := by
  have hlist : path.toList ≠ [] := fun hnil => hpath (String.toList_inj.1 hnil)
  obtain ⟨first, rest, hcons⟩ := List.exists_cons_of_ne_nil hlist
  rw [isAbsolutePath, isAbsolutePath, String.toList_append, hcons]
  rfl

theorem start_joinPath (h : IsFileName name) (store : Store) (directory : String) :
    store.start (joinPath directory name) = store.start directory := by
  have habsolute : isAbsolutePath (joinPath directory name) = isAbsolutePath directory := by
    obtain rfl | hne := eq_or_ne directory ""
    · have hname : isAbsolutePath name = false := by
        obtain ⟨first, rest, hcons⟩ := List.exists_cons_of_ne_nil h.toList_ne_nil
        have hslash := h.slash_notMem
        rw [hcons, List.mem_cons, not_or] at hslash
        simpa [isAbsolutePath, hcons] using Ne.symm hslash.1
      exact (congrArg isAbsolutePath (String.empty_append (s := name))).trans hname
    · rw [joinPath]
      split
      · exact isAbsolutePath_append hne name
      · rw [String.append_assoc]
        exact isAbsolutePath_append hne _
  rw [start, start, habsolute]

/-- **Where a directory is.** -/
structure HasDirectory (store : Store) (path : String) (place : Location) : Prop where
  walk_eq : store.walk (store.start path) (namesOnPath path) = .ok place
  entry_eq : store.entryAt? place = some .directory

theorem IsFileName.step_eq (h : IsFileName name) (here : Location) :
    here.step name = here ++ [name] := by
  rw [Location.step, if_neg h.ne_dot, if_neg h.ne_dots]

/-- **The path of a file leads to the place of its name in the directory.** -/
theorem locate_joinPath_iff (h : IsFileName name) :
    store.locate (joinPath directory name) = .ok place ↔
      ∃ here, store.HasDirectory directory here ∧ place = here ++ [name] := by
  have hlocate : store.locate (joinPath directory name) =
      (store.walk (store.start directory) (namesOnPath directory)).bind fun here =>
        (store.requireDirectory here).map fun _ => here ++ [name] := by
    rw [locate, start_joinPath h, pathSteps_joinPath h, walk_append]
    congr 1
    funext here
    rw [walk, ← h.step_eq]
    cases store.requireDirectory here <;> rfl
  rw [hlocate]
  constructor
  · intro hbind
    cases hwalk : store.walk (store.start directory) (namesOnPath directory) with
    | error =>
      rw [hwalk] at hbind
      cases hbind
    | ok here =>
      rw [hwalk] at hbind
      cases hrequire : store.requireDirectory here with
      | error => simp [Except.bind, Except.map, hrequire] at hbind
      | ok =>
        simp only [Except.bind, Except.map, hrequire, Except.ok.injEq] at hbind
        exact ⟨here, ⟨hwalk, requireDirectory_eq_ok_iff.1 hrequire⟩, hbind.symm⟩
  · rintro ⟨here, hhere, rfl⟩
    simp only [hhere.walk_eq, Except.bind, requireDirectory_eq_ok_iff.2 hhere.entry_eq, Except.map]

/-! ## Files side by side -/

theorem requireDirectory_put (hfree : store.entryAt? place ≠ some .directory)
    (h : store.requireDirectory here = .ok ()) (bytes : ByteArray) :
    (store.put place (.file bytes)).requireDirectory here = .ok () := by
  rw [requireDirectory_eq_ok_iff] at h ⊢
  have hne : place ≠ here := by
    rintro rfl
    exact hfree h
  rw [entryAt?_put_of_ne store hne, h]

/-- A way along directories stays open where they stay directories. -/
theorem walk_of_directories (h : store.walk here steps = .ok other)
    (hkeep : ∀ place, store.requireDirectory place = .ok () →
      after.requireDirectory place = .ok ()) :
    after.walk here steps = .ok other := by
  induction steps generalizing here with
  | nil => exact h
  | cons name rest ih =>
    rw [walk] at h ⊢
    cases hrequire : store.requireDirectory here with
    | error =>
      rw [hrequire] at h
      cases h
    | ok =>
      rw [hrequire] at h
      rw [hkeep here hrequire]
      exact ih h

/-- A directory is found by its path where directories stay directories. -/
theorem HasDirectory.of_directories (h : store.HasDirectory directory here)
    (hstart : after.workingDirectory = store.workingDirectory)
    (hkeep : ∀ place, store.requireDirectory place = .ok () →
      after.requireDirectory place = .ok ()) :
    after.HasDirectory directory here where
  walk_eq := by
    rw [start, hstart]
    exact walk_of_directories h.walk_eq hkeep
  entry_eq := requireDirectory_eq_ok_iff.1 (hkeep here (requireDirectory_eq_ok_iff.2 h.entry_eq))

/-- Files that are put leave the way along directories open. -/
theorem HasDirectory.put (h : store.HasDirectory directory here)
    (hfree : store.entryAt? place ≠ some .directory) (bytes : ByteArray) :
    (store.put place (.file bytes)).HasDirectory directory here :=
  h.of_directories rfl fun _ hrequire => requireDirectory_put hfree hrequire bytes

/-- **Texts that are put into a directory, one after the other, each under its name.** -/
inductive PutsFiles (directory : String) : Store → List (String × String) → Store → Prop
  | nil {store : Store} : PutsFiles directory store [] store
  | cons {store after : Store} {place : Location} {name text : String}
      {files : List (String × String)}
      (located : store.locate (joinPath directory name) = .ok place)
      (free : store.entryAt? place ≠ some .directory)
      (rest : PutsFiles directory (store.put place (.file text.toUTF8)) files after) :
    PutsFiles directory store ((name, text) :: files) after

variable {files : List (String × String)} {text : String}

theorem PutsFiles.hasDirectory (h : PutsFiles directory store files after)
    (hhere : store.HasDirectory directory here) : after.HasDirectory directory here := by
  induction h with
  | nil => exact hhere
  | cons _ free _ ih => exact ih (hhere.put free _)

/-- A place of another name is left as it is. -/
theorem PutsFiles.entryAt?_eq (h : PutsFiles directory store files after)
    (hnames : ∀ file ∈ files, IsFileName file.1) (hname : name ∉ files.map Prod.fst) :
    after.entryAt? (here ++ [name]) = store.entryAt? (here ++ [name]) := by
  induction h with
  | nil => rfl
  | @cons _ _ place other _ _ located _ _ ih =>
    rw [List.forall_mem_cons] at hnames
    rw [List.map_cons, List.mem_cons, not_or] at hname
    obtain ⟨there, -, rfl⟩ := (locate_joinPath_iff hnames.1).1 located
    have hne : there ++ [other] ≠ here ++ [name] := fun heq =>
      hname.1 (by simpa using (congrArg List.getLast? heq).symm)
    rw [ih hnames.2 hname.2, entryAt?_put_of_ne _ hne]

theorem textOf_toUTF8 (text : String) : textOf (.file text.toUTF8) = .ok text := by
  have hread : String.fromUTF8? text.toUTF8 = some text := by
    rw [String.fromUTF8?, String.toUTF8_eq_toByteArray, dif_pos text.isValidUTF8]
    rfl
  rw [textOf, hread]

/-- **Where nothing stands in the way, files are put.** -/
theorem exists_putsFiles (hhere : store.HasDirectory directory here)
    (hnames : ∀ file ∈ files, IsFileName file.1)
    (hfree : ∀ file ∈ files, store.entryAt? (here ++ [file.1]) ≠ some .directory) :
    ∃ after, PutsFiles directory store files after := by
  induction files generalizing store with
  | nil => exact ⟨store, .nil⟩
  | cons file rest ih =>
    rw [List.forall_mem_cons] at hnames hfree
    have hnext : ∀ other ∈ rest, (store.put (here ++ [file.1]) (.file file.2.toUTF8)).entryAt?
        (here ++ [other.1]) ≠ some .directory := by
      intro other hother
      obtain heq | hne := eq_or_ne (here ++ [file.1]) (here ++ [other.1])
      · rw [← heq, entryAt?_put_self _ (by simp)]
        exact nofun
      · rw [entryAt?_put_of_ne _ hne]
        exact hfree.2 other hother
    obtain ⟨after, hrest⟩ := ih (hhere.put hfree.1 _) hnames.2 hnext
    exact ⟨after, .cons ((locate_joinPath_iff hnames.1).2 ⟨here, hhere, rfl⟩) hfree.1 hrest⟩

/-- Puts a text into a directory, under its name. The answer is its path. -/
def putText {ε : Type} (wrap : StoreError → ε) (directory : String) (file : String × String) :
    StoreAction ε String := do
  (putFile (joinPath directory file.1) file.2.toUTF8).adapt wrap
  return joinPath directory file.1

theorem run_putText_eq_ok_iff {ε : Type} {wrap : StoreError → ε} {file : String × String} :
    (putText wrap directory file).run store = (.ok path, after) ↔
      path = joinPath directory file.1 ∧
        (putFile (joinPath directory file.1) file.2.toUTF8).run store = (.ok (), after) := by
  constructor
  · intro h
    obtain ⟨_, between, hput, hpath⟩ := StoreAction.run_bind_eq_ok_iff.1 h
    cases hpath
    exact ⟨rfl, StoreAction.run_adapt_eq_ok_iff.1 hput⟩
  · rintro ⟨rfl, hput⟩
    exact StoreAction.run_bind_eq_ok_iff.2 ⟨_, _, StoreAction.run_adapt_eq_ok_iff.2 hput, rfl⟩

/-- **Texts are put one after the other.** -/
theorem run_mapM_putText_eq_ok_iff {ε : Type} {wrap : StoreError → ε} {paths : List String} :
    (files.mapM (putText wrap directory)).run store = (.ok paths, after) ↔
      paths = files.map (joinPath directory ·.1) ∧ PutsFiles directory store files after := by
  induction files generalizing store paths with
  | nil =>
    rw [List.mapM_nil]
    constructor
    · intro h
      cases h
      exact ⟨rfl, .nil⟩
    · rintro ⟨rfl, hputs⟩
      cases hputs
      rfl
  | cons file rest ih =>
    rw [List.mapM_cons]
    constructor
    · intro h
      obtain ⟨path, between, hfile, h⟩ := StoreAction.run_bind_eq_ok_iff.1 h
      obtain ⟨more, last, hrest, h⟩ := StoreAction.run_bind_eq_ok_iff.1 h
      cases h
      obtain ⟨rfl, hput⟩ := run_putText_eq_ok_iff.1 hfile
      obtain ⟨place, hlocate, hfree, rfl⟩ := run_putFile_eq_ok_iff.1 hput
      obtain ⟨rfl, hputs⟩ := ih.1 hrest
      exact ⟨rfl, .cons hlocate hfree hputs⟩
    · rintro ⟨rfl, hputs⟩
      cases hputs with
      | @cons _ _ place name text _ located free hrest =>
        have hfile : (putText wrap directory (name, text)).run store =
            (.ok (joinPath directory name), store.put place (.file text.toUTF8)) :=
          run_putText_eq_ok_iff.2 ⟨rfl, run_putFile_eq_ok_iff.2 ⟨place, located, free, rfl⟩⟩
        exact StoreAction.run_bind_eq_ok_iff.2 ⟨_, _, hfile,
          StoreAction.run_bind_eq_ok_iff.2 ⟨_, _, ih.2 ⟨rfl, hrest⟩, rfl⟩⟩

/-- A file that holds a text is read back. -/
theorem textAt_of_file (hlocate : store.locate path = .ok place)
    (hentry : store.entryAt? place = some (.file text.toUTF8)) :
    store.textAt path = .ok (place.getLast?.getD path, text) := by
  rw [textAt, hlocate]
  simp only [bind, Except.bind, hentry, textOf_toUTF8]
  rfl

/-- **In the end each file has its text**, if their names differ. -/
theorem PutsFiles.textAt (h : PutsFiles directory store files after)
    (hnames : ∀ file ∈ files, IsFileName file.1) (hnodup : (files.map Prod.fst).Nodup) :
    ∀ file ∈ files, after.textAt (joinPath directory file.1) = .ok file := by
  induction h with
  | nil => exact List.forall_mem_nil _
  | @cons store after place name text files located free rest ih =>
    rw [List.forall_mem_cons] at hnames
    rw [List.map_cons, List.nodup_cons] at hnodup
    refine List.forall_mem_cons.2 ⟨?_, ih hnames.2 hnodup.2⟩
    obtain ⟨here, hhere, rfl⟩ := (locate_joinPath_iff hnames.1).1 located
    have hlocate : after.locate (joinPath directory name) = .ok (here ++ [name]) :=
      (locate_joinPath_iff hnames.1).2 ⟨here, rest.hasDirectory (hhere.put free _), rfl⟩
    have hentry : after.entryAt? (here ++ [name]) = some (.file text.toUTF8) := by
      rw [rest.entryAt?_eq hnames.2 hnodup.1, entryAt?_put_self _ (by simp)]
    rw [textAt_of_file hlocate hentry, List.getLast?_concat]
    rfl

end Store

end FixedWidth
