import FixedWidth.Proofs.Files
import Mathlib.Data.List.Nodup
import Mathlib.Tactic.SplitIfs

/-!
# Proofs/WellNamed — trees in which each place is there once

    ofWorkingDirectory ──createDirectories──▸ store ──putFile──▸ store ──▸ …

In a store that is well named, each place has one entry, and the names that lead to it are names of
files, without slashes and other than dots (`WellNamed`). A path consists of steps that lead from
such places to such places, so that making directories and putting files keep a store well named,
also where they fail (`WellNamed.createDirectories`, `WellNamed.putFile`).
-/

namespace FixedWidth

variable {here place : Location} {name path : String} {entry : Entry} {store after : Store}

/-! ## Steps -/

/-- A step of a path: a name of a file, or dots. -/
structure IsStep (name : String) : Prop where
  ne_empty : name ≠ ""
  slash_notMem : '/' ∉ name.toList

/-- A place under names of files. -/
def Location.Proper (place : Location) : Prop := ∀ name ∈ place, Store.IsFileName name

/-- Dots lead to a place above, and other steps to a name of a file. -/
theorem Location.Proper.step (h : here.Proper) (hstep : IsStep name) : (here.step name).Proper := by
  rw [Location.step]
  split_ifs with hdot hdots
  · exact h
  · exact fun other hother => h other (List.dropLast_subset _ hother)
  · exact List.forall_mem_append.2
      ⟨h, List.forall_mem_singleton.2 ⟨hstep.ne_empty, hstep.slash_notMem, hdot, hdots⟩⟩

theorem slash_notMem_of_mem_piecesOfPath {path piece : List Char}
    (h : piece ∈ piecesOfPath path) : '/' ∉ piece := by
  fun_induction piecesOfPath path generalizing piece with
  | case1 => simp_all
  | case2 rest ih =>
    obtain rfl | hrest := List.mem_cons.1 h
    · exact List.not_mem_nil
    · exact ih hrest
  | case3 _ _ _ hnil => exact absurd hnil (piecesOfPath_ne_nil _)
  | case4 c rest hslash first pieces hpieces ih =>
    rw [hpieces] at ih
    obtain rfl | hrest := List.mem_cons.1 h
    · rw [List.mem_cons, not_or]
      exact ⟨fun heq => hslash heq.symm, ih List.mem_cons_self⟩
    · exact ih (List.mem_cons_of_mem _ hrest)

namespace Store

theorem isStep_of_mem_namesOnPath (h : name ∈ namesOnPath path) : IsStep name := by
  obtain ⟨piece, hpiece, rfl⟩ := List.mem_map.1 h
  rw [List.mem_filter] at hpiece
  refine ⟨fun hempty => ?_, ?_⟩
  · rw [String.ofList_eq_empty_iff] at hempty
    simp [hempty] at hpiece
  · rw [String.toList_ofList]
    exact slash_notMem_of_mem_piecesOfPath hpiece.1

theorem isStep_dot : IsStep "." := ⟨by decide, by decide⟩

theorem isStep_of_mem_append_dot {names : List String} {ends : Prop} [Decidable ends]
    (h : ∀ name ∈ names, IsStep name) :
    ∀ name ∈ names ++ if ends then ["."] else [], IsStep name := by
  refine List.forall_mem_append.2 ⟨h, ?_⟩
  split
  · exact List.forall_mem_singleton.2 isStep_dot
  · exact List.forall_mem_nil _

theorem isStep_of_mem_pathSteps : ∀ step ∈ pathSteps path, IsStep step :=
  isStep_of_mem_append_dot fun _ => isStep_of_mem_namesOnPath

theorem isStep_of_mem_directorySteps : ∀ step ∈ directorySteps path, IsStep step :=
  isStep_of_mem_append_dot fun _ hname => isStep_of_mem_namesOnPath (List.mem_filter.1 hname).1

/-- A walk from a place under names of files ends at such a place. -/
theorem proper_of_walk {steps : List String} (hhere : here.Proper)
    (hsteps : ∀ step ∈ steps, IsStep step) (h : store.walk here steps = .ok place) :
    place.Proper := by
  induction steps generalizing here with
  | nil =>
    cases h
    exact hhere
  | cons name rest ih =>
    rw [List.forall_mem_cons] at hsteps
    rw [walk] at h
    cases hrequire : store.requireDirectory here with
    | error =>
      rw [hrequire] at h
      cases h
    | ok =>
      rw [hrequire] at h
      exact ih (hhere.step hsteps.1) hsteps.2 h


/-! ## Stores -/

/-- **Each place has one entry, under names of files.** -/
structure WellNamed (store : Store) : Prop where
  places : (store.entries.map Prod.fst).Nodup
  names : ∀ pair ∈ store.entries, pair.1.Proper
  working : store.workingDirectory.Proper

theorem wellNamed_ofWorkingDirectory (h : place.Proper) :
    (ofWorkingDirectory place).WellNamed where
  places := by
    rw [ofWorkingDirectory, List.map_map]
    refine List.nodup_range.map_on fun m hm n hn heq => ?_
    have hlength := congrArg List.length heq
    simp only [Function.comp_apply, List.length_take] at hlength
    rw [List.mem_range] at hm hn
    omega
  names pair hmem := by
    obtain ⟨count, -, rfl⟩ := List.mem_map.1 hmem
    exact fun name hname => h name (List.take_subset _ _ hname)
  working := h

theorem WellNamed.put (h : store.WellNamed) (hplace : place.Proper) (entry : Entry) :
    (store.put place entry).WellNamed where
  places := by
    rw [Store.put, List.map_cons, List.nodup_cons]
    refine ⟨fun hmem => ?_, h.places.sublist (List.filter_sublist.map _)⟩
    obtain ⟨pair, hpair, rfl⟩ := List.mem_map.1 hmem
    simpa using (List.mem_filter.1 hpair).2
  names := List.forall_mem_cons.2
    ⟨hplace, fun pair hmem => h.names pair (List.mem_filter.1 hmem).1⟩
  working := h.working

theorem WellNamed.start (h : store.WellNamed) (path : String) : (store.start path).Proper := by
  rw [Store.start]
  split
  · exact fun name hname => absurd hname List.not_mem_nil
  · exact h.working

/-! ## Actions -/

theorem WellNamed.putFile (h : store.WellNamed) (path : String) (bytes : ByteArray) :
    ((Store.putFile path bytes).run store).2.WellNamed := by
  rw [run_putFile]
  cases hlocate : store.locate path with
  | error => exact h
  | ok place =>
    dsimp only
    split
    · exact h
    · exact h.put (proper_of_walk (h.start path) isStep_of_mem_pathSteps hlocate) _

theorem WellNamed.makeDirectory {steps : List String} (h : store.WellNamed)
    (hhere : here.Proper) (hsteps : ∀ step ∈ steps, IsStep step)
    (hmake : store.makeDirectory here steps = .ok after) : after.WellNamed := by
  rw [Store.makeDirectory] at hmake
  cases hwalk : store.walk here steps.dropLast with
  | error => simp [hwalk, bind, Except.bind] at hmake
  | ok parent =>
    cases hrequire : store.requireDirectory parent with
    | error => simp [hwalk, hrequire, bind, Except.bind] at hmake
    | ok =>
      have hparent := proper_of_walk hhere
        (fun step hstep => hsteps step (List.dropLast_subset _ hstep)) hwalk
      have hlast : IsStep (steps.getLast?.getD ".") := by
        cases hlast : steps.getLast? with
        | none => exact isStep_dot
        | some last => exact hsteps last (List.mem_of_getLast? hlast)
      simp only [hwalk, hrequire, bind, Except.bind] at hmake
      split at hmake
      · cases hmake
        exact h
      · cases hmake
      · cases hmake
        exact h.put (hparent.step hlast) _

/-- **Making directories keeps a store well named**, whether or not it succeeds. -/
theorem WellNamed.makeDirectories {steps : List String} (h : store.WellNamed)
    (hhere : here.Proper) (hsteps : ∀ step ∈ steps, IsStep step) :
    ((Store.makeDirectories here steps).run store).2.WellNamed := by
  fun_induction Store.makeDirectories here steps generalizing store with
  | case1 => exact h
  | case2 name above ih =>
    have hall : ∀ step ∈ (name :: above).reverse, IsStep step :=
      fun step hstep => hsteps step (List.mem_reverse.1 hstep)
    have habove : ∀ step ∈ if name = "." then above.tail else above, IsStep step := by
      rw [List.forall_mem_cons] at hsteps
      split
      · exact fun step hstep => hsteps.2 step (List.mem_of_mem_tail hstep)
      · exact hsteps.2
    rw [StoreAction.run_bind, StoreAction.run_get]
    dsimp only
    split
    · rename_i made hmake
      exact h.makeDirectory hhere hall hmake
    · -- the directories above are made first
      have hbetween := ih h habove
      rw [dite_eq_ite] at hbetween
      rw [StoreAction.run_bind]
      split
      · rename_i between hrun
        rw [hrun] at hbetween
        rw [StoreAction.run_bind, StoreAction.run_get]
        dsimp only
        rw [StoreAction.run_bind, StoreAction.run_liftM]
        cases hmake : between.makeDirectory here (name :: above).reverse with
        | error => exact hbetween
        | ok made => exact hbetween.makeDirectory hhere hall hmake
      · rename_i between hrun
        rw [hrun] at hbetween
        exact hbetween
    · exact h

theorem WellNamed.createDirectories (h : store.WellNamed) (path : String) :
    ((Store.createDirectories path).run store).2.WellNamed := by
  rw [Store.createDirectories, StoreAction.run_bind, StoreAction.run_get]
  exact h.makeDirectories (h.start path) fun step hstep =>
    isStep_of_mem_directorySteps step (List.mem_reverse.1 hstep)

end Store
end FixedWidth
