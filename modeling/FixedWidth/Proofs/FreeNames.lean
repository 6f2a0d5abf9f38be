import FixedWidth.Naming.Scope
import Mathlib.Data.List.Nodup
import Mathlib.Data.List.Perm.Subperm

/-!
# Proofs/FreeNames — a scope grants a name once

The numbered names of a base differ, so a list of `n` names cannot hold the first `n + 1` of them:
the search of `firstFree` succeeds, and a granted name is one that was never granted before
(`Scope.grant_notMem`). So the names granted for a list of requests differ (`nodup_distinct`).
-/

namespace FixedWidth.Naming

theorem numbered_injective (base : String) : Function.Injective (numbered base) := by
  intro k l h
  have hstring : toString k = toString l := by simpa [numbered] using h
  rw [Nat.toString_eq_ofList_toDigits, Nat.toString_eq_ofList_toDigits, String.ofList_inj]
    at hstring
  rw [← @Nat.ofDigitChars_ten_toDigits k, hstring, Nat.ofDigitChars_ten_toDigits]

variable {used : List String} {base : String}

/-- One of the numbers up to the length of a list makes a name that is not in it. -/
theorem exists_numbered_notMem (used : List String) (base : String) (k : Nat) :
    ∃ i < used.length + 1, numbered base (k + i) ∉ used := by
  by_contra! hall
  have hnodup : ((List.range (used.length + 1)).map fun i => numbered base (k + i)).Nodup :=
    List.Nodup.map (fun i j h => Nat.add_left_cancel (numbered_injective base h))
      List.nodup_range
  have hsub : ((List.range (used.length + 1)).map fun i => numbered base (k + i)) ⊆ used := by
    intro name hname
    obtain ⟨i, hi, rfl⟩ := List.mem_map.1 hname
    exact hall i (List.mem_range.1 hi)
  have := (hnodup.subperm hsub).length_le
  rw [List.length_map, List.length_range] at this
  omega

/-- The search finds a free name where there is one. -/
theorem numbered_firstFree_notMem (fuel k : Nat)
    (h : ∃ i < fuel, numbered base (k + i) ∉ used) :
    numbered base (firstFree used base fuel k) ∉ used := by
  induction fuel generalizing k with
  | zero =>
    obtain ⟨i, hi, -⟩ := h
    omega
  | succ fuel ih =>
    rw [firstFree]
    split
    · rename_i htaken
      obtain ⟨i, hi, hfree⟩ := h
      obtain rfl | ⟨j, rfl⟩ : i = 0 ∨ ∃ j, i = j + 1 := by
        cases i with
        | zero => exact Or.inl rfl
        | succ j => exact Or.inr ⟨j, rfl⟩
      · exact absurd (List.contains_iff_mem.1 htaken) hfree
      · refine ih (k + 1) ⟨j, by omega, ?_⟩
        rwa [Nat.add_right_comm k 1 j]
    · rename_i hfree
      exact fun hmem => hfree (List.contains_iff_mem.2 hmem)

/-- **A granted name was not granted before.** -/
theorem Scope.grant_notMem (scope : Scope) (base : String) : scope.grant base ∉ scope.used := by
  rw [grant]
  split
  · exact numbered_firstFree_notMem _ _ (exists_numbered_notMem scope.used base 2)
  · rename_i hfree
    exact fun hmem => hfree (List.contains_iff_mem.2 hmem)

/-! ## Requests in order -/

/-- Names that are granted were not granted before, and are not granted again. -/
theorem Scope.nodup_uniqueAll (scope : Scope) (bases : List String) :
    (scope.uniqueAll bases).Nodup ∧ ∀ name ∈ scope.uniqueAll bases, name ∉ scope.used := by
  induction bases generalizing scope with
  | nil => exact ⟨List.nodup_nil, nofun⟩
  | cons base rest ih =>
    obtain ⟨hnodup, hfresh⟩ := ih (scope.unique base).2
    refine ⟨List.nodup_cons.2 ⟨fun hmem => hfresh _ hmem List.mem_cons_self, hnodup⟩, ?_⟩
    refine List.forall_mem_cons.2 ⟨scope.grant_notMem base, fun name hmem => ?_⟩
    exact fun hused => hfresh name hmem (List.mem_cons_of_mem _ hused)

/-- **Granted names differ.** -/
theorem nodup_distinct (bases : List String) : (distinct bases).Nodup :=
  (Scope.empty.nodup_uniqueAll bases).1

theorem length_distinct (bases : List String) : (distinct bases).length = bases.length :=
  Scope.empty.length_uniqueAll bases

variable {bases : List String} {index : Nat}

/-- A request is granted in a scope that holds what was granted before it. -/
theorem Scope.getElem?_uniqueAll (scope : Scope) (h : bases[index]? = some base) :
    (scope.uniqueAll bases)[index]? = some
      ((Scope.mk ((scope.uniqueAll (bases.take index)).reverse ++ scope.used)).grant base) := by
  induction bases generalizing scope index with
  | nil => cases h
  | cons first rest ih =>
    cases index with
    | zero =>
      cases h
      rfl
    | succ index =>
      rw [uniqueAll, List.getElem?_cons_succ, ih _ h, List.take_succ_cons, uniqueAll]
      simp [unique]

theorem getElem?_distinct (h : bases[index]? = some base) :
    (distinct bases)[index]? = some (Scope.grant ⟨(distinct (bases.take index)).reverse⟩ base) := by
  rw [distinct, Scope.getElem?_uniqueAll _ h, Scope.empty, List.append_nil]
  rfl

end FixedWidth.Naming
