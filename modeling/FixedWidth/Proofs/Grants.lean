import FixedWidth.Proofs.FreeNames
import Mathlib.Order.Bounds.Basic

/-!
# Proofs/Grants — what a request for a name is answered with

    requests    a    a_2    a      a_2      a
    answers     a    a_2    a_3    a_2_2    a_4

A scope answers a request with the name itself as long as it is free, and else with the least number
from two on that makes a free name (`Answers`). A base can look like a numbered name, as `a_2` does
above, so the numbers that are taken need not be those that the scope made up. Still one of the
first numbers is free, as many as there are names given out, so the search always comes to an end
(`Answers.le_length_add_one`).
-/

namespace FixedWidth.Naming

variable {used given : List String} {base name : String}

/-! ## The least number -/

theorem numbered_ne (base : String) (k : Nat) : numbered base k ≠ base := by
  intro h
  have hlength := congrArg String.length h
  simp only [numbered, String.length_append] at hlength
  have : "_".length = 1 := by decide
  omega

theorem le_firstFree (fuel k : Nat) : k ≤ firstFree used base fuel k := by
  induction fuel generalizing k with
  | zero => exact Nat.le_refl k
  | succ fuel ih =>
    rw [firstFree]
    split
    · exact Nat.le_of_lt (ih (k + 1))
    · exact Nat.le_refl k

/-- The search passes over taken names only. -/
theorem numbered_mem_of_lt_firstFree {fuel k n : Nat} (hk : k ≤ n)
    (hn : n < firstFree used base fuel k) : numbered base n ∈ used := by
  induction fuel generalizing k with
  | zero => exact absurd hn (Nat.not_lt.2 hk)
  | succ fuel ih =>
    rw [firstFree] at hn
    split at hn
    · rename_i htaken
      obtain rfl | hlater := Nat.eq_or_lt_of_le hk
      · exact List.contains_iff_mem.1 htaken
      · exact ih hlater hn
    · exact absurd hn (Nat.not_lt.2 hk)

/-- **The search finds the least number that makes a free name.** -/
theorem isLeast_firstFree (used : List String) (base : String) (k : Nat) :
    IsLeast {n | k ≤ n ∧ numbered base n ∉ used} (firstFree used base (used.length + 1) k) := by
  refine ⟨⟨le_firstFree _ k, ?_⟩, fun n ⟨hk, hfree⟩ => ?_⟩
  · exact numbered_firstFree_notMem _ _ (exists_numbered_notMem used base k)
  · by_contra! hlt
    exact hfree (numbered_mem_of_lt_firstFree hk hlt)

/-! ## Answers -/

/-- **What a request is answered with**, where these names were given out before. -/
inductive Answers (given : List String) (base : String) : (answer : String) → Prop
  /-- The base, as long as it is free. -/
  | plain (hfree : base ∉ given) : Answers given base base
  /-- The base with the least number from two on that makes a free name. -/
  | numbered {k : Nat} (htaken : base ∈ given)
    (hleast : IsLeast {n | 2 ≤ n ∧ numbered base n ∉ given} k) :
    Answers given base (numbered base k)

/-- **Of the numbers up to one more than the names given out, one is free**, so the search for it
ends after as many steps. -/
theorem Answers.le_length_add_one {k : Nat} (h : Answers given base (Naming.numbered base k)) :
    k ≤ given.length + 1 := by
  generalize hname : Naming.numbered base k = name at h
  cases h with
  | plain => exact absurd hname (numbered_ne base k)
  | numbered htaken hleast =>
    obtain rfl := numbered_injective base hname
    -- the base is no numbered name, so one name less can stand in the way
    obtain ⟨i, hi, hfree⟩ := exists_numbered_notMem (given.erase base) base 2
    rw [List.length_erase_of_mem htaken] at hi
    have hle := hleast.2 ⟨Nat.le_add_right 2 i,
      fun hmem => hfree ((List.mem_erase_of_ne (numbered_ne base _)).2 hmem)⟩
    have := List.length_pos_of_mem htaken
    omega

theorem Scope.answers_grant (h : ∀ name, name ∈ used ↔ name ∈ given) (base : String) :
    Answers given base (Scope.grant ⟨used⟩ base) := by
  rw [grant]
  split
  · rename_i htaken
    refine .numbered ((h base).1 (List.contains_iff_mem.1 htaken)) ?_
    simpa only [h] using isLeast_firstFree used base 2
  · rename_i hfree
    exact .plain fun hmem => hfree (List.contains_iff_mem.2 ((h base).2 hmem))

theorem Scope.take_uniqueAll (scope : Scope) (bases : List String) (count : Nat) :
    (scope.uniqueAll bases).take count = scope.uniqueAll (bases.take count) := by
  induction bases generalizing scope count with
  | nil => simp [uniqueAll]
  | cons base rest ih =>
    cases count with
    | zero => rfl
    | succ count => rw [uniqueAll, List.take_succ_cons, List.take_succ_cons, uniqueAll, ih]

/-- **A fresh scope answers every list of requests**, one after the other, with names that differ.
Each answer is the requested base if it was not given out before, and else the base with the least
number from two on that makes a name not given out before. The number is at most one more than the
names given out before, so the search for it ends after as many steps. -/
theorem distinct_answers (bases : List String) :
    (distinct bases).length = bases.length ∧ (distinct bases).Nodup ∧
      ∀ index base, bases[index]? = some base →
        ∃ answer, (distinct bases)[index]? = some answer ∧
          Answers ((distinct bases).take index) base answer ∧
          ∀ k, answer = numbered base k → k ≤ index + 1 := by
  refine ⟨length_distinct bases, nodup_distinct bases, fun index base hbase => ?_⟩
  have hgiven : (distinct bases).take index = distinct (bases.take index) :=
    Scope.empty.take_uniqueAll bases index
  have hlength : ((distinct bases).take index).length = index := by
    rw [List.length_take, length_distinct]
    have := (List.getElem?_eq_some_iff.1 hbase).1
    omega
  have hanswers : Answers ((distinct bases).take index) base
      (Scope.grant ⟨(distinct (bases.take index)).reverse⟩ base) :=
    Scope.answers_grant (fun name => by rw [List.mem_reverse, hgiven]) base
  refine ⟨_, getElem?_distinct hbase, hanswers, fun k hk => ?_⟩
  rw [hk] at hanswers
  exact hanswers.le_length_add_one.trans_eq (by rw [hlength])

/-- A base that looks like a numbered name takes its number, and gets one of its own when it comes
again. -/
theorem lookalike_distinct_answers :
    distinct ["a", "a_2", "a", "a_2", "a"] = ["a", "a_2", "a_3", "a_2_2", "a_4"] ∧
      Answers ["a", "a_2", "a_3", "a_2_2"] "a" "a_4" ∧
      ∀ k, "a_4" = numbered "a" k → k ≤ 5 := by
  have hdistinct :
      distinct ["a", "a_2", "a", "a_2", "a"] = ["a", "a_2", "a_3", "a_2_2", "a_4"] := by
    decide +kernel
  obtain ⟨answer, hanswer, hanswers, hle⟩ :=
    (distinct_answers ["a", "a_2", "a", "a_2", "a"]).2.2 4 "a" rfl
  rw [hdistinct] at hanswer hanswers
  cases hanswer
  exact ⟨hdistinct, hanswers, hle⟩

end FixedWidth.Naming
