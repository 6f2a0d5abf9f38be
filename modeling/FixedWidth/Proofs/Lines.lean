import FixedWidth.Text.Bytes
import FixedWidth.Text.Lines
import Mathlib.Data.List.Basic

/-!
# Proofs/Lines — the line of a place in a text

    a⏎bc⏎d|…        `|` is on line 3, and two bytes before it is line 2

The line of a place is one more than the number of line feeds before it. When it is asked for some
bytes too early, line feeds that are closer than these bytes do not count (`LineIndex.lineAt_eq`),
so the answer is right if and only if there are none (`lineFeedsBefore_eq_count_iff`).
-/

namespace FixedWidth.Text

/-- The number of line feeds that have at least `bytes` bytes behind them. -/
def lineFeedsBefore (bytes : Nat) : List Char → Nat
  | [] => 0
  | c :: cs => (if c = '\n' ∧ bytes ≤ byteLength cs then 1 else 0) + lineFeedsBefore bytes cs

theorem lineStartsFrom_append (offset : Nat) (before rest : List Char) :
    lineStartsFrom offset (before ++ rest) =
      lineStartsFrom offset before ++ lineStartsFrom (offset + byteLength before) rest := by
  induction before generalizing offset with
  | nil => rfl
  | cons c before ih =>
    rw [List.cons_append, lineStartsFrom, lineStartsFrom, byteLength_cons, ← Nat.add_assoc]
    split
    · rw [ih, List.cons_append]
    · rw [ih]

theorem lt_of_mem_lineStartsFrom {offset start : Nat} {cs : List Char}
    (h : start ∈ lineStartsFrom offset cs) : offset < start := by
  induction cs generalizing offset with
  | nil => cases h
  | cons c cs ih =>
    have hnext : offset < offset + c.utf8Size := Nat.lt_add_of_pos_right c.utf8Size_pos
    rw [lineStartsFrom] at h
    split at h
    · obtain rfl | h := List.mem_cons.1 h
      · exact hnext
      · exact Nat.lt_trans hnext (ih h)
    · exact Nat.lt_trans hnext (ih h)

theorem countP_lineStartsFrom (offset bytes : Nat) (cs : List Char) :
    (lineStartsFrom offset cs).countP (· ≤ offset + byteLength cs - bytes) =
      lineFeedsBefore bytes cs := by
  induction cs generalizing offset with
  | nil => rfl
  | cons c cs ih =>
    have hrest := ih (offset + c.utf8Size)
    have hiff : offset + c.utf8Size ≤ offset + c.utf8Size + byteLength cs - bytes ↔
        bytes ≤ byteLength cs := by
      have := c.utf8Size_pos
      omega
    rw [lineStartsFrom, lineFeedsBefore, byteLength_cons, ← Nat.add_assoc, ← hrest]
    by_cases hfeed : c = '\n'
    · subst hfeed
      rw [if_pos rfl, List.countP_cons, Nat.add_comm (List.countP _ _)]
      simp only [decide_eq_true_eq, hiff, true_and]
    · simp only [hfeed, false_and, if_false, Nat.zero_add]

/-- **The line of a place that is some bytes before another** is one more than the number of line
feeds that far before the other. -/
theorem LineIndex.lineAt_eq (before rest : List Char) (bytes : Nat) :
    (ofText (before ++ rest)).lineAt (byteLength before - bytes) =
      lineFeedsBefore bytes before + 1 := by
  have hrest : (lineStartsFrom (0 + byteLength before) rest).countP
      (· ≤ byteLength before - bytes) = 0 := by
    rw [List.countP_eq_zero]
    intro start hmem
    have := lt_of_mem_lineStartsFrom hmem
    simp only [decide_eq_true_eq]
    omega
  have hbefore := countP_lineStartsFrom 0 bytes before
  rw [Nat.zero_add] at hbefore
  rw [lineAt, ofText, lineStartsFrom_append, List.countP_cons_of_pos (by simp), List.countP_append,
    hbefore, hrest, Nat.add_zero]

theorem lineFeedsBefore_le_count (bytes : Nat) (cs : List Char) :
    lineFeedsBefore bytes cs ≤ cs.count '\n' := by
  induction cs with
  | nil => exact Nat.le_refl 0
  | cons c cs ih =>
    rw [lineFeedsBefore, List.count_cons, Nat.add_comm]
    refine Nat.add_le_add ih ?_
    by_cases hfeed : c = '\n' <;> simp only [hfeed] <;> split_ifs <;> simp_all

/-- **All line feeds count if and only if each of them is far enough.** -/
theorem lineFeedsBefore_eq_count_iff {bytes : Nat} {cs : List Char} :
    lineFeedsBefore bytes cs = cs.count '\n' ↔
      ∀ earlier between, cs = earlier ++ '\n' :: between → bytes ≤ byteLength between := by
  induction cs with
  | nil => simp [lineFeedsBefore]
  | cons c cs ih =>
    have hle := lineFeedsBefore_le_count bytes cs
    have hcons : lineFeedsBefore bytes (c :: cs) = (c :: cs).count '\n' ↔
        (c = '\n' → bytes ≤ byteLength cs) ∧ lineFeedsBefore bytes cs = cs.count '\n' := by
      rw [lineFeedsBefore, List.count_cons]
      by_cases hfeed : c = '\n'
      · by_cases hfar : bytes ≤ byteLength cs <;> simp [hfeed, hfar] <;> omega
      · simp [hfeed]
    rw [hcons, ih]
    constructor
    · rintro ⟨hfirst, hrest⟩ (_ | ⟨d, earlier⟩) between heq
      · obtain ⟨rfl, rfl⟩ := List.cons.inj heq
        exact hfirst rfl
      · exact hrest earlier between (List.cons.inj heq).2
    · exact fun h => ⟨fun heq => h [] cs (heq ▸ rfl),
        fun earlier between heq => h (c :: earlier) between (heq ▸ rfl)⟩

theorem lineFeedsBefore_zero (cs : List Char) : lineFeedsBefore 0 cs = cs.count '\n' :=
  lineFeedsBefore_eq_count_iff.2 fun _ _ _ => Nat.zero_le _

/-- **The line of a place** is one more than the number of line feeds before it. -/
theorem LineIndex.lineAt_byteLength (before rest : List Char) :
    (ofText (before ++ rest)).lineAt (byteLength before) = before.count '\n' + 1 := by
  rw [← lineFeedsBefore_zero, ← lineAt_eq before rest, Nat.sub_zero]

end FixedWidth.Text
