import FixedWidth.Proofs.Lines

/-!
# Proofs/LineNumbers — the line of any byte offset

    text      a   ⏎   é       ⏎   b
    bytes     61  0A  C3  A9  0A  62
    offsets   0   1   2   3   4   5   6 …
    lines     1   1   2   2   2   3   3 …

The line of an offset is one more than the number of line feeds among the bytes before it
(`LineIndex.lineAt_eq_count`), wherever the offset points to: the byte of a line feed is part of no
other character (`feed_notMem_utf8EncodeChar`). The starts of the lines increase, so they need not
be counted: a search by halving (`LineIndex.search`) finds the index of a start, or the place of one
that is missing, and the line follows from either (`Hit.Holds.line_eq`).
-/

namespace FixedWidth.Text

/-! ## Line feeds among bytes -/

/-- **The byte of a line feed is part of no other character.** -/
theorem feed_notMem_utf8EncodeChar {c : Char} (h : c ≠ '\n') :
    0x0A ∉ String.utf8EncodeChar c := by
  have hcode : c.val.toNat ≠ 0x0A := fun heq => h (Char.toNat_inj.1 heq)
  unfold String.utf8EncodeChar
  generalize c.val.toNat = code at hcode
  dsimp only
  split_ifs <;>
    simp only [List.mem_cons, List.not_mem_nil, or_false, not_or, ← UInt8.toNat_inj,
      UInt8.toNat_ofNat', UInt8.reduceToNat] <;>
    omega

/-- The first line that starts behind a line feed starts behind the first character. -/
theorem le_of_mem_lineStartsFrom_cons {start next : Nat} {c : Char} {cs : List Char}
    (h : next ∈ lineStartsFrom start (c :: cs)) : start + c.utf8Size ≤ next := by
  rw [lineStartsFrom] at h
  split at h
  · obtain rfl | h := List.mem_cons.1 h
    · exact Nat.le_refl _
    · exact Nat.le_of_lt (lt_of_mem_lineStartsFrom h)
  · exact Nat.le_of_lt (lt_of_mem_lineStartsFrom h)

/-- The lines that start up to an offset are those behind the line feeds before it. -/
theorem countP_lineStartsFrom_le (start offset : Nat) (cs : List Char) :
    (lineStartsFrom start cs).countP (· ≤ start + offset) =
      ((cs.flatMap String.utf8EncodeChar).take offset).count 0x0A := by
  induction cs generalizing start offset with
  | nil => simp [lineStartsFrom]
  | cons c cs ih =>
    rw [List.flatMap_cons, List.take_append, String.length_utf8EncodeChar, List.count_append]
    obtain hinside | hbehind := Nat.lt_or_ge offset c.utf8Size
    case inl =>
      -- the offset points into the first character, and no line starts before the next one
      have hstarts : (lineStartsFrom start (c :: cs)).countP (· ≤ start + offset) = 0 := by
        rw [List.countP_eq_zero]
        intro next hnext
        have := le_of_mem_lineStartsFrom_cons hnext
        simp only [decide_eq_true_eq]
        omega
      have hbytes : 0x0A ∉ (String.utf8EncodeChar c).take offset := by
        obtain rfl | hc := eq_or_ne c '\n'
        · obtain rfl : offset = 0 := Nat.lt_one_iff.1 hinside
          exact List.not_mem_nil
        · exact fun hmem => feed_notMem_utf8EncodeChar hc (List.mem_of_mem_take hmem)
      rw [hstarts, List.count_eq_zero.2 hbytes, Nat.sub_eq_zero_of_le (Nat.le_of_lt hinside)]
      rfl
    case inr =>
      have hrest := ih (start + c.utf8Size) (offset - c.utf8Size)
      rw [Nat.add_assoc, Nat.add_sub_cancel' hbehind] at hrest
      rw [List.take_of_length_le (by rwa [String.length_utf8EncodeChar]), ← hrest, lineStartsFrom]
      split
      · rename_i hc
        subst hc
        rw [List.countP_cons_of_pos (by simpa using hbehind), Nat.add_comm]
        rfl
      · rename_i hc
        rw [List.count_eq_zero.2 (feed_notMem_utf8EncodeChar hc), Nat.zero_add]

/-! ## Search by halving -/

/-- What a search for a number in an increasing list answers. -/
inductive Hit where
  /-- The number stands at this index. -/
  | found (index : Nat)
  /-- The number is missing, and this index is its place. -/
  | missing (index : Nat)
  deriving DecidableEq, Repr

/-- The line of an offset, by the answer to the search for it among the starts of lines. -/
def Hit.line : Hit → Nat
  | found index => index + 1
  | missing index => index

/-- **An answer is true of a list and a number.** The place of a missing number is behind the
smaller ones and before the greater ones. -/
def Hit.Holds (numbers : List Nat) (number : Nat) : Hit → Prop
  | found index => numbers[index]? = some number
  | missing index => index ≤ numbers.length ∧ ∀ (place : Nat) (h : place < numbers.length),
      (place < index → numbers[place] < number) ∧ (index ≤ place → number < numbers[place])

/-- The search for a number from one index up to another. -/
def searchFrom (numbers : List Nat) (number first last : Nat) (h : last ≤ numbers.length) : Hit :=
  if hlt : first < last then
    let middle := first + (last - first) / 2
    if numbers[middle] = number then .found middle
    else if numbers[middle] < number then searchFrom numbers number (middle + 1) last h
    else searchFrom numbers number first middle (by omega)
  else .missing first
termination_by last - first

section Search

variable {numbers : List Nat} {number : Nat} {hit : Hit}

/-- A property of the numbers before an index, and of no others, counts up to that index. -/
theorem countP_eq_of_getElem {p : Nat → Bool} {index : Nat} (hindex : index ≤ numbers.length)
    (h : ∀ (place : Nat) (hplace : place < numbers.length), p numbers[place] ↔ place < index) :
    numbers.countP p = index := by
  have hfront : (numbers.take index).countP p = index := by
    rw [List.countP_eq_length.2, List.length_take_of_le hindex]
    intro n hn
    obtain ⟨place, hplace, rfl⟩ := List.mem_take_iff_getElem.1 hn
    exact (h place _).2 (by omega)
  have hback : (numbers.drop index).countP p = 0 := by
    rw [List.countP_eq_zero]
    intro n hn
    obtain ⟨place, hplace, rfl⟩ := List.mem_drop_iff_getElem.1 hn
    exact fun hp => absurd ((h _ _).1 hp) (by omega)
  rw [← List.take_append_drop index numbers, List.countP_append, hfront, hback, Nat.add_zero]

variable (hincreasing : numbers.Pairwise (· < ·))

include hincreasing

/-- **The search is right** if the numbers before its part are smaller and those behind greater. -/
theorem holds_searchFrom {first last : Nat} {h : last ≤ numbers.length} (hle : first ≤ last)
    (hbefore : ∀ (place : Nat) (h : place < numbers.length), place < first →
      numbers[place] < number)
    (hbehind : ∀ (place : Nat) (h : place < numbers.length), last ≤ place →
      number < numbers[place]) :
    (searchFrom numbers number first last h).Holds numbers number := by
  have hmono := List.pairwise_iff_getElem.1 hincreasing
  fun_induction searchFrom numbers number first last h with
  | case1 first last h hlt middle heq =>
    exact List.getElem?_eq_some_iff.2 ⟨_, heq⟩
  | case2 first last h hlt middle hne hless ih =>
    refine ih (by omega) (fun place hplace hbound => ?_) hbehind
    obtain rfl | hearlier := Nat.eq_or_lt_of_le (Nat.le_of_lt_succ hbound)
    · exact hless
    · exact Nat.lt_trans (hmono _ _ _ _ hearlier) hless
  | case3 first last h hlt middle hne hless ih =>
    have hgreater : number < numbers[middle] := by omega
    refine ih (by omega) hbefore fun place hplace hbound => ?_
    obtain rfl | hlater := Nat.eq_or_lt_of_le hbound
    · exact hgreater
    · exact Nat.lt_trans hgreater (hmono _ _ _ _ hlater)
  | case4 first last h hlt =>
    exact ⟨by omega, fun place hplace =>
      ⟨hbefore place hplace, fun hbound => hbehind place hplace (by omega)⟩⟩

/-- **The line follows from a true answer.** -/
theorem Hit.Holds.line_eq (h : hit.Holds numbers number) :
    hit.line = numbers.countP (· ≤ number) := by
  have hmono := List.pairwise_iff_getElem.1 hincreasing
  cases hit with
  | found index =>
    obtain ⟨hindex, rfl⟩ := List.getElem?_eq_some_iff.1 h
    refine (countP_eq_of_getElem hindex fun place hplace => ?_).symm
    obtain hlt | rfl | hgt := Nat.lt_trichotomy place index
    · have := hmono _ _ hplace hindex hlt
      simp only [decide_eq_true_eq]
      omega
    · simp
    · have := hmono _ _ hindex hplace hgt
      simp only [decide_eq_true_eq]
      omega
  | missing index =>
    obtain ⟨hindex, hplaces⟩ := h
    refine (countP_eq_of_getElem hindex fun place hplace => ?_).symm
    obtain ⟨hsmaller, hgreater⟩ := hplaces place hplace
    simp only [decide_eq_true_eq]
    omega

end Search

namespace LineIndex

theorem pairwise_lineStartsFrom (start : Nat) (cs : List Char) :
    (lineStartsFrom start cs).Pairwise (· < ·) := by
  induction cs generalizing start with
  | nil => exact List.Pairwise.nil
  | cons c cs ih =>
    rw [lineStartsFrom]
    split
    · exact List.pairwise_cons.2 ⟨fun _ => lt_of_mem_lineStartsFrom, ih _⟩
    · exact ih _

/-- **The starts of the lines increase.** -/
theorem pairwise_starts (text : List Char) : (ofText text).starts.Pairwise (· < ·) :=
  List.pairwise_cons.2 ⟨fun _ => lt_of_mem_lineStartsFrom, pairwise_lineStartsFrom 0 text⟩

/-- The search for an offset among the starts of the lines. -/
def search (index : LineIndex) (offset : Nat) : Hit :=
  searchFrom index.starts offset 0 index.starts.length (Nat.le_refl _)

/-- **The line of an offset** is one more than the number of line feeds among the bytes before it,
and it is what the search among the starts of the lines finds. -/
theorem lineAt_eq_count (text : List Char) (offset : Nat) :
    (ofText text).lineAt offset =
        1 + ((text.flatMap String.utf8EncodeChar).take offset).count 0x0A ∧
      ((ofText text).search offset).line = (ofText text).lineAt offset := by
  refine ⟨?_, (holds_searchFrom (pairwise_starts text) (Nat.zero_le _) ?_ ?_).line_eq
    (pairwise_starts text)⟩
  · have hstarts := countP_lineStartsFrom_le 0 offset text
    rw [Nat.zero_add] at hstarts
    rw [lineAt, ofText, List.countP_cons_of_pos (by simp), hstarts, Nat.add_comm]
  · exact fun _ _ hbound => absurd hbound (Nat.not_lt_zero _)
  · exact fun _ hplace hbound => absurd hplace (Nat.not_lt.2 hbound)

end LineIndex

end FixedWidth.Text
