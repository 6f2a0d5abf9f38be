import FixedWidth.Layout
import Mathlib.Data.List.DropRight
import Mathlib.Logic.Function.Iterate

/-!
# Proofs/Framing — which values come back from their fields

    width 4, pad `0`, left:      a0 ──▸ `a000` ──▸ a
    width 4, pad `0`, right:     12 ──▸ `0012` ──▸ 12      nothing ──▸ `0000` ──▸ 0

A value that is framed and recovered comes back if and only if it `Fits`: it is not cut, it is told
from the padding, and no blank is trimmed off it (`recode_eq_self_iff`). The two sides of a field
mirror each other (`recode_mirror`), so values that leave room for padding are looked at on the left
only. What is recovered from a field fits, but for the empty text beside padding that is no blank
(`fits_decode`).
-/

namespace FixedWidth

open Unicode

/-! ## Ends of a text -/

namespace Side

/-- The other side. -/
def opposite : Side → Side
  | left => right
  | right => left

/-- The character of a text at a side. -/
def end? : Side → List Char → Option Char
  | left, cs => cs.head?
  | right, cs => cs.getLast?

@[simp]
theorem opposite_opposite (side : Side) : side.opposite.opposite = side := by cases side <;> rfl

@[simp]
theorem end?_nil (side : Side) : side.end? [] = none := by cases side <;> rfl

@[simp]
theorem end?_reverse (side : Side) (cs : List Char) :
    side.end? cs.reverse = side.opposite.end? cs := by
  cases side <;> simp [end?, opposite]

end Side

namespace Unicode

variable {cs : List Char}

/-- Whether a text neither starts nor ends with a blank. -/
def Trimmed (cs : List Char) : Prop := ∀ side : Side, ∀ c ∈ side.end? cs, isBlank c = false

theorem trimmed_nil : Trimmed [] := by simp [Trimmed]

theorem trimmed_singleton {c : Char} (h : isBlank c = false) : Trimmed [c] := by
  rintro (_ | _) _ ⟨⟩ <;> exact h

theorem trimmed_reverse : Trimmed cs.reverse ↔ Trimmed cs := by
  simp only [Trimmed, Side.end?_reverse]
  exact ⟨fun h side => by simpa using h side.opposite, fun h side => h side.opposite⟩

theorem dropEndWhile_eq (p : Char → Bool) (cs : List Char) : dropEndWhile p cs = cs.rdropWhile p :=
  rfl

/-- Nothing is dropped from the beginning of a text if its first character stays. -/
theorem dropWhile_eq_self_iff_head? {p : Char → Bool} :
    cs.dropWhile p = cs ↔ ∀ c ∈ cs.head?, p c = false := by
  cases cs <;> simp

theorem rdropWhile_eq_self_iff_getLast? {p : Char → Bool} :
    cs.rdropWhile p = cs ↔ ∀ c ∈ cs.getLast?, p c = false := by
  rw [List.rdropWhile_eq_self_iff]
  obtain rfl | hne := eq_or_ne cs []
  · simp
  · simp [hne, List.getLast?_eq_some_getLast hne]

theorem rdropWhile_cons (p : Char → Bool) (c : Char) (cs : List Char) :
    (c :: cs).rdropWhile p =
      if cs.rdropWhile p = [] then [c].rdropWhile p else c :: cs.rdropWhile p := by
  have hempty : (cs.reverse.dropWhile p).isEmpty = true ↔ cs.rdropWhile p = [] := by
    rw [List.isEmpty_iff, List.rdropWhile, List.reverse_eq_nil_iff]
  rw [List.rdropWhile, List.reverse_cons, List.dropWhile_append]
  simp only [hempty]
  split
  · rfl
  · rw [List.reverse_append]
    rfl

/-- Characters of a class go from the two ends of a text in any order. -/
theorem dropWhile_rdropWhile (p : Char → Bool) (cs : List Char) :
    (cs.rdropWhile p).dropWhile p = (cs.dropWhile p).rdropWhile p := by
  induction cs with
  | nil => rfl
  | cons c cs ih =>
    rw [rdropWhile_cons, List.dropWhile_cons, List.rdropWhile_singleton]
    by_cases hc : p c
    · rw [if_pos hc, if_pos hc, ← ih]
      split
      · rename_i hnil
        rw [hnil]
      · rw [List.dropWhile_cons_of_pos hc]
    · rw [if_neg hc, if_neg hc, rdropWhile_cons, List.rdropWhile_singleton, if_neg hc]
      split <;> rw [List.dropWhile_cons_of_neg hc]

theorem trim_eq (cs : List Char) : trim cs = (cs.rdropWhile isBlank).dropWhile isBlank :=
  (dropWhile_rdropWhile isBlank cs).symm

theorem trim_reverse (cs : List Char) : trim cs.reverse = (trim cs).reverse := by
  rw [trim_eq, trim, dropEndWhile_eq]
  simp [List.rdropWhile]

theorem trim_append_of_isBlank {front : List Char} (h : ∀ c ∈ front, isBlank c = true)
    (cs : List Char) : trim (front ++ cs) = trim cs := by
  rw [trim, trim, List.dropWhile_append_of_pos h]

theorem trim_append_of_isBlank_right {back : List Char} (h : ∀ c ∈ back, isBlank c = true)
    (cs : List Char) : trim (cs ++ back) = trim cs := by
  have hreverse : ∀ c ∈ back.reverse, isBlank c = true := by simpa using h
  rw [← List.reverse_inj, ← trim_reverse, ← trim_reverse, List.reverse_append,
    trim_append_of_isBlank hreverse]

theorem trim_isInfix (cs : List Char) : trim cs <:+: cs :=
  (List.rdropWhile_prefix isBlank _).isInfix.trans (List.dropWhile_suffix isBlank).isInfix

theorem trimmed_trim (cs : List Char) : Trimmed (trim cs) := by
  rintro (_ | _)
  · rw [trim_eq]
    exact dropWhile_eq_self_iff_head?.1 (List.dropWhile_idempotent isBlank _)
  · exact rdropWhile_eq_self_iff_getLast?.1 (List.rdropWhile_idempotent _ _)

/-- A text that is trimmed already stays as it is. -/
theorem trim_eq_self_iff : trim cs = cs ↔ Trimmed cs := by
  refine ⟨fun h => h ▸ trimmed_trim cs, fun h => ?_⟩
  rw [trim, dropWhile_eq_self_iff_head?.2 (h .left), dropEndWhile_eq,
    rdropWhile_eq_self_iff_getLast?.2 (h .right)]

end Unicode

namespace Layout

variable {layout : Layout} {value raw : List Char}

/-! ## Values that fit -/

/-- **A value that a field holds beside padding that is no blank.** At its padded side it cannot be
told from the padding, unless it is the one pad character that a field always keeps. At its other
side blanks are trimmed off, and at both sides if there is no padding. -/
structure FitsPadded (layout : Layout) (value : List Char) : Prop where
  ne_nil : value ≠ []
  length_le : value.length ≤ layout.width
  padded_end : layout.justify.opposite.end? value = some layout.pad → value = [layout.pad]
  value_end : ∀ c ∈ layout.justify.end? value, isBlank c = false
  filled : value.length = layout.width → Trimmed value

/-- **A value that comes back from a field.** -/
def Fits (layout : Layout) (value : List Char) : Prop :=
  if isBlank layout.pad then value.length ≤ layout.width ∧ Trimmed value
  else layout.width = 0 ∧ value = [] ∨ layout.FitsPadded value

/-- A value after it was framed and recovered. -/
def recode (layout : Layout) (value : List Char) : List Char := layout.decode (layout.encode value)

/-! ## Mirrored fields -/

/-- The layout with its value on the other side. -/
def mirror (layout : Layout) : Layout := { layout with justify := layout.justify.opposite }

theorem stripPad_mirror (layout : Layout) (value : List Char) :
    layout.mirror.stripPad value.reverse = (layout.stripPad value).reverse := by
  obtain ⟨width, pad, _ | _⟩ := layout <;>
    simp [mirror, Side.opposite, stripPad, dropEndWhile_eq, List.rdropWhile]

theorem decode_mirror (layout : Layout) (raw : List Char) :
    layout.mirror.decode raw.reverse = (layout.decode raw).reverse := by
  have hpad : layout.mirror.pad = layout.pad := rfl
  simp only [decode, trim_reverse, stripPad_mirror, List.isEmpty_reverse, hpad]
  split
  · rfl
  · split <;> rfl

/-- A value that is not cut is framed on the other side as in a mirror. -/
theorem encode_mirror (h : value.length ≤ layout.width) :
    layout.mirror.encode value.reverse = (layout.encode value).reverse := by
  have hwidth : layout.mirror.width = layout.width := rfl
  rw [encode, encode, List.length_reverse, hwidth]
  split
  · rw [List.take_of_length_le h, List.take_of_length_le (by rwa [List.length_reverse])]
  · obtain ⟨width, pad, _ | _⟩ := layout <;> simp [mirror, Side.opposite]

@[simp]
theorem mirror_mirror (layout : Layout) : layout.mirror.mirror = layout := by simp [mirror]

theorem FitsPadded.mirror (h : layout.FitsPadded value) :
    layout.mirror.FitsPadded value.reverse where
  ne_nil := by simpa using h.ne_nil
  length_le := by simpa [Layout.mirror] using h.length_le
  padded_end hend := by
    rw [Side.end?_reverse] at hend
    rw [h.padded_end (by simpa [Layout.mirror] using hend)]
    rfl
  value_end := by simpa [Layout.mirror] using h.value_end
  filled hfills := trimmed_reverse.2 (h.filled (by simpa [Layout.mirror] using hfills))

theorem fitsPadded_mirror : layout.mirror.FitsPadded value.reverse ↔ layout.FitsPadded value :=
  ⟨fun h => by simpa using h.mirror, FitsPadded.mirror⟩

theorem recode_mirror (h : value.length ≤ layout.width) :
    layout.mirror.recode value.reverse = (layout.recode value).reverse := by
  rw [recode, encode_mirror h, decode_mirror, recode]

/-! ## Recovered values -/

/-- A text without the padding, of which one character stays if there is nothing else. -/
def stripped (layout : Layout) (value : List Char) : List Char :=
  if layout.stripPad value = [] ∧ value ≠ [] then [layout.pad] else layout.stripPad value

theorem decode_of_isBlank (h : isBlank layout.pad = true) (raw : List Char) :
    layout.decode raw = trim raw := by
  rw [decode, if_pos h]

theorem decode_eq_stripped (h : isBlank layout.pad = false) (raw : List Char) :
    layout.decode raw = layout.stripped (trim raw) := by
  simp [decode, stripped, h]

theorem stripPad_isInfix (layout : Layout) (value : List Char) :
    layout.stripPad value <:+: value := by
  rw [stripPad]
  split
  · exact (List.rdropWhile_prefix _ _).isInfix
  · exact (List.dropWhile_suffix _).isInfix

theorem stripPad_eq_nil_iff : layout.stripPad value = [] ↔ ∀ c ∈ value, c = layout.pad := by
  rw [stripPad]
  split <;> simp [dropEndWhile_eq]

theorem stripped_isInfix (layout : Layout) (value : List Char) :
    layout.stripped value <:+: value := by
  rw [stripped]
  split
  · rename_i h
    obtain ⟨c, rest, rfl⟩ := List.exists_cons_of_ne_nil h.2
    rw [stripPad_eq_nil_iff.1 h.1 c List.mem_cons_self]
    exact (List.prefix_append [layout.pad] rest).isInfix
  · exact stripPad_isInfix layout value

/-- **A recovered value is a part of the raw field.** -/
theorem decode_isInfix (layout : Layout) (raw : List Char) : layout.decode raw <:+: raw := by
  cases h : isBlank layout.pad with
  | true => exact decode_of_isBlank h raw ▸ trim_isInfix raw
  | false => exact decode_eq_stripped h raw ▸ (stripped_isInfix layout _).trans (trim_isInfix raw)

/-! ## Values that come back -/

theorem stripPad_eq_self_iff :
    layout.stripPad value = value ↔ layout.justify.opposite.end? value ≠ some layout.pad := by
  rw [stripPad]
  split <;> rename_i hside <;> rw [hside]
  · rw [dropEndWhile_eq, rdropWhile_eq_self_iff_getLast?]
    cases h : value.getLast? <;> simp [Side.opposite, Side.end?, h]
  · rw [dropWhile_eq_self_iff_head?]
    cases h : value.head? <;> simp [Side.opposite, Side.end?, h]

theorem mem_of_end? {side : Side} {c : Char} (h : c ∈ side.end? value) : c ∈ value := by
  cases side with
  | left => exact List.mem_of_mem_head? h
  | right => exact List.mem_of_mem_getLast? h

theorem exists_end? (side : Side) (h : value ≠ []) : ∃ c, side.end? value = some c := by
  cases side with
  | left => exact ⟨_, List.head?_eq_some_head h⟩
  | right => exact ⟨_, List.getLast?_eq_some_getLast h⟩

/-- Nothing is stripped from a text that does not end in padding, and from a single pad. -/
theorem stripped_eq_self_iff :
    layout.stripped value = value ↔
      (layout.justify.opposite.end? value = some layout.pad → value = [layout.pad]) := by
  rw [stripped]
  split
  · rename_i h
    obtain ⟨c, hc⟩ := exists_end? layout.justify.opposite h.2
    rw [hc, stripPad_eq_nil_iff.1 h.1 c (mem_of_end? hc)]
    exact ⟨fun heq _ => heq.symm, fun himp => (himp rfl).symm⟩
  · rename_i h
    rw [stripPad_eq_self_iff]
    refine ⟨fun hne heq => absurd heq hne, fun himp heq => h ?_⟩
    rw [himp heq]
    exact ⟨stripPad_eq_nil_iff.2 (by simp), List.cons_ne_nil _ _⟩

/-- A raw field is its own value if it is trimmed and holds no padding. -/
theorem decode_eq_self_iff (hpad : isBlank layout.pad = false) :
    layout.decode raw = raw ↔ Trimmed raw ∧
      (layout.justify.opposite.end? raw = some layout.pad → raw = [layout.pad]) := by
  rw [decode_eq_stripped hpad, ← stripped_eq_self_iff, ← trim_eq_self_iff]
  refine ⟨fun h => ?_, fun ⟨htrim, hstripped⟩ => by rw [htrim, hstripped]⟩
  have hlength := (stripped_isInfix layout (trim raw)).length_le
  rw [h] at hlength
  have htrim : trim raw = raw := (trim_isInfix raw).eq_of_length_le hlength
  exact ⟨htrim, by rwa [htrim] at h⟩

/-- Padding behind a text keeps what is in front of it from being trimmed. -/
theorem trim_append_replicate {pad : Char} (hpad : isBlank pad = false) (value : List Char)
    (count : Nat) :
    trim (value ++ List.replicate (count + 1) pad) =
      value.dropWhile isBlank ++ List.replicate (count + 1) pad := by
  have hfront : (value ++ List.replicate (count + 1) pad).dropWhile isBlank =
      value.dropWhile isBlank ++ List.replicate (count + 1) pad := by
    rw [List.dropWhile_append]
    split
    · rename_i hnil
      rw [List.isEmpty_iff.1 hnil, List.replicate_succ, List.dropWhile_cons_of_neg (by simp [hpad]),
        List.nil_append]
    · rfl
  rw [trim, hfront, dropEndWhile_eq, rdropWhile_eq_self_iff_getLast?]
  simp [List.replicate_succ', ← List.append_assoc, hpad]

/-- **The value of a field with padding on the right.** -/
theorem recode_of_lt {width : Nat} {pad : Char} (hpad : isBlank pad = false)
    (hlt : value.length < width) :
    recode ⟨width, pad, .left⟩ value =
      if (value.dropWhile isBlank).rdropWhile (· == pad) = [] then [pad]
      else (value.dropWhile isBlank).rdropWhile (· == pad) := by
  obtain ⟨count, hcount⟩ : ∃ count, width - value.length = count + 1 :=
    Nat.exists_eq_add_one_of_ne_zero (by omega)
  have hstrip : stripPad ⟨width, pad, .left⟩
      (value.dropWhile isBlank ++ List.replicate (count + 1) pad) =
        (value.dropWhile isBlank).rdropWhile (· == pad) := by
    rw [stripPad, dropEndWhile_eq, List.rdropWhile, List.reverse_append, List.reverse_replicate,
      List.dropWhile_append_of_pos (by simp)]
    rfl
  rw [recode, encode, if_neg (by simpa using hlt), decode_eq_stripped hpad]
  simp only [hcount, trim_append_replicate hpad]
  rw [stripped, hstrip]
  simp

/-- **A value that leaves room for padding** comes back if it fits: first on the left. -/
theorem recode_eq_self_iff_of_left {width : Nat} {pad : Char} (hpad : isBlank pad = false)
    (hlt : value.length < width) :
    recode ⟨width, pad, .left⟩ value = value ↔ FitsPadded ⟨width, pad, .left⟩ value := by
  rw [recode_of_lt hpad hlt]
  constructor
  · split
    · rintro rfl
      exact ⟨List.cons_ne_nil _ _, hlt.le, fun _ => rfl, fun c hc => by cases hc; exact hpad,
        fun _ => trimmed_singleton hpad⟩
    · rename_i hne
      intro heq
      -- neither step can drop anything, since what is left is as long as the value
      have hfront : value.dropWhile isBlank = value := by
        have hprefix := (List.rdropWhile_prefix (· == pad) (value.dropWhile isBlank)).length_le
        rw [heq] at hprefix
        exact (List.dropWhile_suffix isBlank).eq_of_length_le hprefix
      rw [hfront] at heq hne
      rw [rdropWhile_eq_self_iff_getLast?] at heq
      exact ⟨fun hnil => hne (by rw [hnil]; rfl), hlt.le,
        fun hend => absurd (heq _ hend) (by simp), dropWhile_eq_self_iff_head?.1 hfront,
        fun hfills => absurd hfills hlt.ne⟩
  · intro h
    rw [dropWhile_eq_self_iff_head?.2 h.value_end]
    have hstripped := stripped_eq_self_iff.2 h.padded_end
    rw [stripped, stripPad, dropEndWhile_eq] at hstripped
    simpa [h.ne_nil] using hstripped

theorem recode_eq_self_iff_of_lt (hpad : isBlank layout.pad = false)
    (hlt : value.length < layout.width) :
    layout.recode value = value ↔ layout.FitsPadded value := by
  obtain ⟨width, pad, _ | _⟩ := layout
  · exact recode_eq_self_iff_of_left hpad hlt
  · have hlt' : value.reverse.length < width := by simpa using hlt
    have hleft := recode_eq_self_iff_of_left hpad hlt'
    have hmirror : Layout.mirror ⟨width, pad, .right⟩ = ⟨width, pad, .left⟩ := rfl
    rw [← hmirror, recode_mirror hlt.le, fitsPadded_mirror, List.reverse_inj] at hleft
    exact hleft

/-- A value that fills its field is the raw field. -/
theorem recode_eq_self_iff_of_eq (hpad : isBlank layout.pad = false)
    (hfills : value.length = layout.width) :
    layout.recode value = value ↔ layout.width = 0 ∧ value = [] ∨ layout.FitsPadded value := by
  rw [recode, encode, if_pos hfills.ge, List.take_of_length_le hfills.le, decode_eq_self_iff hpad]
  constructor
  · rintro ⟨htrimmed, hend⟩
    obtain rfl | hne := eq_or_ne value []
    · exact .inl ⟨hfills.symm, rfl⟩
    · exact .inr ⟨hne, hfills.le, hend, htrimmed _, fun _ => htrimmed⟩
  · rintro (⟨-, rfl⟩ | h)
    · exact ⟨trimmed_nil, by simp⟩
    · exact ⟨h.filled hfills, h.padded_end⟩

/-- Blank padding is trimmed off with the blanks of the value. -/
theorem trim_encode (hpad : isBlank layout.pad = true) (h : value.length ≤ layout.width) :
    trim (layout.encode value) = trim value := by
  have hfill (count : Nat) : ∀ c ∈ List.replicate count layout.pad, isBlank c = true :=
    fun c hc => by rwa [List.eq_of_mem_replicate hc]
  rw [encode]
  split
  · rw [List.take_of_length_le h]
  · cases layout.justify with
    | left => exact trim_append_of_isBlank_right (hfill _) value
    | right => exact trim_append_of_isBlank (hfill _) value

/-- **A value comes back from a field if and only if it fits.** -/
theorem recode_eq_self_iff : layout.recode value = value ↔ layout.Fits value := by
  obtain hcut | hle := Nat.lt_or_ge layout.width value.length
  · -- what is recovered from a field is no longer than the field
    have hne : layout.recode value ≠ value := fun heq => by
      have hlength := (decode_isInfix layout (layout.encode value)).length_le
      rw [length_encode, ← recode, heq] at hlength
      omega
    refine iff_of_false hne fun hfits => ?_
    rw [Fits] at hfits
    split at hfits
    · exact absurd hfits.1 (Nat.not_le.2 hcut)
    · obtain ⟨-, rfl⟩ | hpadded := hfits
      · exact absurd hcut (Nat.not_lt_zero _)
      · exact absurd hpadded.length_le (Nat.not_le.2 hcut)
  · rw [Fits]
    split
    · rename_i hpad
      rw [recode, decode_of_isBlank hpad, trim_encode hpad hle, trim_eq_self_iff]
      exact ⟨fun h => ⟨hle, h⟩, And.right⟩
    · rename_i hpad
      rw [Bool.not_eq_true] at hpad
      obtain hlt | heq := Nat.lt_or_eq_of_le hle
      · rw [recode_eq_self_iff_of_lt hpad hlt]
        exact ⟨.inr, fun h => h.resolve_left fun hzero => by omega⟩
      · exact recode_eq_self_iff_of_eq hpad heq

/-! ## Values that fields give -/

theorem stripPad_stripPad (layout : Layout) (value : List Char) :
    layout.stripPad (layout.stripPad value) = layout.stripPad value := by
  rw [stripPad, stripPad]
  split
  · exact List.rdropWhile_idempotent _ _
  · exact List.dropWhile_idempotent _ _

/-- Stripping leaves the side alone on which the value stands. -/
theorem end?_stripPad (h : layout.stripPad value ≠ []) :
    layout.justify.end? (layout.stripPad value) = layout.justify.end? value := by
  rw [stripPad] at h ⊢
  split at h <;> rename_i hside <;> rw [hside]
  · obtain ⟨rest, hrest⟩ : dropEndWhile (· == layout.pad) value <+: value :=
      List.rdropWhile_prefix _ _
    calc (dropEndWhile (· == layout.pad) value).head?
      _ = (dropEndWhile (· == layout.pad) value ++ rest).head? :=
          (List.head?_append_of_ne_nil _ h).symm
      _ = value.head? := by rw [hrest]
  · obtain ⟨front, hfront⟩ : value.dropWhile (· == layout.pad) <:+ value :=
      List.dropWhile_suffix _
    calc (value.dropWhile (· == layout.pad)).getLast?
      _ = (front ++ value.dropWhile (· == layout.pad)).getLast? :=
          (List.getLast?_append_of_ne_nil _ h).symm
      _ = value.getLast? := by rw [hfront]

theorem fitsPadded_stripped (hpad : isBlank layout.pad = false) (htrimmed : Trimmed value)
    (hle : value.length ≤ layout.width) (hne : layout.stripped value ≠ []) :
    layout.FitsPadded (layout.stripped value) := by
  have hwidth : (layout.stripped value).length ≤ layout.width :=
    (stripped_isInfix layout value).length_le.trans hle
  rw [stripped] at hne hwidth ⊢
  split at hne
  · rename_i h
    rw [if_pos h] at hwidth ⊢
    have hsingle : Trimmed [layout.pad] := trimmed_singleton hpad
    exact ⟨hne, hwidth, fun _ => rfl, hsingle _, fun _ => hsingle⟩
  · rename_i h
    rw [if_neg h] at hwidth ⊢
    refine ⟨hne, hwidth, fun hend => ?_, ?_, fun hfills => ?_⟩
    · exact absurd hend (stripPad_eq_self_iff.1 (stripPad_stripPad layout value))
    · rw [end?_stripPad hne]
      exact htrimmed _
    · rw [(stripPad_isInfix layout value).eq_of_length_le (hle.trans hfills.ge)]
      exact htrimmed

/-- **What is recovered from a field fits**, unless it is empty and there is padding to see. -/
theorem fits_decode (hraw : raw.length ≤ layout.width) (hne : ¬(layout.decode raw = [] ∧
    isBlank layout.pad = false ∧ 0 < layout.width)) : layout.Fits (layout.decode raw) := by
  rw [Fits]
  split
  · rename_i hpad
    rw [decode_of_isBlank hpad]
    exact ⟨(trim_isInfix raw).length_le.trans hraw, trimmed_trim raw⟩
  · rename_i hpad
    rw [Bool.not_eq_true] at hpad
    obtain hnil | hsome := eq_or_ne (layout.decode raw) []
    · exact .inl ⟨Nat.eq_zero_of_not_pos fun hpos => hne ⟨hnil, hpad, hpos⟩, hnil⟩
    · rw [decode_eq_stripped hpad] at hsome ⊢
      exact .inr (fitsPadded_stripped hpad (trimmed_trim raw)
        ((trim_isInfix raw).length_le.trans hraw) hsome)

/-- A blank field that is padded with something else is read as one pad character. -/
theorem recode_nil (hpad : isBlank layout.pad = false) (hpos : 0 < layout.width) :
    layout.recode [] = [layout.pad] := by
  have hstripped : layout.stripped (List.replicate layout.width layout.pad) = [layout.pad] := by
    rw [stripped, if_pos]
    exact ⟨stripPad_eq_nil_iff.2 fun c => List.eq_of_mem_replicate, by simpa using hpos.ne'⟩
  have htrimmed : Trimmed (List.replicate layout.width layout.pad) := fun side c hc => by
    rwa [List.eq_of_mem_replicate (mem_of_end? hc)]
  have hencode : layout.encode [] = List.replicate layout.width layout.pad := by
    rw [encode, List.length_nil, if_neg (Nat.not_le.2 hpos)]
    cases layout.justify <;> simp
  rw [recode, hencode, decode_eq_stripped hpad, trim_eq_self_iff.2 htrimmed, hstripped]

theorem fits_pad (hpad : isBlank layout.pad = false) (hpos : 0 < layout.width) :
    layout.Fits [layout.pad] := by
  rw [Fits, if_neg (by simp [hpad])]
  exact .inr ⟨List.cons_ne_nil _ _, hpos, fun _ => rfl, trimmed_singleton hpad _,
    fun _ => trimmed_singleton hpad⟩

/-- **What a field does to values.** A framed value has the width of the field, and what is
recovered from a text is a part of it. A value comes back if and only if it fits. What was recovered
from a text that is no wider than the field fits, and stays the same however often it is framed and
recovered again. The one exception is the empty text in a field padded with a character that is no
blank: it becomes that character, and remains so. -/
theorem framing (layout : Layout) :
    (∀ value, (layout.encode value).length = layout.width) ∧
      (∀ raw, layout.decode raw <:+: raw) ∧
      (∀ value, layout.recode value = value ↔ layout.Fits value) ∧
      ∀ raw, raw.length ≤ layout.width →
        if layout.decode raw = [] ∧ isBlank layout.pad = false ∧ 0 < layout.width then
          ∀ rounds, layout.recode^[rounds + 1] (layout.decode raw) = [layout.pad]
        else
          layout.Fits (layout.decode raw) ∧
            ∀ rounds, layout.recode^[rounds] (layout.decode raw) = layout.decode raw := by
  refine ⟨layout.length_encode, layout.decode_isInfix, fun value => recode_eq_self_iff,
    fun raw hraw => ?_⟩
  split
  · rename_i h
    obtain ⟨hnil, hpad, hpos⟩ := h
    intro rounds
    rw [Function.iterate_succ_apply, hnil, recode_nil hpad hpos]
    exact Function.iterate_fixed (recode_eq_self_iff.2 (fits_pad hpad hpos)) rounds
  · rename_i h
    have hfits := fits_decode hraw h
    exact ⟨hfits, Function.iterate_fixed (recode_eq_self_iff.2 hfits)⟩

/-- A numeral in a numeric field: of its zeros the leading ones are padding. -/
theorem numeric_framing :
    " 070 ".toList.length ≤ (numeric 5).width ∧
      (numeric 5).decode " 070 ".toList = "70".toList ∧
      (numeric 5).Fits "70".toList ∧
      (∀ rounds, (numeric 5).recode^[rounds] "70".toList = "70".toList) ∧
      ¬(numeric 5).Fits "070".toList ∧
      ∀ rounds, (numeric 5).recode^[rounds + 1] ((numeric 5).decode "     ".toList) = ['0'] := by
  obtain ⟨-, -, hiff, hrecovered⟩ := framing (numeric 5)
  have hwidth : " 070 ".toList.length ≤ (numeric 5).width := by decide
  have hdecode : (numeric 5).decode " 070 ".toList = "70".toList := by decide
  have hfits := hrecovered _ hwidth
  rw [if_neg (by decide), hdecode] at hfits
  have hblank := hrecovered "     ".toList (by decide)
  rw [if_pos (by decide)] at hblank
  exact ⟨hwidth, hdecode, hfits.1, hfits.2, mt (hiff _).2 (by decide), hblank⟩

end Layout

end FixedWidth
