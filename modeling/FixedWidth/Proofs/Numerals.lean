import FixedWidth.Proofs.Framing
import FixedWidth.Table.Repetition
import Mathlib.Algebra.Group.Nat.Defs

/-!
# Proofs/Numerals — which texts declare a width or a repetition

    ␣+007␣ ──▸ 7      ++7, −7, 0x7, 7 7, ７ ──▸ no numeral      2⁶⁴ ──▸ too large

A declared width is a decimal numeral, with blanks around it, of a number below `2 ^ 64`
(`IsNumeral`), and nothing else is one (`Numeral.read?_eq_some_iff`). A declared repetition is such
a numeral or an asterisk with blanks around it, and what is neither counts as one. So each width and
repetition is read back from the text that it is written as (`parse_declarations`).
-/

namespace FixedWidth.Unicode

variable {front back core cs : List Char}

/-! ## Blanks around a text -/

/-- **A text with blanks around it.** -/
def BlanksAround (core cs : List Char) : Prop :=
  ∃ front back : List Char, (∀ c ∈ front, isBlank c = true) ∧ (∀ c ∈ back, isBlank c = true) ∧
    cs = front ++ core ++ back

theorem BlanksAround.refl (cs : List Char) : BlanksAround cs cs :=
  ⟨[], [], nofun, nofun, by simp⟩

theorem blanksAround_trim (cs : List Char) : BlanksAround (trim cs) cs := by
  refine ⟨cs.takeWhile isBlank, (cs.dropWhile isBlank).rtakeWhile isBlank,
    fun c hc => List.mem_takeWhile_imp hc, fun c hc => List.mem_rtakeWhile_imp hc, ?_⟩
  rw [trim, dropEndWhile_eq, List.append_assoc, List.rdropWhile_append_rtakeWhile,
    List.takeWhile_append_dropWhile]

/-- **Trimming takes the blanks around a text away**, and no more if it has no blank at its ends. -/
theorem trim_eq_iff (h : Trimmed core) : trim cs = core ↔ BlanksAround core cs := by
  constructor
  · rintro rfl
    exact blanksAround_trim cs
  · rintro ⟨front, back, hfront, hback, rfl⟩
    rw [trim_append_of_isBlank_right hback, trim_append_of_isBlank hfront, trim_eq_self_iff.2 h]

theorem trimmed_of_forall (h : ∀ c ∈ cs, isBlank c = false) : Trimmed cs :=
  fun _ c hc => h c (Layout.mem_of_end? hc)

theorem isBlank_of_isDigit {c : Char} (h : c.isDigit = true) : isBlank c = false := by
  have hcode : 48 ≤ c.toNat ∧ c.toNat ≤ 57 := Char.isDigit_iff_toNat.1 h
  refine Bool.eq_false_iff.2 fun hblank => ?_
  obtain ⟨range, hrange, hbounds⟩ := inRanges_eq_true_iff.1 hblank
  simp only [blankRanges, List.mem_cons, List.not_mem_nil, or_false] at hrange
  rcases hrange with rfl | rfl | rfl | rfl | rfl | rfl | rfl | rfl | rfl | rfl <;> omega

end FixedWidth.Unicode

namespace FixedWidth.Text.Numeral

open Unicode

variable {cs digits : List Char} {n : Nat}

/-! ## Numerals -/

/-- **A decimal numeral of a number**, with blanks around it: at most one plus sign, and then digits
of ASCII with the most significant first. -/
def IsNumeral (cs : List Char) (n : Nat) : Prop :=
  ∃ sign digits : List Char, BlanksAround (sign ++ digits) cs ∧ (sign = [] ∨ sign = ['+']) ∧
    digits ≠ [] ∧ (∀ c ∈ digits, c.isDigit = true) ∧ Nat.ofDigitChars 10 digits 0 = n

theorem exists_dropPlus (cs : List Char) :
    ∃ sign : List Char, (sign = [] ∨ sign = ['+']) ∧ cs = sign ++ dropPlus cs := by
  unfold dropPlus
  split
  · exact ⟨['+'], Or.inr rfl, rfl⟩
  · exact ⟨[], Or.inl rfl, rfl⟩

theorem dropPlus_append {sign : List Char} (hsign : sign = [] ∨ sign = ['+'])
    (hdigits : ∀ c ∈ digits, c.isDigit = true) : dropPlus (sign ++ digits) = digits := by
  obtain rfl | rfl := hsign
  · rw [List.nil_append, dropPlus]
    rintro rest rfl
    exact absurd (hdigits '+' List.mem_cons_self) (by decide)
  · rfl

/-- A sign and digits have no blanks at their ends. -/
theorem trimmed_append {sign : List Char} (hsign : sign = [] ∨ sign = ['+'])
    (hdigits : ∀ c ∈ digits, c.isDigit = true) : Trimmed (sign ++ digits) := by
  refine trimmed_of_forall fun c hc => ?_
  obtain hc | hc := List.mem_append.1 hc
  · obtain rfl | rfl := hsign
    · cases hc
    · rw [List.mem_singleton.1 hc]
      decide
  · exact isBlank_of_isDigit (hdigits c hc)

/-- Digits are read if there are any and nothing else, and their value is below the limit. -/
theorem read?_eq_some_iff_dropPlus : read? cs = some n ↔
    dropPlus (trim cs) ≠ [] ∧ (∀ c ∈ dropPlus (trim cs), c.isDigit = true) ∧
      value (dropPlus (trim cs)) = n ∧ n < 2 ^ 64 := by
  have hlimit : limit = 2 ^ 64 := rfl
  rw [read?, ← hlimit]
  generalize dropPlus (trim cs) = digits
  have hbad : (digits.isEmpty || !digits.all Char.isDigit) = true ↔
      ¬(digits ≠ [] ∧ ∀ c ∈ digits, c.isDigit = true) := by
    simp only [Bool.or_eq_true, Bool.not_eq_true', List.isEmpty_iff, ← List.all_eq_true,
      Bool.not_eq_true, not_and_or, not_not, ne_eq]
  split
  · rename_i hrefused
    exact iff_of_false (Option.some_ne_none n).symm fun h => hbad.1 hrefused ⟨h.1, h.2.1⟩
  · rename_i hpassed
    have hdigits := not_not.1 (mt hbad.2 hpassed)
    split
    · rename_i hlt
      rw [Option.some.injEq]
      exact ⟨fun h => ⟨hdigits.1, hdigits.2, h, h ▸ hlt⟩, fun h => h.2.2.1⟩
    · rename_i hlt
      exact iff_of_false (Option.some_ne_none n).symm fun h => hlt (h.2.2.1 ▸ h.2.2.2)

/-- **What is read is a numeral below the limit, and every such numeral is read.** -/
theorem read?_eq_some_iff : read? cs = some n ↔ IsNumeral cs n ∧ n < 2 ^ 64 := by
  rw [read?_eq_some_iff_dropPlus]
  constructor
  · rintro ⟨hne, hdigits, hvalue, hlt⟩
    obtain ⟨sign, hsign, htrim⟩ := exists_dropPlus (trim cs)
    refine ⟨⟨sign, dropPlus (trim cs), ?_, hsign, hne, hdigits, hvalue⟩, hlt⟩
    rw [← htrim]
    exact blanksAround_trim cs
  · rintro ⟨⟨sign, digits, hblanks, hsign, hne, hdigits, hvalue⟩, hlt⟩
    rw [(trim_eq_iff (trimmed_append hsign hdigits)).2 hblanks, dropPlus_append hsign hdigits]
    exact ⟨hne, hdigits, hvalue, hlt⟩

/-- The decimal form of a number is a numeral of it. -/
theorem isNumeral_toString (n : Nat) : IsNumeral (toString n).toList n := by
  rw [Nat.toString_eq_ofList_toDigits, @String.toList_ofList (Nat.toDigits 10 n)]
  exact ⟨[], Nat.toDigits 10 n, .refl _, Or.inl rfl, Nat.toDigits_ne_nil,
    fun c hc => Nat.isDigit_of_mem_toDigits (by decide) (by decide) hc,
    Nat.ofDigitChars_ten_toDigits⟩

end FixedWidth.Text.Numeral

namespace FixedWidth

open Text.Numeral Unicode

variable {raw : String} {n : Nat}

/-! ## Widths -/

namespace Layout

theorem parseWidth_eq_ok_iff : parseWidth raw = .ok n ↔ IsNumeral raw.toList n ∧ n < 2 ^ 64 := by
  rw [← read?_eq_some_iff, parseWidth]
  cases read? raw.toList <;> simp

/-- **A width that is no numeral below the limit** is refused, with the text as it was declared. -/
theorem parseWidth_eq_error_iff {error : InvalidWidth} : parseWidth raw = .error error ↔
    error = ⟨raw⟩ ∧ ∀ width, ¬(IsNumeral raw.toList width ∧ width < 2 ^ 64) := by
  simp only [← read?_eq_some_iff, ← Option.eq_none_iff_forall_ne_some]
  rw [parseWidth]
  cases read? raw.toList <;> simp [eq_comm]

end Layout

/-! ## Repetitions -/

namespace Table.Repetition

variable {declared : Option String}

theorem trim_eq_asterisk_iff : trim raw.toList = ['*'] ↔ BlanksAround ['*'] raw.toList :=
  trim_eq_iff (trimmed_singleton (by decide))

/-- **An asterisk with blanks around it** declares as many items as there are. -/
theorem parse_eq_dynamic_iff : parse declared = .dynamic ↔
    ∃ raw, declared = some raw ∧ BlanksAround ['*'] raw.toList := by
  cases declared with
  | none => simp [parse]
  | some raw =>
    rw [parse]
    split_ifs with hstar <;> simpa [← trim_eq_asterisk_iff] using hstar

theorem read?_eq_none_of_asterisk (h : BlanksAround ['*'] raw.toList) :
    read? raw.toList = none := by
  rw [read?, trim_eq_asterisk_iff.2 h]
  decide

/-- **A numeral declares its number of items**, and one item is what anything else but an asterisk
declares. -/
theorem parse_eq_fixed_iff : parse declared = .fixed n ↔
    (∃ raw, declared = some raw ∧ IsNumeral raw.toList n ∧ n < 2 ^ 64) ∨
      n = 1 ∧ ∀ raw, declared = some raw → ¬BlanksAround ['*'] raw.toList ∧
        ∀ count, ¬(IsNumeral raw.toList count ∧ count < 2 ^ 64) := by
  cases declared with
  | none => simp [parse, eq_comm]
  | some raw =>
    simp only [← read?_eq_some_iff, ← Option.eq_none_iff_forall_ne_some, Option.some.injEq,
      exists_eq_left', forall_eq']
    by_cases hstar : BlanksAround ['*'] raw.toList
    · rw [parse_eq_dynamic_iff.2 ⟨raw, rfl, hstar⟩, read?_eq_none_of_asterisk hstar]
      simp [hstar]
    · have hparse : parse (some raw) = .fixed ((read? raw.toList).getD 1) := by
        rw [parse, if_neg (mt trim_eq_asterisk_iff.1 hstar)]
      rw [hparse]
      cases read? raw.toList <;> simp [hstar, eq_comm]

/-- **A repetition is read back from the text that it is written as.** -/
theorem parse_render (repetition : Repetition)
    (h : ∀ count, repetition = .fixed count → count < 2 ^ 64) :
    parse (some repetition.render) = repetition := by
  cases repetition with
  | dynamic => exact parse_eq_dynamic_iff.2 ⟨_, rfl, .refl _⟩
  | fixed count =>
    exact parse_eq_fixed_iff.2 (Or.inl ⟨_, rfl, isNumeral_toString count, h count rfl⟩)

end Table.Repetition

open Table (Repetition)

/-- **What declares a width or a repetition.** A width is declared by a decimal numeral of a number
below `2 ^ 64` with blanks around it; any other text is refused as it stands. An asterisk with
blanks around it declares a dynamic repetition, such a numeral a fixed one, and anything else, or
nothing, one item. So repetitions and widths below `2 ^ 64` are read back from what they are written
as. -/
theorem parse_declarations :
    (∀ raw width, Layout.parseWidth raw = .ok width ↔
        IsNumeral raw.toList width ∧ width < 2 ^ 64) ∧
      (∀ raw error, Layout.parseWidth raw = .error error ↔
        error = ⟨raw⟩ ∧ ∀ width, ¬(IsNumeral raw.toList width ∧ width < 2 ^ 64)) ∧
      (∀ declared, Repetition.parse declared = .dynamic ↔
        ∃ raw, declared = some raw ∧ BlanksAround ['*'] raw.toList) ∧
      (∀ declared count, Repetition.parse declared = .fixed count ↔
        (∃ raw, declared = some raw ∧ IsNumeral raw.toList count ∧ count < 2 ^ 64) ∨
          count = 1 ∧ ∀ raw, declared = some raw → ¬BlanksAround ['*'] raw.toList ∧
            ∀ other, ¬(IsNumeral raw.toList other ∧ other < 2 ^ 64)) ∧
      (∀ repetition : Repetition, (∀ count, repetition = .fixed count → count < 2 ^ 64) →
        Repetition.parse (some repetition.render) = repetition) ∧
      ∀ width < 2 ^ 64, Layout.parseWidth (toString width) = .ok width :=
  ⟨fun _ _ => Layout.parseWidth_eq_ok_iff, fun _ _ => Layout.parseWidth_eq_error_iff,
    fun _ => Repetition.parse_eq_dynamic_iff, fun _ _ => Repetition.parse_eq_fixed_iff,
    Repetition.parse_render,
    fun width hlt => Layout.parseWidth_eq_ok_iff.2 ⟨isNumeral_toString width, hlt⟩⟩

/-- The greatest width is read back and the number after it is refused, while no items at all can be
declared, with a sign and zeros in front. -/
theorem greatest_parse_declarations :
    Layout.parseWidth (toString (2 ^ 64 - 1)) = .ok (2 ^ 64 - 1) ∧
      (∀ width, ¬(IsNumeral (toString (2 ^ 64)).toList width ∧ width < 2 ^ 64)) ∧
      Repetition.parse (some (Repetition.fixed 0).render) = .fixed 0 ∧
      Repetition.parse (some " +000\u3000") = .fixed 0 := by
  obtain ⟨-, hrefused, -, hfixed, hrender, hwidth⟩ := parse_declarations
  refine ⟨hwidth _ (by decide), ((hrefused _ ⟨toString (2 ^ 64)⟩).1 (by decide +kernel)).2,
    hrender _ fun count hcount => by cases hcount; decide, (hfixed _ _).2 (Or.inl ?_)⟩
  have hblanks : BlanksAround ['+', '0', '0', '0'] " +000\u3000".toList :=
    ⟨[' '], ['\u3000'], List.all_eq_true.1 (by decide), List.all_eq_true.1 (by decide), by decide⟩
  have hnumeral : IsNumeral " +000\u3000".toList 0 :=
    ⟨['+'], ['0', '0', '0'], hblanks, Or.inr rfl, by decide, List.all_eq_true.1 (by decide),
      by decide⟩
  exact ⟨_, rfl, hnumeral, by decide⟩

end FixedWidth
