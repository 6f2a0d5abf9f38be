import FixedWidth.Markup.Attribute
import Mathlib.Data.List.Basic
import Mathlib.Data.List.TakeWhile

/-!
# Proofs/AttributeLists — attributes as a tag lists them

     id="A"  times = '3'               read as id, times
     times="2" times="3" id="A"        read as times, and then as the blanks have it

A text `Lists` attributes if it holds one behind the other, each with its key, its sign and its
quoted value. As long as no key comes again they are read in their order, whatever stands behind
them (`Lists.attributesFrom_append`), and no key is read twice (`nodup_attributesFrom`).
-/

namespace FixedWidth.Markup

open Text (splitAt?)

/-! ## Words -/

/-- A word ends where a character stops it. -/
theorem takeWhile_word {cs rest : List Char} {p : Char → Bool} {stop : Char}
    (hcs : ∀ c ∈ cs, p c = true) (hstop : p stop = false) :
    (cs ++ stop :: rest).takeWhile p = cs := by
  rw [List.takeWhile_append_of_pos hcs, List.takeWhile_cons_of_neg (by simp [hstop]),
    List.append_nil]

theorem dropWhile_word {cs rest : List Char} {p : Char → Bool} {stop : Char}
    (hcs : ∀ c ∈ cs, p c = true) (hstop : p stop = false) :
    (cs ++ stop :: rest).dropWhile p = stop :: rest := by
  rw [List.dropWhile_append_of_pos hcs, List.dropWhile_cons_of_neg (by simp [hstop])]

theorem splitAt?_quote {quote : Char} {value rest : List Char} (h : quote ∉ value) :
    splitAt? [quote] (value ++ quote :: rest) = some (value, rest) := by
  induction value with
  | nil => simp [splitAt?]
  | cons c value ih =>
    rw [List.mem_cons, not_or] at h
    rw [List.cons_append, splitAt?, if_neg (by simp [h.1]), ih h.2]
    rfl

/-! ## One attribute -/

/-- Characters that can be the key of an attribute. -/
structure IsKey (key : List Char) : Prop where
  ne_nil : key ≠ []
  ne_sign : ∀ c ∈ key, c ≠ '='
  not_blank : ∀ c ∈ key, isMarkupBlank c = false

/-- Whether characters only separate parts of a tag. -/
def AllBlank (cs : List Char) : Prop := ∀ c ∈ cs, isMarkupBlank c = true

/-- **An attribute as it stands in a tag**, with the blanks before it. -/
inductive Attribute.Spelled : Attribute → List Char → Prop where
  | intro {key value before around after : List Char} {quote : Char} (isKey : IsKey key)
      (blankBefore : AllBlank before) (blankAround : AllBlank around)
      (blankAfter : AllBlank after) (quoted : quote = '"' ∨ quote = '\'')
      (inside : quote ∉ value) :
      Spelled ⟨key, value⟩
        (before ++ (key ++ (around ++ '=' :: (after ++ quote :: (value ++ [quote])))))

/-- An attribute with one blank before it. -/
theorem Attribute.Spelled.plain {key value : List Char} {quote : Char} (isKey : IsKey key)
    (quoted : quote = '"' ∨ quote = '\'') (inside : quote ∉ value) :
    Spelled ⟨key, value⟩ (' ' :: (key ++ '=' :: quote :: (value ++ [quote]))) :=
  @intro key value [' '] [] [] quote isKey (by simp [AllBlank, isMarkupBlank])
    (List.forall_mem_nil _) (List.forall_mem_nil _) quoted inside

variable {entry : Attribute} {text rest : List Char} {seen : List (List Char)}
  {entries : List Attribute}

theorem Attribute.Spelled.ne_nil (h : entry.Spelled text) : text ≠ [] := by
  cases h
  simp

/-- **An attribute whose key was not seen is read**, and its key is seen from then on. -/
theorem Attribute.Spelled.attributesFrom_append (h : entry.Spelled text)
    (hseen : entry.key ∉ seen) (fuel : Nat) (rest : List Char) :
    attributesFrom (fuel + 1) seen (text ++ rest) =
      entry :: attributesFrom fuel (entry.key :: seen) rest := by
  obtain ⟨isKey, blankBefore, blankAround, blankAfter, quoted, inside⟩ := h
  rename_i key value before around after quote
  obtain ⟨c, cs, rfl⟩ := List.exists_cons_of_ne_nil isKey.ne_nil
  obtain ⟨hc, hcs⟩ := List.forall_mem_cons.1 isKey.not_blank
  have hsigns := (List.forall_mem_cons.1 isKey.ne_sign).2
  have hquote : isMarkupBlank quote = false := by rcases quoted with rfl | rfl <;> rfl
  have hkey : ∀ d ∈ cs, !(d == '=' || isMarkupBlank d) := fun d hd => by
    simp [hcs d hd, hsigns d hd]
  -- the key ends at its sign, or at a blank before that
  obtain ⟨stop, behind, hstop, hbehind⟩ : ∃ stop behind,
      (!(stop == '=' || isMarkupBlank stop)) = false ∧
        around ++ '=' :: (after ++ quote :: (value ++ quote :: rest)) = stop :: behind := by
    cases around with
    | nil => exact ⟨'=', _, rfl, rfl⟩
    | cons d around =>
      exact ⟨d, _, by simp [blankAround d List.mem_cons_self], rfl⟩
  have htext : before ++ (c :: cs ++ (around ++ '=' :: (after ++ quote :: (value ++ [quote])))) ++
      rest = before ++ c :: (cs ++ stop :: behind) := by
    simp [← hbehind]
  rw [htext, attributesFrom, dropWhile_word blankBefore hc]
  simp only [takeWhile_word hkey hstop, dropWhile_word hkey hstop]
  rw [← hbehind, dropWhile_word blankAround (by rfl)]
  simp only [List.contains_eq_mem, hseen, decide_false, Bool.false_eq_true, if_false,
    dropWhile_word blankAfter hquote, splitAt?_quote inside]
  rw [if_pos (by simpa using quoted)]

/-! ## Many attributes -/

/-- **A text that lists attributes**, one behind the other. -/
inductive Lists : List Char → List Attribute → Prop where
  | nil : Lists [] []
  | cons {entry : Attribute} {text rest : List Char} {entries : List Attribute}
      (first : entry.Spelled text) (others : Lists rest entries) :
      Lists (text ++ rest) (entry :: entries)

/-- What lists attributes falls into what lists the first ones and what lists the others. -/
theorem Lists.exists_append {front back : List Attribute} (h : Lists text (front ++ back)) :
    ∃ first others, text = first ++ others ∧ Lists first front ∧ Lists others back := by
  induction front generalizing text with
  | nil => exact ⟨[], text, rfl, .nil, h⟩
  | cons entry front ih =>
    cases h with
    | @cons _ written _ _ spelled more =>
      obtain ⟨first, others, rfl, hfront, hback⟩ := ih more
      exact ⟨written ++ first, others, (List.append_assoc _ _ _).symm, .cons spelled hfront, hback⟩

/-- **Attributes with different keys are read in their order**, whatever stands behind them. -/
theorem Lists.attributesFrom_append (h : Lists text entries)
    (hseen : ∀ entry ∈ entries, entry.key ∉ seen) (hdistinct : (entries.map (·.key)).Nodup)
    {fuel : Nat} (hfuel : text.length ≤ fuel) (rest : List Char) :
    ∃ fuel' seen', attributesFrom fuel seen (text ++ rest) =
      entries ++ attributesFrom fuel' seen' rest := by
  induction h generalizing seen fuel with
  | nil => exact ⟨fuel, seen, rfl⟩
  | @cons entry text others entries first _ ih =>
    have hpos := List.length_pos_of_ne_nil first.ne_nil
    rw [List.length_append] at hfuel
    obtain ⟨fuel, rfl⟩ : ∃ less, fuel = less + 1 := ⟨fuel - 1, by omega⟩
    rw [List.forall_mem_cons] at hseen
    rw [List.map_cons, List.nodup_cons] at hdistinct
    have hother : ∀ other ∈ entries, other.key ∉ entry.key :: seen := by
      intro other hmem
      rw [List.mem_cons, not_or]
      exact ⟨fun heq => hdistinct.1 (heq ▸ List.mem_map_of_mem hmem), hseen.2 other hmem⟩
    obtain ⟨fuel', seen', hread⟩ := ih hother hdistinct.2 (by omega : others.length ≤ fuel)
    refine ⟨fuel', seen', ?_⟩
    rw [List.append_assoc, first.attributesFrom_append hseen.1, hread, List.cons_append]

theorem attributesFrom_of_allBlank (h : AllBlank text) (fuel : Nat) (seen : List (List Char)) :
    attributesFrom fuel seen text = [] := by
  cases fuel with
  | zero => rfl
  | succ fuel => rw [attributesFrom, List.dropWhile_eq_nil_iff.2 h]

/-- **The attributes of a tag are read back** if its keys differ and nothing but blanks is behind
them. -/
theorem Lists.attributes_eq (h : Lists text entries) (hdistinct : (entries.map (·.key)).Nodup)
    (hrest : AllBlank rest) : attributes (text ++ rest) = entries := by
  have hfuel : text.length ≤ (text ++ rest).length := by
    rw [List.length_append]
    exact Nat.le_add_right _ _
  obtain ⟨fuel, seen, hread⟩ :=
    h.attributesFrom_append (fun _ _ => List.not_mem_nil) hdistinct hfuel rest
  rw [attributes, hread, attributesFrom_of_allBlank hrest, List.append_nil]

/-- The keys that are read were not seen before. -/
theorem key_notMem_of_mem_attributesFrom {fuel : Nat}
    (h : entry ∈ attributesFrom fuel seen text) : entry.key ∉ seen := by
  fun_induction attributesFrom fuel seen text with
  | case1 | case2 | case4 | case6 => cases h
  | case3 _ _ _ _ _ _ _ _ _ _ _ ih | case8 _ _ _ _ _ _ _ _ ih => exact ih h
  | case5 _ _ _ _ _ _ _ _ _ _ hnew _ _ _ _ _ _ _ ih =>
    obtain rfl | hmem := List.mem_cons.1 h
    · simpa using hnew
    · exact fun hseen => ih hmem (List.mem_cons_of_mem _ hseen)
  | case7 _ _ _ _ _ _ _ _ _ _ _ _ _ _ _ ih =>
    exact fun hseen => ih h (List.mem_cons_of_mem _ hseen)

/-- **No key is read twice.** -/
theorem nodup_attributesFrom (fuel : Nat) (seen : List (List Char)) (text : List Char) :
    ((attributesFrom fuel seen text).map (·.key)).Nodup := by
  fun_induction attributesFrom fuel seen text with
  | case1 | case2 | case4 | case6 => exact List.nodup_nil
  | case3 _ _ _ _ _ _ _ _ _ _ _ ih | case7 _ _ _ _ _ _ _ _ _ _ _ _ _ _ _ ih
  | case8 _ _ _ _ _ _ _ _ ih => exact ih
  | case5 _ _ _ _ _ _ _ _ _ _ _ _ _ _ _ _ _ _ ih =>
    refine List.nodup_cons.2 ⟨fun hmem => ?_, ih⟩
    obtain ⟨other, hother, hkey⟩ := List.mem_map.1 hmem
    exact key_notMem_of_mem_attributesFrom hother (hkey ▸ List.mem_cons_self)

end FixedWidth.Markup
