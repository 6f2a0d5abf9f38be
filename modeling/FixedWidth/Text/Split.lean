/-!
# Text/Split — the text around the first occurrence of a pattern

`splitAt? pattern text` cuts `text` around the first occurrence of `pattern`. Its law
`append_of_splitAt?` says that nothing is lost.
-/

namespace FixedWidth.Text

/-- The texts before and after the first occurrence of a pattern. -/
def splitAt? (pattern : List Char) : List Char → Option (List Char × List Char)
  | [] => if pattern.isEmpty then some ([], []) else none
  | c :: rest =>
    if pattern.isPrefixOf (c :: rest) then some ([], (c :: rest).drop pattern.length)
    else (splitAt? pattern rest).map fun (before, after) => (c :: before, after)

/-- Whether a pattern occurs in a text. -/
def hasPart (pattern text : List Char) : Bool := (splitAt? pattern text).isSome

theorem append_of_splitAt? {pattern text before after : List Char}
    (h : splitAt? pattern text = some (before, after)) : text = before ++ pattern ++ after := by
  induction text generalizing before with
  | nil =>
    simp only [splitAt?] at h
    split at h
    · simp_all
    · simp at h
  | cons c rest ih =>
    rw [splitAt?] at h
    split at h
    · rename_i hp
      obtain ⟨t, ht⟩ := List.isPrefixOf_iff_prefix.1 hp
      simp only [Option.some.injEq, Prod.mk.injEq] at h
      obtain ⟨rfl, rfl⟩ := h
      rw [← ht]
      simp
    · obtain ⟨⟨b, a⟩, hs, he⟩ := Option.map_eq_some_iff.1 h
      simp only [Prod.mk.injEq] at he
      obtain ⟨rfl, rfl⟩ := he
      rw [ih hs]
      simp

end FixedWidth.Text
