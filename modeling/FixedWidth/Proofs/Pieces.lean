import FixedWidth.Markup.Reference
import FixedWidth.Markup.Token
import Mathlib.Data.List.Infix
import Mathlib.Data.List.TakeWhile

/-!
# Proofs/Pieces — a document piece by piece

    <a>x &lt; y</a>     startTag `a`, text `x `, reference `lt`, text ` y`, endTag `a`

Each piece leaves an end of the text without its first character (`Token.suffix_of_next`), so the
pieces that a text begins with are the first ones of its scan (`Begins.exists_scanFrom`). Characters
and references compose a text (`Composes`), which is the one that an attribute with the same
characters in its value has (`Begins.expand_eq`).
-/

namespace FixedWidth.Markup

open Text (byteLength splitAt? append_of_splitAt?)

variable {cs after content : List Char} {token : Token}

theorem bind_eq_ok {α β ε : Type} {first : Except ε α} {next : α → Except ε β} {result : β} :
    first >>= next = .ok result ↔ ∃ value, first = .ok value ∧ next value = .ok result := by
  cases first with
  | error => exact ⟨nofun, fun ⟨_, h, _⟩ => nomatch h⟩
  | ok value => exact ⟨fun h => ⟨value, rfl, h⟩, fun ⟨_, h, h'⟩ => by cases h; exact h'⟩

/-! ## What a piece leaves -/

theorem after?_suffix {pattern : List Char} (h : after? pattern cs = some after) :
    after <:+ cs := by
  obtain ⟨⟨before, after'⟩, hsplit, rfl⟩ := Option.map_eq_some_iff.1 h
  exact ⟨before ++ pattern, (append_of_splitAt? hsplit).symm⟩

theorem closeTag_suffix {quote : Option Char} (h : closeTag quote cs = .ok (content, after)) :
    after <:+ cs := by
  induction cs generalizing quote content with
  | nil => cases quote <;> cases h
  | cons c rest ih =>
    have hmore : ∀ quote, (closeTag quote rest >>= fun part => .ok (c :: part.1, part.2)) =
        .ok (content, after) → after <:+ c :: rest := by
      intro quote hquote
      obtain ⟨part, hrest, heq⟩ := bind_eq_ok.1 hquote
      cases heq
      exact (ih hrest).trans (List.suffix_cons c rest)
    cases quote with
    | none =>
      rw [closeTag] at h
      split at h
      · cases h
        exact List.suffix_cons c _
      · exact hmore _ h
    | some quote => exact hmore _ h

theorem closeDeclaration_suffix {quote : Option Char} (h : closeDeclaration quote cs = some after) :
    after <:+ cs := by
  induction cs generalizing quote with
  | nil => cases quote <;> cases h
  | cons c rest ih =>
    cases quote with
    | none =>
      rw [closeDeclaration] at h
      split at h
      · cases h
        exact List.suffix_cons c _
      · exact (ih h).trans (List.suffix_cons c rest)
    | some quote => exact (ih h).trans (List.suffix_cons c rest)

theorem closeSubsetMarkup_suffix (h : closeSubsetMarkup cs = some after) : after <:+ cs := by
  rw [closeSubsetMarkup] at h
  split_ifs at h
  · exact (after?_suffix h).trans (List.drop_suffix _ _)
  · exact (after?_suffix h).trans (List.drop_suffix _ _)
  · exact closeDeclaration_suffix h
  · exact after?_suffix h

theorem closeSubset_suffix {fuel : Nat} (h : closeSubset fuel cs = some after) : after <:+ cs := by
  induction fuel generalizing cs with
  | zero => cases h
  | succ fuel ih =>
    cases cs with
    | nil => cases h
    | cons c rest =>
      rw [closeSubset] at h
      refine List.IsSuffix.trans ?_ (List.suffix_cons c rest)
      split_ifs at h
      · cases h
        exact List.suffix_rfl
      · obtain ⟨behind, hmarkup, hsubset⟩ := Option.bind_eq_some_iff.1 h
        exact (ih hsubset).trans (closeSubsetMarkup_suffix hmarkup)
      · exact ih h

theorem closeDoctype_suffix {quote : Option Char} (h : closeDoctype quote cs = some after) :
    after <:+ cs := by
  induction cs generalizing quote with
  | nil => cases quote <;> cases h
  | cons c rest ih =>
    refine List.IsSuffix.trans ?_ (List.suffix_cons c rest)
    cases quote with
    | none =>
      rw [closeDoctype] at h
      split at h
      · cases h
        exact List.suffix_rfl
      · split at h
        · obtain ⟨behind, hsubset, hclose⟩ := Option.bind_eq_some_iff.1 h
          exact (after?_suffix hclose).trans (closeSubset_suffix hsubset)
        · exact ih h
    | some quote => exact ih h

theorem scanDoctype_suffix (h : scanDoctype cs = .ok (token, after)) : after <:+ cs := by
  rw [scanDoctype] at h
  split at h
  · cases h
  · rename_i behind hclose
    dsimp only at h
    split_ifs at h
    cases h
    exact closeDoctype_suffix hclose

theorem scanBang_suffix (h : scanBang cs = .ok (token, after)) : after <:+ cs := by
  revert h
  fun_cases scanBang cs with
  | case1 body after' hafter =>
    rintro ⟨⟩
    exact ((after?_suffix hafter).trans (List.suffix_cons _ _)).trans (List.suffix_cons _ _)
  | case4 rest hprefix content behind hsplit =>
    rintro ⟨⟩
    have hafter : after? "]]>".toList (rest.drop 6) = some after := by rw [after?, hsplit]; rfl
    exact ((after?_suffix hafter).trans (List.drop_suffix _ _)).trans (List.suffix_cons _ _)
  | case7 | case8 => exact scanDoctype_suffix
  | _ => exact nofun

theorem scanInstruction_suffix (h : scanInstruction cs = .ok (token, after)) : after <:+ cs := by
  rw [scanInstruction] at h
  split at h
  · cases h
  · split at h
    · rename_i behind hafter
      cases h
      exact after?_suffix hafter
    · cases h

theorem scanReference_suffix (h : scanReference cs = .ok (token, after)) : after <:+ cs := by
  rw [scanReference] at h
  split at h
  · rename_i behind hdrop
    cases h
    exact (List.suffix_cons _ _).trans (hdrop ▸ List.dropWhile_suffix _)
  · cases h

theorem scanMarkup_suffix (h : scanMarkup cs = .ok (token, after)) : after <:+ cs := by
  revert h
  fun_cases scanMarkup cs with
  | case1 rest => exact fun h => (scanBang_suffix h).trans (List.suffix_cons _ _)
  | case2 rest => exact fun h => (scanInstruction_suffix h).trans (List.suffix_cons _ _)
  | case3 =>
    intro h
    obtain ⟨part, hclose, heq⟩ := bind_eq_ok.1 h
    cases heq
    exact closeTag_suffix hclose

/-- Whether a character stands for itself between markup. -/
def isPlain (c : Char) : Bool := c != '<' && c != '&'

/-- A text goes on as long as characters stand for themselves. -/
theorem Token.next_of_isPlain {c : Char} (h : isPlain c = true) :
    Token.next (c :: cs) = .ok (.text (c :: cs.takeWhile isPlain), cs.dropWhile isPlain) := by
  have hne : c ≠ '<' ∧ c ≠ '&' := by simpa [isPlain] using h
  unfold Token.next
  split
  · rename_i heq
    exact absurd (List.cons.inj heq).1 hne.1
  · rename_i heq
    exact absurd (List.cons.inj heq).1 hne.2
  · change Except.ok (Token.text ((c :: cs).takeWhile isPlain), (c :: cs).dropWhile isPlain) = _
    rw [List.takeWhile_cons_of_pos h, List.dropWhile_cons_of_pos h]

theorem amp_notMem_run {c : Char} (h : isPlain c = true) : '&' ∉ c :: cs.takeWhile isPlain := by
  rw [← List.takeWhile_cons_of_pos h]
  exact fun hmem => absurd (List.mem_takeWhile_imp hmem) (by decide)

theorem isPlain_cases (c : Char) : c = '<' ∨ c = '&' ∨ isPlain c = true := by
  by_cases hlt : c = '<' <;> by_cases hamp : c = '&' <;> simp [isPlain, hlt, hamp]

/-- **A piece leaves an end of the text without its first character.** -/
theorem Token.suffix_of_next {c : Char} (h : Token.next (c :: cs) = .ok (token, after)) :
    after <:+ cs := by
  obtain rfl | rfl | hplain := isPlain_cases c
  · exact scanMarkup_suffix h
  · exact scanReference_suffix h
  · rw [Token.next_of_isPlain hplain] at h
    cases h
    exact List.dropWhile_suffix _

/-! ## The first pieces -/

/-- Whether a piece begins an element. -/
def Token.isStart : Token → Bool
  | startTag _ | emptyTag _ => true
  | _ => false

/-- Whether an element keeps nothing of a piece, though there are characters in it. -/
def Token.vanishes : Token → Bool
  | text run | characterData run => !run.isEmpty && Unicode.isBlankText run
  | _ => false

/-- **The pieces that a text begins with**, and the text behind them. -/
inductive Begins : List Char → List Token → List Char → Prop where
  | nil {cs : List Char} : Begins cs [] cs
  | cons {c : Char} {cs after rest : List Char} {token : Token} {tokens : List Token}
      (first : Token.next (c :: cs) = .ok (token, after)) (more : Begins after tokens rest) :
      Begins (c :: cs) (token :: tokens) rest

variable {rest : List Char} {tokens : List Token}

theorem Begins.suffix (h : Begins cs tokens rest) : rest <:+ cs := by
  induction h with
  | nil => exact List.suffix_rfl
  | cons first _ ih =>
    exact (ih.trans (Token.suffix_of_next first)).trans (List.suffix_cons _ _)

theorem Begins.append {mid : List Char} {tokens' : List Token} (h : Begins cs tokens mid)
    (h' : Begins mid tokens' rest) : Begins cs (tokens ++ tokens') rest := by
  induction h with
  | nil => exact h'
  | cons first _ ih => exact .cons first (ih h')

/-- **The pieces that a text begins with are the first ones of its scan.** -/
theorem Begins.exists_scanFrom (h : Begins cs tokens rest) {total fuel : Nat}
    (hfuel : cs.length ≤ fuel) :
    ∃ located fuel', located.map Prod.snd = tokens ∧ rest.length ≤ fuel' ∧
      (scanFrom total fuel cs).tokens = located ++ (scanFrom total fuel' rest).tokens := by
  induction h generalizing fuel with
  | nil => exact ⟨[], fuel, rfl, hfuel, rfl⟩
  | @cons c cs after rest token tokens first _ ih =>
    obtain ⟨fuel, rfl⟩ := Nat.exists_eq_add_one_of_ne_zero (Nat.ne_zero_of_lt hfuel)
    have hafter := (Token.suffix_of_next first).length_le
    obtain ⟨located, fuel', hlocated, hrest, hscan⟩ :=
      ih (hafter.trans (Nat.le_of_succ_le_succ hfuel))
    refine ⟨(total - byteLength (c :: cs), token) :: located, fuel', ?_, hrest, ?_⟩
    · rw [List.map_cons, hlocated]
    · rw [scanFrom, first]
      exact congrArg (_ :: ·) hscan

/-! ## Characters and references -/

/-- **The text that characters and references compose**, every reference being replaced by its
character. -/
inductive Composes : List Token → List Char → Prop where
  | nil : Composes [] []
  | text {tokens : List Token} {composed : List Char} (run : List Char)
      (more : Composes tokens composed) : Composes (.text run :: tokens) (run ++ composed)
  | characterData {tokens : List Token} {composed : List Char} (run : List Char)
      (more : Composes tokens composed) : Composes (.characterData run :: tokens) (run ++ composed)
  | reference {tokens : List Token} {composed name : List Char} {character : Char}
      (resolves : resolve 0 name = .ok character) (more : Composes tokens composed) :
      Composes (.reference name :: tokens) (character :: composed)

/-- Where a reference stands matters for its fault only. -/
theorem resolve_of_resolve {start : Nat} {name : List Char} {character : Char}
    (h : resolve start name = .ok character) (start' : Nat) :
    resolve start' name = .ok character := by
  unfold resolve at h ⊢
  split
  · exact h
  · rename_i hname
    split at h
    · exact absurd rfl (hname _)
    · cases hpredefined : predefined? (String.ofList name) with
      | none => rw [hpredefined] at h; cases h
      | some c => rw [hpredefined] at h; exact h

theorem exists_of_scanReference (h : scanReference cs = .ok (token, after)) :
    ∃ name, token = .reference name ∧ cs = name ++ ';' :: after ∧ '&' ∉ name ∧ ';' ∉ name := by
  rw [scanReference] at h
  split at h
  · rename_i behind hdrop
    cases h
    refine ⟨_, rfl, ?_, ?_, ?_⟩
    · rw [← hdrop, List.takeWhile_append_dropWhile]
    · intro hmem
      have := List.mem_takeWhile_imp hmem
      simp at this
    · intro hmem
      have := List.mem_takeWhile_imp hmem
      simp at this
  · cases h

theorem expandFrom_run {run : List Char} (h : '&' ∉ run) (total offset : Nat) (rest : List Char) :
    ∃ offset', expandFrom total offset none (run ++ rest) =
      (expandFrom total offset' none rest).map (run ++ ·) := by
  induction run generalizing offset with
  | nil => exact ⟨offset, by rw [List.nil_append]; cases expandFrom total offset none rest <;> rfl⟩
  | cons c run ih =>
    rw [List.mem_cons, not_or] at h
    obtain ⟨offset', hrun⟩ := ih h.2 (offset + c.utf8Size)
    refine ⟨offset', ?_⟩
    rw [List.cons_append, expandFrom, if_neg (Ne.symm h.1), hrun]
    cases expandFrom total offset' none rest <;> rfl

theorem expandFrom_name {name : List Char} (hamp : '&' ∉ name) (hstop : ';' ∉ name)
    (total offset start : Nat) (before rest : List Char) :
    ∃ offset', expandFrom total offset (some (start, before)) (name ++ ';' :: rest) =
      (resolve (start + 1) (before.reverse ++ name)).bind fun character =>
        (expandFrom total offset' none rest).map (character :: ·) := by
  induction name generalizing offset before with
  | nil =>
    refine ⟨offset + ';'.utf8Size, ?_⟩
    rw [List.nil_append, expandFrom, if_neg (by decide), if_pos rfl, List.append_nil]
    rfl
  | cons c name ih =>
    rw [List.mem_cons, not_or] at hamp hstop
    obtain ⟨offset', hname⟩ := ih hamp.2 hstop.2 (offset + c.utf8Size) (c :: before)
    refine ⟨offset', ?_⟩
    rw [List.cons_append, expandFrom, if_neg (Ne.symm hamp.1), if_neg (Ne.symm hstop.1), hname,
      List.reverse_cons, List.append_assoc, List.singleton_append]

/-- **Content is composed as an attribute value is expanded**: the pieces of a text without an angle
bracket compose what the text is as a value. -/
theorem Begins.expandFrom_eq {close composed : List Char}
    (h : Begins (content ++ close) tokens close) (hcontent : '<' ∉ content)
    (hcomposes : Composes tokens composed) (total offset : Nat) :
    expandFrom total offset none content = .ok composed := by
  generalize hcs : content ++ close = cs at h
  induction h generalizing content composed offset with
  | nil =>
    cases hcomposes
    rw [List.append_left_eq_self.1 hcs]
    rfl
  | @cons c cs after close token tokens first more ih =>
    -- what is behind the first piece ends in `close`, so the piece is a part of the content
    obtain ⟨content', rfl⟩ := more.suffix
    obtain ⟨run, hrun⟩ := Token.suffix_of_next first
    have hcontent' : content = c :: run ++ content' :=
      List.append_cancel_right (by rw [hcs, ← hrun, List.append_assoc, List.cons_append])
    have hnotMem : '<' ∉ content' := fun hmem =>
      hcontent (hcontent' ▸ List.mem_append_right _ hmem)
    subst hcontent'
    obtain rfl | rfl | hplain := isPlain_cases c
    · exact absurd List.mem_cons_self hcontent
    · obtain ⟨name, rfl, hname, hamp, hstop⟩ := exists_of_scanReference first
      have hinside : run ++ content' = name ++ ';' :: content' := by
        refine (List.append_left_inj close).1 ?_
        rw [List.append_assoc, hrun, hname, List.append_assoc, List.cons_append]
      cases hcomposes with
      | reference resolves hmore =>
        obtain ⟨offset', hexpand⟩ :=
          expandFrom_name hamp hstop total (offset + '&'.utf8Size) offset [] content'
        rw [List.cons_append, expandFrom, if_pos rfl, hinside, hexpand,
          ih hnotMem hmore offset' rfl, List.reverse_nil, List.nil_append,
          resolve_of_resolve resolves]
        rfl
    · rw [Token.next_of_isPlain hplain, Except.ok.injEq, Prod.mk.injEq] at first
      obtain ⟨rfl, hdrop⟩ := first
      have htake : cs.takeWhile isPlain = run := by
        refine (List.append_left_inj (content' ++ close)).1 ?_
        rw [hrun, ← hdrop, List.takeWhile_append_dropWhile]
      cases hcomposes with
      | text _ hmore =>
        have hamp : '&' ∉ c :: cs.takeWhile isPlain := amp_notMem_run hplain
        obtain ⟨offset', hexpand⟩ := expandFrom_run hamp total offset content'
        rw [htake] at hexpand ⊢
        rw [hexpand, ih hnotMem hmore offset' rfl]
        rfl

theorem Begins.expand_eq {close composed : List Char} (h : Begins (content ++ close) tokens close)
    (hcontent : '<' ∉ content) (hcomposes : Composes tokens composed) :
    expand content = .ok composed :=
  h.expandFrom_eq hcontent hcomposes _ 0

end FixedWidth.Markup
