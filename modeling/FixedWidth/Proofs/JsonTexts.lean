import FixedWidth.Proofs.Literals
import FixedWidth.Text.Json

/-!
# Proofs/JsonTexts — JSON text is unambiguous and its blanks are layout

    object [("a", "x y")]  ──compact──▸  {"a":"x y"}
              │                              ▲
              └────pretty────▸  {            │ dropBlanks
                                  "a": "x y" │
                                }  ──────────┘

A string ends at the first quote that no escape holds, and an array or object at the bracket that
its first character opens. So data in front of a text is told from its characters
(`cancels_compact`). What `pretty` adds are blanks outside of strings (`dropBlanks_pretty`).
-/

namespace FixedWidth.Text.Json

/-- What holds of strings, and of arrays and objects if it holds of what is in them, holds of all
data. -/
theorem induction {P : Json → Prop} (string : ∀ content, P (string content))
    (array : ∀ items, (∀ item ∈ items, P item) → P (array items))
    (object : ∀ members, (∀ member ∈ members, P member.2) → P (object members)) :
    ∀ json, P json
  | .string content => string content
  | .array items => array items fun item _ => induction string array object item
  | .object members => object members fun member _ => induction string array object member.2
termination_by json => sizeOf json
decreasing_by
  · have := List.sizeOf_lt_of_mem ‹item ∈ items›
    rw [Json.array.sizeOf_spec]
    omega
  · have := List.sizeOf_lt_of_mem ‹member ∈ members›
    have : sizeOf member = 1 + sizeOf member.1 + sizeOf member.2 := Prod.mk.sizeOf_spec _ _
    rw [Json.object.sizeOf_spec]
    omega

/-! ## Strings -/

/-- The character that a letter after a backslash stands for. -/
def unescape? : Char → Option Char
  | '"' => some '"'
  | '\\' => some '\\'
  | 'b' => some '\x08'
  | 'f' => some '\x0c'
  | 'n' => some '\n'
  | 'r' => some '\r'
  | 't' => some '\t'
  | _ => none

/-- The character of an escape without its backslash, and the text behind it. -/
def escaped? : List Char → Option (Char × List Char)
  | 'u' :: '0' :: '0' :: high :: low :: rest =>
    (Quoted.hexNumber? [high, low]).map fun code => (.ofNat code, rest)
  | c :: rest => (unescape? c).map (·, rest)
  | [] => none

/-- The first character of a string, unless it ends, and the text behind it. -/
def next? : List Char → Option (Char × List Char)
  | [] => none
  | c :: rest => if c = '"' then none else if c = '\\' then escaped? rest else some (c, rest)

theorem hexNumber?_hexDigits {n : Nat} (h : n < 256) :
    Quoted.hexNumber? [hexDigit (n / 16), hexDigit n] = some n := by
  have hhigh := (Quoted.hexValue?_digitChar (n / 16 % 16) (Nat.mod_lt _ (by omega))).1
  have hlow := (Quoted.hexValue?_digitChar (n % 16) (Nat.mod_lt _ (by omega))).1
  simp only [Quoted.hexNumber?, hexDigit, List.foldlM_cons, hhigh, hlow, List.foldlM_nil]
  simp only [Option.map_some, Option.bind_eq_bind, Option.bind_some, Option.pure_def,
    Option.some.injEq]
  omega

/-- **A character is read back from its escape.** -/
theorem next?_escape (c : Char) (rest : List Char) : next? (escape c ++ rest) = some (c, rest) := by
  unfold escape
  split_ifs with hquote hbackslash hb hf hn hr ht hcontrol
  · subst hquote; rfl
  · subst hbackslash; rfl
  · subst hb; rfl
  · subst hf; rfl
  · subst hn; rfl
  · subst hr; rfl
  · subst ht; rfl
  · have hnumber := hexNumber?_hexDigits (show c.toNat < 256 by omega)
    simp only [List.cons_append, List.nil_append, next?, escaped?, hnumber]
    simp
  · simp [next?, hquote, hbackslash]

/-- **A string is told from the text that it begins.** -/
theorem content_append_inj {content content' u v : List Char}
    (h : content.flatMap escape ++ '"' :: u = content'.flatMap escape ++ '"' :: v) :
    content = content' ∧ u = v := by
  induction content generalizing content' with
  | nil =>
    cases content' with
    | nil => exact ⟨rfl, (List.cons.inj h).2⟩
    | cons c rest =>
      rw [List.flatMap_cons, List.append_assoc] at h
      have hnext := congrArg next? h
      rw [next?_escape] at hnext
      cases hnext
  | cons c rest ih =>
    rw [List.flatMap_cons, List.append_assoc] at h
    have hnext := congrArg next? h
    rw [next?_escape] at hnext
    cases content' with
    | nil => cases hnext
    | cons c' rest' =>
      rw [List.flatMap_cons, List.append_assoc, next?_escape] at hnext
      obtain ⟨hc, hrest⟩ := Prod.mk.inj (Option.some.inj hnext)
      obtain ⟨hcontent, hbehind⟩ := ih hrest
      exact ⟨congrArg₂ List.cons hc hcontent, hbehind⟩

theorem quote_append_inj {content content' : String} {u v : List Char}
    (h : quote content ++ u = quote content' ++ v) : content = content' ∧ u = v := by
  simp only [quote, List.append_assoc, List.cons_append] at h
  obtain ⟨hcontent, hbehind⟩ := content_append_inj (List.cons.inj h).2
  exact ⟨String.toList_injective hcontent, hbehind⟩

/-! ## Values with marks between them -/

section Joined

variable {α : Type} {write write' : α → List Char} {values values' : List α} {u v : List Char}
  {close : Char}

/-- What is written for a value is told from the text that it begins. -/
def Cancels (write : α → List Char) (value : α) : Prop :=
  ∀ value' u v, write value ++ u = write value' ++ v → value = value' ∧ u = v

/-- Values in order, with a comma in front of each. -/
def listed (write : α → List Char) (values : List α) : List Char :=
  values.flatMap fun value => ',' :: write value

/-- Values in order, with commas between them. -/
def joined (write : α → List Char) : List α → List Char
  | [] => []
  | value :: rest => write value ++ listed write rest

theorem listed_append_inj (hcancels : ∀ value ∈ values, Cancels write value) (hclose : close ≠ ',')
    (h : listed write values ++ close :: u = listed write values' ++ close :: v) :
    values = values' ∧ u = v := by
  induction values generalizing values' with
  | nil =>
    cases values' with
    | nil => exact ⟨rfl, (List.cons.inj h).2⟩
    | cons value' rest' => exact absurd (List.cons.inj h).1 hclose
  | cons value rest ih =>
    cases values' with
    | nil => exact absurd (List.cons.inj h).1.symm hclose
    | cons value' rest' =>
      rw [List.forall_mem_cons] at hcancels
      simp only [listed, List.flatMap_cons, List.cons_append, List.append_assoc] at h
      obtain ⟨hvalue, hrest⟩ := hcancels.1 _ _ _ (List.cons.inj h).2
      obtain ⟨hvalues, hbehind⟩ := ih hcancels.2 hrest
      exact ⟨congrArg₂ List.cons hvalue hvalues, hbehind⟩

theorem joined_cons_append_ne {value : α} {rest : List α}
    (hbegin : ∃ c text, write value = c :: text ∧ c ≠ close) :
    joined write (value :: rest) ++ u ≠ close :: v := by
  obtain ⟨c, text, hwrite, hne⟩ := hbegin
  rw [joined, hwrite]
  exact fun h => hne (List.cons.inj h).1

/-- **Values are told from the text that they begin**, if none begins with what closes them. -/
theorem joined_append_inj (hcancels : ∀ value ∈ values, Cancels write value) (hclose : close ≠ ',')
    (hbegin : ∀ value, ∃ c text, write value = c :: text ∧ c ≠ close)
    (h : joined write values ++ close :: u = joined write values' ++ close :: v) :
    values = values' ∧ u = v := by
  cases values with
  | nil =>
    cases values' with
    | nil => exact ⟨rfl, (List.cons.inj h).2⟩
    | cons value' rest' => exact absurd h.symm (joined_cons_append_ne (hbegin value'))
  | cons value rest =>
    cases values' with
    | nil => exact absurd h (joined_cons_append_ne (hbegin value))
    | cons value' rest' =>
      rw [List.forall_mem_cons] at hcancels
      rw [joined, joined, List.append_assoc, List.append_assoc] at h
      obtain ⟨hvalue, hrest⟩ := hcancels.1 _ _ _ h
      obtain ⟨hvalues, hbehind⟩ := listed_append_inj hcancels.2 hclose hrest
      exact ⟨congrArg₂ List.cons hvalue hvalues, hbehind⟩

end Joined

/-! ## Without blanks -/

/-- A member of an object without blanks. -/
def compactMember (member : String × Json) : List Char :=
  quote member.1 ++ ':' :: member.2.compact

theorem compactItems_eq (items : List Json) :
    compact.compactItems items = joined compact items := by
  have hmore : ∀ items, compact.compactMoreItems items = listed compact items := by
    intro items
    induction items with
    | nil => rfl
    | cons item rest ih => simp [compact.compactMoreItems, listed, ih]
  cases items with
  | nil => rfl
  | cons item rest => rw [compact.compactItems, hmore, joined]

theorem compactMembers_eq (members : List (String × Json)) :
    compact.compactMembers members = joined compactMember members := by
  have hmore : ∀ members, compact.compactMoreMembers members = listed compactMember members := by
    intro members
    induction members with
    | nil => rfl
    | cons member rest ih => simp [compact.compactMoreMembers, listed, compactMember, ih]
  cases members with
  | nil => rfl
  | cons member rest => simp [compact.compactMembers, hmore, joined, compactMember]

theorem compact_array (items : List Json) :
    compact (array items) = '[' :: (joined compact items ++ [']']) := by
  rw [compact, compactItems_eq]
  rfl

theorem compact_object (members : List (String × Json)) :
    compact (object members) = '\x7b' :: (joined compactMember members ++ ['\x7d']) := by
  rw [compact, compactMembers_eq]
  rfl

/-- The first character of data. -/
theorem exists_compact_eq_cons (json : Json) :
    ∃ c rest, json.compact = c :: rest ∧ c ≠ ']' := by
  cases json with
  | string content => exact ⟨'"', _, rfl, by decide⟩
  | array items => exact ⟨'[', _, rfl, by decide⟩
  | object members => exact ⟨'\x7b', _, rfl, by decide⟩

theorem exists_compactMember_eq_cons (member : String × Json) :
    ∃ c rest, compactMember member = c :: rest ∧ c ≠ '\x7d' :=
  ⟨'"', _, rfl, by decide⟩

theorem Cancels.member {member : String × Json} (h : Cancels compact member.2) :
    Cancels compactMember member := by
  rintro ⟨name, value⟩ u v heq
  simp only [compactMember, List.append_assoc, List.cons_append] at heq
  obtain ⟨hname, hrest⟩ := quote_append_inj heq
  obtain ⟨hvalue, hbehind⟩ := h _ _ _ (List.cons.inj hrest).2
  exact ⟨Prod.ext hname hvalue, hbehind⟩

/-- **Data is told from the text that it begins.** -/
theorem cancels_compact (json : Json) : Cancels compact json := by
  induction json using induction with
  | string content =>
    intro json' u v h
    cases json' with
    | string content' =>
      obtain ⟨hcontent, hbehind⟩ := quote_append_inj h
      exact ⟨congrArg string hcontent, hbehind⟩
    | array | object => cases (List.cons.inj h).1
  | array items ih =>
    intro json' u v h
    cases json' with
    | array items' =>
      simp only [compact_array, List.cons_append, List.append_assoc, List.nil_append] at h
      obtain ⟨hitems, hbehind⟩ :=
        joined_append_inj ih (by decide) exists_compact_eq_cons (List.cons.inj h).2
      exact ⟨congrArg array hitems, hbehind⟩
    | string | object => cases (List.cons.inj h).1
  | object members ih =>
    intro json' u v h
    cases json' with
    | object members' =>
      simp only [compact_object, List.cons_append, List.append_assoc, List.nil_append] at h
      obtain ⟨hmembers, hbehind⟩ := joined_append_inj (fun member hm => (ih member hm).member)
        (by decide) exists_compactMember_eq_cons (List.cons.inj h).2
      exact ⟨congrArg object hmembers, hbehind⟩
    | string | array => cases (List.cons.inj h).1

theorem compact_injective : Function.Injective compact := fun json json' h =>
  (cancels_compact json json' [] [] (congrArg (· ++ []) h)).1

/-! ## Blanks outside of strings -/

/-- The blanks that may stand between the marks and strings of data. -/
def isBlank (c : Char) : Bool := c = ' ' || c = '\n' || c = '\r' || c = '\t'

/-- A text without the blanks outside of strings, where `quoted` says whether it begins in one. -/
def dropBlanks : (quoted : Bool) → List Char → List Char
  | _, [] => []
  | true, '\\' :: c :: rest => '\\' :: c :: dropBlanks true rest
  | true, c :: rest => c :: dropBlanks (c ≠ '"') rest
  | false, c :: rest => if isBlank c then dropBlanks false rest else c :: dropBlanks (c = '"') rest

/-- **A text that loses its blanks and leads out of every string that it leads into.** -/
def Strips (text stripped : List Char) : Prop :=
  ∀ rest, dropBlanks false (text ++ rest) = stripped ++ dropBlanks false rest

namespace Strips

variable {text text' stripped stripped' : List Char} {c : Char}

theorem nil : Strips [] [] := fun _ => rfl

theorem append (h : Strips text stripped) (h' : Strips text' stripped') :
    Strips (text ++ text') (stripped ++ stripped') := fun rest => by
  rw [List.append_assoc, h, h', List.append_assoc]

theorem blank (hc : isBlank c) : Strips [c] [] := fun rest => by
  simp [dropBlanks, hc]

theorem mark (hc : isBlank c = false) (hne : c ≠ '"') : Strips [c] [c] := fun rest => by
  simp [dropBlanks, hc, hne]

theorem newLine (depth : Nat) : Strips (newLine depth) [] := by
  have hblanks : ∀ n, Strips (List.replicate n ' ') [] := by
    intro n
    induction n with
    | zero => exact nil
    | succ n ih => exact (blank rfl).append ih
  exact (blank rfl).append (hblanks _)

variable {α : Type} {write write' : α → List Char} {values : List α}

theorem listed (h : ∀ value ∈ values, Strips (write value) (write' value)) :
    Strips (listed write values) (listed write' values) := by
  induction values with
  | nil => exact nil
  | cons value rest ih =>
    rw [List.forall_mem_cons] at h
    exact ((mark rfl (by decide)).append h.1).append (ih h.2)

theorem joined (h : ∀ value ∈ values, Strips (write value) (write' value)) :
    Strips (joined write values) (joined write' values) := by
  cases values with
  | nil => exact nil
  | cons value rest =>
    rw [List.forall_mem_cons] at h
    exact h.1.append (listed h.2)

end Strips

/-- Inside a string, a character that is no quote and no backslash stands for itself. -/
theorem dropBlanks_plain {c : Char} (hquote : c ≠ '"') (hbackslash : c ≠ '\\') (rest : List Char) :
    dropBlanks true (c :: rest) = c :: dropBlanks true rest := by
  simp [dropBlanks, hquote, hbackslash]

theorem hexDigit_ne (n : Nat) : hexDigit n ≠ '"' ∧ hexDigit n ≠ '\\' := by
  have hdigits : ∀ digit < 16, digit.digitChar ≠ '"' ∧ digit.digitChar ≠ '\\' := by decide
  exact hdigits _ (Nat.mod_lt _ (by omega))

theorem dropBlanks_escape (c : Char) (rest : List Char) :
    dropBlanks true (escape c ++ rest) = escape c ++ dropBlanks true rest := by
  unfold escape
  split_ifs with hquote hbackslash
  · rfl
  · rfl
  · rfl
  · rfl
  · rfl
  · rfl
  · rfl
  · obtain ⟨hhigh, hhigh'⟩ := hexDigit_ne (c.toNat / 16)
    obtain ⟨hlow, hlow'⟩ := hexDigit_ne c.toNat
    have hdigits := (dropBlanks_plain hhigh hhigh' (hexDigit c.toNat :: rest)).trans
      (congrArg _ (dropBlanks_plain hlow hlow' rest))
    exact congrArg (['\\', 'u', '0', '0'] ++ ·) hdigits
  · exact dropBlanks_plain hquote hbackslash rest

/-- **A string keeps its blanks.** -/
theorem Strips.quote (content : String) : Strips (quote content) (quote content) := by
  have hcontent : ∀ (content rest : List Char), dropBlanks true (content.flatMap escape ++ rest) =
      content.flatMap escape ++ dropBlanks true rest := by
    intro content rest
    induction content with
    | nil => rfl
    | cons c content ih =>
      rw [List.flatMap_cons, List.append_assoc, dropBlanks_escape, ih, List.append_assoc]
  intro rest
  have hend := hcontent content.toList ('"' :: rest)
  rw [Json.quote, List.append_assoc, List.append_assoc, List.append_assoc, List.append_assoc]
  exact congrArg ('"' :: ·) hend

/-! ## One member a line -/

/-- A value on a line of its own, one level further in. -/
def indented {α : Type} (depth : Nat) (write : α → List Char) (value : α) : List Char :=
  newLine (depth + 1) ++ write value

/-- Values on lines of their own, if there are any. -/
def spread {α : Type} (depth : Nat) (write : α → List Char) : List α → List Char
  | [] => []
  | value :: rest => joined (indented depth write) (value :: rest) ++ newLine depth

/-- A member of an object, the value of which stands at `depth`. -/
def prettyMember (depth : Nat) (member : String × Json) : List Char :=
  quote member.1 ++ ':' :: ' ' :: pretty depth member.2

theorem prettyItems_eq (depth : Nat) (items : List Json) :
    pretty.prettyItems depth items = spread depth (pretty (depth + 1)) items := by
  have hmore : ∀ items, pretty.prettyMoreItems depth items =
      listed (indented depth (pretty (depth + 1))) items ++ newLine depth := by
    intro items
    induction items with
    | nil => rfl
    | cons item rest ih => simp [pretty.prettyMoreItems, listed, indented, ih]
  cases items with
  | nil => rfl
  | cons item rest => simp [pretty.prettyItems, hmore, spread, joined, indented]

theorem prettyMembers_eq (depth : Nat) (members : List (String × Json)) :
    pretty.prettyMembers depth members = spread depth (prettyMember (depth + 1)) members := by
  have hmore : ∀ members, pretty.prettyMoreMembers depth members =
      listed (indented depth (prettyMember (depth + 1))) members ++ newLine depth := by
    intro members
    induction members with
    | nil => rfl
    | cons member rest ih =>
      simp [pretty.prettyMoreMembers, listed, indented, prettyMember, ih]
  cases members with
  | nil => rfl
  | cons member rest => simp [pretty.prettyMembers, hmore, spread, joined, indented, prettyMember]

theorem strips_spread {α : Type} {write write' : α → List Char} {values : List α}
    (h : ∀ value ∈ values, Strips (write value) (write' value)) (depth : Nat) :
    Strips (spread depth write values) (joined write' values) := by
  have hindented : ∀ value ∈ values, Strips (indented depth write value) (write' value) :=
    fun value hv => (Strips.newLine (depth + 1)).append (h value hv)
  cases values with
  | nil => exact .nil
  | cons value rest =>
    have hlines := (Strips.joined hindented).append (.newLine depth)
    rwa [List.append_nil] at hlines

theorem Strips.member {member : String × Json} {depth : Nat}
    (h : Strips (pretty depth member.2) member.2.compact) :
    Strips (prettyMember depth member) (compactMember member) :=
  (Strips.quote member.1).append
    ((mark (c := ':') rfl (by decide)).append ((blank (c := ' ') rfl).append h))

/-- **What `pretty` adds are blanks outside of strings**, at every depth. -/
theorem strips_pretty (json : Json) : ∀ depth, Strips (pretty depth json) json.compact := by
  induction json using induction with
  | string content => exact fun _ => .quote content
  | array items ih =>
    intro depth
    rw [pretty, prettyItems_eq, compact, compactItems_eq]
    have hitems := strips_spread (fun item hi => ih item hi (depth + 1)) depth
    exact ((Strips.mark rfl (by decide)).append hitems).append (.mark rfl (by decide))
  | object members ih =>
    intro depth
    rw [pretty, prettyMembers_eq, compact, compactMembers_eq]
    have hmembers := strips_spread (fun member hm => (ih member hm (depth + 1)).member) depth
    exact ((Strips.mark rfl (by decide)).append hmembers).append (.mark rfl (by decide))

theorem dropBlanks_pretty (json : Json) : dropBlanks false (pretty 0 json) = json.compact := by
  simpa [dropBlanks] using strips_pretty json 0 []

theorem pretty_injective : Function.Injective (pretty 0) := fun json json' h =>
  compact_injective (by rw [← dropBlanks_pretty, h, dropBlanks_pretty])

end FixedWidth.Text.Json
