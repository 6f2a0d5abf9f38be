import FixedWidth.Codec.Decode
import FixedWidth.Proofs.Edges
import FixedWidth.Proofs.Members

/-!
# Proofs/Reading — decoding, without fuel

`Reads` is the reading of a record, and of the lists in it, with one rule for each thing that a
step can do (`stepAction`) and no bound on the number of items or the depth. A record is entered
along a direct edge, or behind the beginning of the one around it; so each text is read to the end
(`decodes_decode`), in one way (`Reads.unique`).
-/

namespace FixedWidth.Wire.Cursor

variable {cursor next last : Cursor}

/-! ## Cursors that move on -/

/-- The second cursor stands in the same text, at the first one or behind it. -/
structure Ahead (cursor next : Cursor) : Prop where
  position_le : cursor.position ≤ next.position
  total_eq : next.position + next.remaining = cursor.position + cursor.remaining

theorem Ahead.refl (cursor : Cursor) : cursor.Ahead cursor := ⟨le_rfl, rfl⟩

theorem Ahead.trans (h : cursor.Ahead next) (h' : next.Ahead last) : cursor.Ahead last :=
  ⟨h.position_le.trans h'.position_le, h'.total_eq.trans h.total_eq⟩

theorem ahead_take (cursor : Cursor) (width : Nat) : cursor.Ahead (cursor.take width).2 := by
  obtain h | h := Nat.lt_or_ge cursor.remaining width
  · rw [take_of_lt h]
    exact .refl cursor
  · rw [take_of_le h]
    refine ⟨Nat.le_add_right _ _, ?_⟩
    simp only [remaining, List.length_drop] at h ⊢
    omega

theorem ahead_takeValue (cursor : Cursor) (layout : Layout) :
    cursor.Ahead (cursor.takeValue layout).2 := ahead_take cursor layout.width

theorem takeValue_of_lt {layout : Layout} (h : cursor.remaining < layout.width) :
    cursor.takeValue layout = (none, cursor) := by
  rw [takeValue, take_of_lt h]
  rfl

/-- Where nothing is taken, the cursor stays. -/
theorem takeValue_eq_of_none {layout : Layout} (h : (cursor.takeValue layout).1 = none) :
    cursor.takeValue layout = (none, cursor) := by
  obtain hlt | hle := Nat.lt_or_ge cursor.remaining layout.width
  · exact takeValue_of_lt hlt
  · simp [takeValue, take_of_le hle] at h

/-- A text that is taken is as long as its layout says. -/
theorem remaining_of_takeValue {layout : Layout} {text : List Char}
    (h : cursor.takeValue layout = (some text, next)) :
    next.remaining + layout.width = cursor.remaining := by
  obtain hlt | hle := Nat.lt_or_ge cursor.remaining layout.width
  · rw [takeValue_of_lt hlt] at h
    cases h
  · rw [takeValue, take_of_le hle] at h
    cases h
    simp only [remaining, List.length_drop] at hle ⊢
    omega

end FixedWidth.Wire.Cursor

namespace FixedWidth.Codec

open Table
open Wire (Cursor)

/-! ## What a step does -/

/-- What is still to be read. -/
inductive Task where
  /-- The steps of a record of a type that began at position `start`. -/
  | steps (type : RecordType) (start : Nat) (record : Record) (rest : List Step)
  /-- Texts up to the end. -/
  | texts (layout : Layout)
  /-- The records of a list in a record that began at position `start`. -/
  | records (target : Nat) (recursive : Bool) (start : Nat) (repetition : Repetition)

/-- What a step does next. -/
inductive Action where
  /-- It moves on and sets a property, if there is one to be set. -/
  | put (value : Option (String × Value)) (next : Cursor)
  /-- It reads a record of a type. -/
  | nested (name : String) (target : Nat)
  /-- It reads the items of a list. -/
  | items (name : String) (task : Task)
  /-- It uses a property that the type does not have. -/
  | missing

/-- Whether the records of a list go on. -/
def goesOn (recursive : Bool) (start : Nat) (cursor : Cursor) : Repetition → Bool
  | .dynamic => (!recursive || hasProgress start cursor) && !cursor.isAtEnd
  | .fixed 0 => false
  | .fixed (_ + 1) => !recursive || (hasProgress start cursor && !cursor.isAtEnd)

/-- The records that are left behind one of them. -/
def leftOver : Repetition → Repetition
  | .dynamic => .dynamic
  | .fixed count => .fixed (count - 1)

/-- What is done for a nested property. -/
def nestedAction (property : Property) (start : Nat) (cursor : Cursor) : Action :=
  match property.kind with
  | .nested target =>
    if !property.recursive || (hasProgress start cursor && !cursor.isAtEnd) then
      .nested property.name target
    else .put none cursor
  | _ => .put none cursor

/-- What is done for a list property. -/
def listAction (property : Property) (start : Nat) (cursor : Cursor) : Action :=
  match property.kind with
  | .list (.text none) .dynamic => .put (some (property.name, .list [])) cursor
  | .list (.text none) (.fixed count) =>
    .put (some (property.name, .list (List.replicate count (.text "")))) cursor
  | .list (.text (some layout)) .dynamic => .items property.name (.texts layout)
  | .list (.text (some layout)) (.fixed count) =>
    .put (some (property.name, .list (takeExactly layout count cursor).1))
      (takeExactly layout count cursor).2
  | .list (.record target) repetition =>
    .items property.name (.records target property.recursive start repetition)
  | _ => .put (some (property.name, .list [])) cursor

/-- What a step does in a record that began at position `start`. -/
def stepAction (type : RecordType) (start : Nat) (cursor : Cursor) : Step → Action
  | .field index layout =>
    match type.properties[index]? with
    | some property =>
      .put ((cursor.takeValue layout).1.map fun text =>
        (property.name, .text (String.ofList text))) (cursor.takeValue layout).2
    | none => .missing
  | .nested index =>
    match type.properties[index]? with
    | some property => nestedAction property start cursor
    | none => .missing
  | .list index =>
    match type.properties[index]? with
    | some property => listAction property start cursor
    | none => .missing
  | .constant _ width | .padding width => .put none (cursor.skip width).2
  | .unresolved _ | .cycle _ => .put none cursor

/-- Sets a property, if there is one to be set. -/
def putValue (record : Record) : Option (String × Value) → Record
  | some (name, value) => record.insert name value
  | none => record

/-! ## Reading -/

/-- A task is carried out from one cursor to another, with a record or a list as its result. -/
inductive Reads (table : TypeTable) : Task → Cursor → Value → Cursor → Prop
  | done {type : RecordType} {start : Nat} {record : Record} {cursor : Cursor} :
    Reads table (.steps type start record []) cursor (.record record) cursor
  | put {type : RecordType} {start : Nat} {record : Record} {step : Step} {rest : List Step}
      {cursor next last : Cursor} {value : Option (String × Value)} {result : Value}
      (action : stepAction type start cursor step = .put value next)
      (tail : Reads table (.steps type start (putValue record value) rest) next result last) :
    Reads table (.steps type start record (step :: rest)) cursor result last
  | nested {type inner : RecordType} {start target : Nat} {record fields : Record} {step : Step}
      {rest : List Step} {name : String} {cursor next last : Cursor} {result : Value}
      (action : stepAction type start cursor step = .nested name target)
      (found : table.types[target]? = some inner)
      (read : Reads table (.steps inner cursor.position [] inner.steps) cursor (.record fields)
        next)
      (tail : Reads table (.steps type start (record.insert name (.record fields)) rest) next
        result last) :
    Reads table (.steps type start record (step :: rest)) cursor result last
  | items {type : RecordType} {start : Nat} {record : Record} {step : Step} {rest : List Step}
      {name : String} {task : Task} {cursor next last : Cursor} {value result : Value}
      (action : stepAction type start cursor step = .items name task)
      (read : Reads table task cursor value next)
      (tail : Reads table (.steps type start (record.insert name value) rest) next result last) :
    Reads table (.steps type start record (step :: rest)) cursor result last
  | textsEnd {layout : Layout} {cursor : Cursor} (ended : (cursor.takeValue layout).1 = none) :
    Reads table (.texts layout) cursor (.list []) cursor
  | text {layout : Layout} {cursor next last : Cursor} {content : List Char} {items : List Value}
      (taken : cursor.takeValue layout = (some content, next))
      (tail : Reads table (.texts layout) next (.list items) last) :
    Reads table (.texts layout) cursor (.list (.text (String.ofList content) :: items)) last
  | recordsEnd {target start : Nat} {recursive : Bool} {repetition : Repetition} {cursor : Cursor}
      (ended : goesOn recursive start cursor repetition = false) :
    Reads table (.records target recursive start repetition) cursor (.list []) cursor
  | idle {target start : Nat} {recursive : Bool} {inner : RecordType} {fields : Record}
      {cursor next : Cursor} (goes : goesOn recursive start cursor .dynamic = true)
      (found : table.types[target]? = some inner)
      (read : Reads table (.steps inner cursor.position [] inner.steps) cursor (.record fields)
        next)
      (still : next.position = cursor.position) :
    Reads table (.records target recursive start .dynamic) cursor (.list []) next
  | record {target start : Nat} {recursive : Bool} {repetition : Repetition} {inner : RecordType}
      {fields : Record} {cursor next last : Cursor} {items : List Value}
      (goes : goesOn recursive start cursor repetition = true)
      (found : table.types[target]? = some inner)
      (read : Reads table (.steps inner cursor.position [] inner.steps) cursor (.record fields)
        next)
      (moved : repetition = .dynamic → next.position ≠ cursor.position)
      (tail : Reads table (.records target recursive start (leftOver repetition)) next
        (.list items) last) :
    Reads table (.records target recursive start repetition) cursor
      (.list (.record fields :: items)) last

variable {table : TypeTable} {type : RecordType} {start : Nat} {cursor next last last' : Cursor}
  {step : Step} {task : Task} {result result' : Value}

/-- **A task is carried out in one way.** -/
theorem Reads.unique (h : Reads table task cursor result last)
    (h' : Reads table task cursor result' last') : result = result' ∧ last = last' := by
  induction h generalizing result' last' with
  | done =>
    cases h'
    exact ⟨rfl, rfl⟩
  | put action _ ih =>
    cases h' with
    | put action' tail =>
      cases action.symm.trans action'
      exact ih tail
    | nested action' | items action' => cases action.symm.trans action'
  | nested action found _ _ ihRead ih =>
    cases h' with
    | put action' | items action' => cases action.symm.trans action'
    | nested action' found' read tail =>
      cases action.symm.trans action'
      cases found.symm.trans found'
      obtain ⟨hfields, rfl⟩ := ihRead read
      cases hfields
      exact ih tail
  | items action _ _ ihRead ih =>
    cases h' with
    | put action' | nested action' => cases action.symm.trans action'
    | items action' read tail =>
      cases action.symm.trans action'
      obtain ⟨rfl, rfl⟩ := ihRead read
      exact ih tail
  | textsEnd ended =>
    cases h' with
    | textsEnd => exact ⟨rfl, rfl⟩
    | text taken => simp [taken] at ended
  | text taken _ ih =>
    cases h' with
    | textsEnd ended => simp [taken] at ended
    | text taken' tail =>
      cases taken.symm.trans taken'
      obtain ⟨hitems, rfl⟩ := ih tail
      cases hitems
      exact ⟨rfl, rfl⟩
  | recordsEnd ended =>
    cases h' with
    | recordsEnd => exact ⟨rfl, rfl⟩
    | idle goes | record goes => simp [ended] at goes
  | idle goes found _ still ihRead =>
    cases h' with
    | recordsEnd ended => simp [goes] at ended
    | idle _ found' read =>
      cases found.symm.trans found'
      obtain ⟨-, rfl⟩ := ihRead read
      exact ⟨rfl, rfl⟩
    | record _ found' read moved =>
      cases found.symm.trans found'
      obtain ⟨-, rfl⟩ := ihRead read
      exact absurd still (moved rfl)
  | record goes found _ moved _ ihRead ih =>
    cases h' with
    | recordsEnd ended => simp [goes] at ended
    | idle _ found' read still =>
      cases found.symm.trans found'
      obtain ⟨-, rfl⟩ := ihRead read
      exact absurd still (moved rfl)
    | record _ found' read _ tail =>
      cases found.symm.trans found'
      obtain ⟨hfields, rfl⟩ := ihRead read
      cases hfields
      obtain ⟨hitems, rfl⟩ := ih tail
      cases hitems
      exact ⟨rfl, rfl⟩

/-! ## Reading moves on -/

theorem ahead_takeExactly (layout : Layout) (count : Nat) (cursor : Cursor) :
    cursor.Ahead (takeExactly layout count cursor).2 := by
  induction count generalizing cursor with
  | zero => exact .refl cursor
  | succ count ih => exact (cursor.ahead_takeValue layout).trans (ih _)

theorem ahead_of_nestedAction {property : Property} {value : Option (String × Value)}
    (h : nestedAction property start cursor = .put value next) : cursor.Ahead next := by
  rw [nestedAction] at h
  split at h
  · split at h <;> cases h
    exact .refl cursor
  · cases h
    exact .refl cursor

theorem ahead_of_listAction {property : Property} {value : Option (String × Value)}
    (h : listAction property start cursor = .put value next) : cursor.Ahead next := by
  rw [listAction] at h
  split at h <;> cases h
  · exact .refl cursor
  · exact .refl cursor
  · exact ahead_takeExactly _ _ cursor
  · exact .refl cursor

theorem ahead_of_stepAction {value : Option (String × Value)}
    (h : stepAction type start cursor step = .put value next) : cursor.Ahead next := by
  cases step with
  | field index layout =>
    rw [stepAction] at h
    split at h <;> cases h
    exact cursor.ahead_takeValue layout
  | nested index =>
    rw [stepAction] at h
    split at h
    · exact ahead_of_nestedAction h
    · cases h
  | list index =>
    rw [stepAction] at h
    split at h
    · exact ahead_of_listAction h
    · cases h
  | constant _ width | padding width =>
    cases h
    exact cursor.ahead_take width
  | unresolved | cycle =>
    cases h
    exact .refl cursor

/-- **Reading moves on.** -/
theorem Reads.ahead (h : Reads table task cursor result last) : cursor.Ahead last := by
  induction h with
  | done | textsEnd | recordsEnd => exact .refl _
  | put action _ ih => exact (ahead_of_stepAction action).trans ih
  | nested _ _ _ _ ihRead ih | items _ _ _ ihRead ih | record _ _ _ _ _ ihRead ih =>
    exact ihRead.trans ih
  | @text layout cursor next _ _ _ taken _ ih =>
    have := cursor.ahead_takeValue layout
    rw [taken] at this
    exact this.trans ih
  | idle _ _ _ _ ihRead => exact ihRead

/-! ## Lists are read to their end -/

/-- A record of the type at an index is read at this cursor. -/
def ReadsRecord (table : TypeTable) (decodeRecord : RecordDecoder) (index : Nat)
    (cursor : Cursor) : Prop :=
  ∃ type, table.types[index]? = some type ∧
    Reads table (.steps type cursor.position [] type.steps) cursor
      (.record (decodeRecord index cursor).1) (decodeRecord index cursor).2

variable {decodeRecord : RecordDecoder} {target : Nat} {recursive : Bool}

theorem reads_takeAll {layout : Layout} (hw : 0 < layout.width) (fuel : Nat) (cursor : Cursor)
    (hfuel : cursor.remaining ≤ fuel) :
    Reads table (.texts layout) cursor (.list (takeAll layout fuel cursor).1)
      (takeAll layout fuel cursor).2 := by
  induction fuel generalizing cursor with
  | zero =>
    refine .textsEnd ?_
    rw [Cursor.takeValue_of_lt (by omega)]
  | succ fuel ih =>
    rw [takeAll]
    rcases h : cursor.takeValue layout with ⟨_ | text, next⟩
    · exact .textsEnd (by rw [h])
    · have := Cursor.remaining_of_takeValue h
      exact .text h (ih next (by omega))

theorem goesOn_dynamic_of_remaining_eq_zero (h : cursor.remaining = 0) :
    goesOn recursive start cursor .dynamic = false := by
  have : cursor.isAtEnd = true := by
    rw [Cursor.isAtEnd, List.isEmpty_iff]
    exact List.length_eq_zero_iff.1 h
  rw [goesOn, this, Bool.not_true, Bool.and_false]

/-- Where records are read that lie ahead, those of a dynamic list are: each of them moves on. -/
theorem reads_decodeAll (fuel : Nat) (cursor : Cursor)
    (hitem : ∀ next, cursor.Ahead next → (recursive = true → start < next.position) →
      ReadsRecord table decodeRecord target next) (hfuel : cursor.remaining ≤ fuel) :
    Reads table (.records target recursive start .dynamic) cursor
      (.list (decodeAll (decodeRecord target) (fun c => !recursive || hasProgress start c) fuel
        cursor).1)
      (decodeAll (decodeRecord target) (fun c => !recursive || hasProgress start c) fuel
        cursor).2 := by
  induction fuel generalizing cursor with
  | zero => exact .recordsEnd (goesOn_dynamic_of_remaining_eq_zero (by omega))
  | succ fuel ih =>
    rw [decodeAll]
    cases hgoes : goesOn recursive start cursor .dynamic with
    | false =>
      rw [goesOn] at hgoes
      rw [if_neg (by rw [hgoes]; exact Bool.false_ne_true)]
      exact .recordsEnd hgoes
    | true =>
      obtain ⟨inner, found, read⟩ := hitem cursor (.refl cursor) fun hrec => by
        simp [goesOn, hrec, hasProgress] at hgoes
        exact hgoes.1
      rw [if_pos (by rwa [goesOn] at hgoes)]
      rcases hread : decodeRecord target cursor with ⟨fields, next⟩
      rw [hread] at read
      have hahead : cursor.Ahead next := read.ahead
      simp only
      by_cases hstill : next.position = cursor.position
      · rw [if_pos hstill]
        exact .idle hgoes found read hstill
      · rw [if_neg hstill]
        have h₁ := hahead.position_le
        have h₂ := hahead.total_eq
        exact .record hgoes found read (fun _ => hstill)
          (ih next (fun later hl => hitem later (hahead.trans hl)) (by omega))

/-- Where records are read that lie ahead, those of a fixed list are. -/
theorem reads_decodeUpTo (count : Nat) (cursor : Cursor)
    (hitem : ∀ next, cursor.Ahead next → start < next.position →
      ReadsRecord table decodeRecord target next) :
    Reads table (.records target true start (.fixed count)) cursor
      (.list (decodeUpTo (decodeRecord target) (hasProgress start) count cursor).1)
      (decodeUpTo (decodeRecord target) (hasProgress start) count cursor).2 := by
  induction count generalizing cursor with
  | zero => exact .recordsEnd rfl
  | succ count ih =>
    rw [decodeUpTo]
    cases hgoes : goesOn true start cursor (.fixed (count + 1)) with
    | false =>
      have : (hasProgress start cursor && !cursor.isAtEnd) = false := hgoes
      rw [if_neg (by rw [this]; exact Bool.false_ne_true)]
      exact .recordsEnd hgoes
    | true =>
      have hprogress : (hasProgress start cursor && !cursor.isAtEnd) = true := hgoes
      obtain ⟨inner, found, read⟩ := hitem cursor (.refl cursor) <| by
        rw [Bool.and_eq_true, hasProgress, decide_eq_true_iff] at hprogress
        exact hprogress.1
      rw [if_pos hprogress]
      exact .record hgoes found read nofun (ih _ fun later hl => hitem later (read.ahead.trans hl))

theorem reads_decodeExactly (count : Nat) (cursor : Cursor)
    (hitem : ∀ next, cursor.Ahead next → ReadsRecord table decodeRecord target next) :
    Reads table (.records target false start (.fixed count)) cursor
      (.list (decodeExactly (decodeRecord target) count cursor).1)
      (decodeExactly (decodeRecord target) count cursor).2 := by
  induction count generalizing cursor with
  | zero => exact .recordsEnd rfl
  | succ count ih =>
    obtain ⟨inner, found, read⟩ := hitem cursor (.refl cursor)
    exact .record rfl found read nofun (ih _ fun later hl => hitem later (read.ahead.trans hl))

/-- **Where records are read that lie ahead, those of a list are.** -/
theorem reads_decodeItems (repetition : Repetition) (cursor : Cursor)
    (hitem : ∀ next, cursor.Ahead next → (recursive = true → start < next.position) →
      ReadsRecord table decodeRecord target next) :
    Reads table (.records target recursive start repetition) cursor
      (.list (decodeItems decodeRecord recursive start (.record target) repetition cursor).1)
      (decodeItems decodeRecord recursive start (.record target) repetition cursor).2 := by
  cases repetition with
  | dynamic => exact reads_decodeAll cursor.remaining cursor hitem le_rfl
  | fixed count =>
    cases recursive with
    | true => exact reads_decodeUpTo count cursor fun next h hlt => hitem next h fun _ => hlt
    | false => exact reads_decodeExactly count cursor fun next h => hitem next h nofun

/-! ## Records are read to their end -/

/-- The records that properties hold are read at the cursors where they may be entered: ahead of
the beginning of the record around them, and for recursive properties behind it. -/
def ReadsProperties (table : TypeTable) (decodeRecord : RecordDecoder) (type : RecordType)
    (begin : Cursor) : Prop :=
  ∀ property ∈ type.properties, ∀ target, property.kind.target? = some target →
    ∀ next, begin.Ahead next → (property.recursive = true → begin.position < next.position) →
      ReadsRecord table decodeRecord target next

variable {begin : Cursor}

theorem reads_cons_of_nested {property : Property} {index : Nat} {record : Record}
    {rest : List Step} (hf : ReadsProperties table decodeRecord type begin)
    (hp : type.properties[index]? = some property) (hc : begin.Ahead cursor)
    (htail : Reads table (.steps type begin.position
      (decodeNested decodeRecord property begin.position record cursor).1 rest)
      (decodeNested decodeRecord property begin.position record cursor).2 result last) :
    Reads table (.steps type begin.position record (.nested index :: rest)) cursor result last := by
  have haction : stepAction type begin.position cursor (.nested index)
      = nestedAction property begin.position cursor := by rw [stepAction, hp]
  rw [decodeNested] at htail
  rw [nestedAction] at haction
  cases hk : property.kind with
  | nested target =>
    simp only [hk] at haction htail
    split at htail
    · rename_i henter
      rw [if_pos henter] at haction
      obtain ⟨inner, found, read⟩ := hf property (List.mem_of_getElem? hp) target
        (by rw [hk]; rfl) cursor hc fun hrec => by
          simp [hrec, hasProgress] at henter
          exact henter.1
      exact .nested haction found read htail
    · rename_i hskip
      rw [if_neg hskip] at haction
      exact .put haction htail
  | text | list =>
    simp only [hk] at haction htail
    exact .put haction htail

theorem reads_cons_of_list {property : Property} {index : Nat} {record : Record}
    {rest : List Step} (hf : ReadsProperties table decodeRecord type begin)
    (hm : WellMade type.properties type.steps)
    (hp : type.properties[index]? = some property) (hc : begin.Ahead cursor)
    (htail : Reads table (.steps type begin.position
      (decodeList decodeRecord property begin.position record cursor).1 rest)
      (decodeList decodeRecord property begin.position record cursor).2 result last) :
    Reads table (.steps type begin.position record (.list index :: rest)) cursor result last := by
  have hmem := List.mem_of_getElem? hp
  have haction : stepAction type begin.position cursor (.list index)
      = listAction property begin.position cursor := by rw [stepAction, hp]
  rw [decodeList] at htail
  rw [listAction] at haction
  cases hk : property.kind with
  | list item repetition =>
    simp only [hk] at haction htail
    rcases item with target | _ | layout
    · have hitem : ∀ next, cursor.Ahead next →
          (property.recursive = true → begin.position < next.position) →
          ReadsRecord table decodeRecord target next := fun next hnext =>
        hf property hmem target (by rw [hk]; rfl) next (hc.trans hnext)
      exact .items haction (reads_decodeItems repetition cursor hitem) htail
    · cases repetition <;> exact .put haction htail
    · cases repetition with
      | dynamic =>
        have hw := hm.layout_pos property hmem layout (by rw [hk]; rfl)
        exact .items haction (reads_takeAll hw _ _ le_rfl) htail
      | fixed count => exact .put haction htail
  | text | nested =>
    simp only [hk] at haction htail
    exact .put haction htail

/-- A step reads what its action says. -/
theorem reads_cons {record : Record} {rest : List Step}
    (hf : ReadsProperties table decodeRecord type begin)
    (hm : WellMade type.properties type.steps) (hs : step ∈ type.steps) (hc : begin.Ahead cursor)
    (htail : Reads table (.steps type begin.position
      (decodeStep decodeRecord type begin.position (record, cursor) step).1 rest)
      (decodeStep decodeRecord type begin.position (record, cursor) step).2 result last) :
    Reads table (.steps type begin.position record (step :: rest)) cursor result last := by
  cases step with
  | field index layout =>
    obtain ⟨property, hp, -⟩ := hm.exists_property hs rfl
    have haction : stepAction type begin.position cursor (.field index layout) = .put
        ((cursor.takeValue layout).1.map fun text => (property.name, .text (String.ofList text)))
        (cursor.takeValue layout).2 := by rw [stepAction, hp]
    rw [decodeStep] at htail
    rcases h : cursor.takeValue layout with ⟨_ | text, next⟩
    · rw [h] at haction htail
      exact .put haction htail
    · rw [h] at haction htail
      simp only [hp] at htail
      exact .put haction htail
  | nested index =>
    obtain ⟨property, hp, -⟩ := hm.exists_property hs rfl
    simp only [decodeStep, hp] at htail
    exact reads_cons_of_nested hf hp hc htail
  | list index =>
    obtain ⟨property, hp, -⟩ := hm.exists_property hs rfl
    simp only [decodeStep, hp] at htail
    exact reads_cons_of_list hf hm hp hc htail
  | constant | padding | unresolved | cycle => exact .put rfl htail

/-- **The steps of a record are read** where the records inside it are. -/
theorem reads_foldl (hf : ReadsProperties table decodeRecord type begin)
    (hm : WellMade type.properties type.steps) (rest : List Step) (hrest : rest ⊆ type.steps)
    (record : Record) (cursor : Cursor) (hc : begin.Ahead cursor) :
    Reads table (.steps type begin.position record rest) cursor
      (.record (rest.foldl (decodeStep decodeRecord type begin.position) (record, cursor)).1)
      (rest.foldl (decodeStep decodeRecord type begin.position) (record, cursor)).2 := by
  induction rest generalizing record cursor with
  | nil => exact .done
  | cons step rest ih =>
    rw [List.cons_subset] at hrest
    rw [List.foldl_cons]
    have hone : begin.Ahead (decodeStep decodeRecord type begin.position (record, cursor) step).2 :=
      hc.trans (reads_cons hf hm hrest.1 hc .done).ahead
    exact reads_cons hf hm hrest.1 hc (ih hrest.2 _ _ hone)

/-- **Fuel above the characters that remain, for each type, is enough.** -/
theorem reads_decodeWith {rank : Nat → Nat} (hr : Ranked table.types rank)
    (hm : ∀ type ∈ table.types, WellMade type.properties type.steps) (fuel : Nat) {index : Nat}
    (hindex : index < table.types.length) (cursor : Cursor)
    (hfuel : table.types.length * cursor.remaining + rank index < fuel) :
    ReadsRecord table (decodeWith table fuel) index cursor := by
  induction fuel generalizing index cursor with
  | zero => omega
  | succ fuel ih =>
    have found := List.getElem?_eq_getElem hindex
    refine ⟨_, found, ?_⟩
    rw [decodeWith, found]
    refine reads_foldl ?_ (hm _ (List.getElem_mem hindex)) _ (List.Subset.refl _) [] cursor
      (.refl cursor)
    intro property hp target htarget next hnext hmoved
    have hlt := hr.target_lt index target ⟨_, property, found, hp, htarget⟩
    refine ih hlt next ?_
    have hpos := hnext.position_le
    have htotal := hnext.total_eq
    cases hrec : property.recursive with
    | false =>
      have hrank := hr.rank_lt index target ⟨_, property, found, hp, hrec, htarget⟩
      have := Nat.mul_le_mul_left table.types.length
        (show next.remaining ≤ cursor.remaining by omega)
      omega
    | true =>
      have hrank := hr.rank_lt_length target hlt
      have hback := hmoved hrec
      have := Nat.mul_le_mul_left table.types.length
        (show next.remaining + 1 ≤ cursor.remaining by omega)
      rw [Nat.mul_succ] at this
      omega

/-- The record of the type at an index that a text holds. -/
def Decodes (table : TypeTable) (index : Nat) (text : List Char) (fields : Record) : Prop :=
  ∃ type last, table.types[index]? = some type ∧
    Reads table (.steps type 0 [] type.steps) (.ofText text) (.record fields) last

theorem Decodes.unique {index : Nat} {text : List Char} {fields fields' : Record}
    (h : Decodes table index text fields) (h' : Decodes table index text fields') :
    fields = fields' := by
  obtain ⟨type, last, found, read⟩ := h
  obtain ⟨type', last', found', read'⟩ := h'
  cases found.symm.trans found'
  obtain ⟨hfields, -⟩ := read.unique read'
  exact Value.record.inj hfields

/-- **Every text is decoded.** -/
theorem decodes_decode {rank : Nat → Nat} (hr : Ranked table.types rank)
    (hm : ∀ type ∈ table.types, WellMade type.properties type.steps) {index : Nat}
    (h : index < table.types.length) (text : List Char) :
    Decodes table index text (decode table index text) := by
  obtain ⟨type, found, read⟩ := reads_decodeWith hr hm
    (table.types.length * (text.length + 1) + 1) h (.ofText text) <| by
      have := hr.rank_lt_length index h
      have hall : (Cursor.ofText text).remaining = text.length := rfl
      rw [hall, Nat.mul_succ]
      omega
  exact ⟨type, _, found, read⟩

end FixedWidth.Codec
