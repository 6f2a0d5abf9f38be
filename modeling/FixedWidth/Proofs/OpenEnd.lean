import FixedWidth.Proofs.RoundTrip
import FixedWidth.Proofs.Cycles

/-!
# Proofs/OpenEnd — what goes on to the end of the text

    ┌─────────────┬──────────────────┐
    │ fixed steps │ open step ─────▸ │ end
    └─────────────┴──────────────────┘

Neither the number of items of a dynamic list nor the depth of a recursive record is on the wire.
Where fixed steps come first and one such property takes the rest of the text, both are found again
by reading to the end: `OpenEnded.roundTrip` is the round trip of these types. The induction is on
the depth of the record, since a record inside is of the same type.
-/

namespace FixedWidth.Codec

open Schema (Node Registry)
open Table
open Wire (Cursor)

/-! ## Reading to the end -/

/-- **The reader takes all of `out`**, with this result, at positions from `least` on. -/
def ReadsLast {α : Type} (least : Nat) (read : Cursor → α × Cursor) (out : List Char)
    (result : α) : Prop :=
  ∀ cursor, least ≤ cursor.position → cursor.rest = out →
    read cursor = (result, cursor.advance out.length)

theorem ReadsBack.readsLast {α : Type} {read : Cursor → α × Cursor} {out : List Char} {result : α}
    (h : ReadsBack read out result) (least : Nat) : ReadsLast least read out result :=
  fun cursor _ hrest => h cursor [] (by rw [hrest, List.append_nil])

/-- What is read back may stand before what goes on to the end. -/
theorem ReadsBack.bindLast {α β : Type} {read : Cursor → α × Cursor} {out out' : List Char}
    {result : α} {result' : β} {least : Nat} (h : ReadsBack read out result)
    (next : α → Cursor → β × Cursor)
    (h' : ReadsLast (least + out.length) (next result) out' result') :
    ReadsLast least (fun cursor => next (read cursor).1 (read cursor).2) (out ++ out') result' := by
  intro cursor hleast hrest
  have hnext := h' (cursor.advance out.length) (Nat.add_le_add_right hleast _)
    (Cursor.rest_advance hrest)
  simp only [h cursor _ hrest]
  rw [hnext, Cursor.advance_advance, List.length_append]

/-- Behind the end nothing is left to be read. -/
theorem ReadsLast.bind {α β : Type} {read : Cursor → α × Cursor} {out : List Char} {result : α}
    {result' : β} {least : Nat} (h : ReadsLast least read out result)
    (next : α → Cursor → β × Cursor) (h' : ReadsBack (next result) [] result') :
    ReadsLast least (fun cursor => next (read cursor).1 (read cursor).2) out result' := by
  intro cursor hleast hrest
  have hnext := h' (cursor.advance out.length) [] (Cursor.rest_advance (by simpa using hrest))
  simp only [h cursor hleast hrest]
  rw [hnext, List.length_nil, Cursor.advance_zero]

theorem ReadsLast.mono {α : Type} {read : Cursor → α × Cursor} {out : List Char} {result : α}
    {least least' : Nat} (h : ReadsLast least read out result) (hle : least ≤ least') :
    ReadsLast least' read out result :=
  fun cursor hleast hrest => h cursor (hle.trans hleast) hrest

/-- The result of a reader may be changed. -/
theorem ReadsLast.map {α β : Type} {read : Cursor → α × Cursor} {out : List Char} {result : α}
    {least : Nat} (h : ReadsLast least read out result) (f : α → β) :
    ReadsLast least (fun cursor => (f (read cursor).1, (read cursor).2)) out (f result) := by
  intro cursor hleast hrest
  simp only [h cursor hleast hrest]

/-! ## Lists to the end -/

variable {α : Type} {write : α → Encoded} {out : List Char}

theorem exists_of_concatM_append {list more : List α} (h : concatM write (list ++ more) = .ok out) :
    ∃ first second, concatM write list = .ok first ∧ concatM write more = .ok second ∧
      out = first ++ second := by
  rw [concatM_append] at h
  cases hfirst : concatM write list with
  | error mismatch => simp [hfirst, Except.bind] at h
  | ok first =>
    cases hsecond : concatM write more with
    | error mismatch => simp [hfirst, hsecond, Except.bind, Except.map] at h
    | ok second =>
      rw [hfirst, hsecond] at h
      exact ⟨first, second, rfl, rfl, (Except.ok.inj h).symm⟩

/-- **A loop that goes on to the end reads all items.** Each of them takes a character at least, so
the loop neither stops between two of them nor runs out of fuel. -/
theorem readsLast_loop (loop : Nat → Cursor → List Value × Cursor) (result : α → Value)
    (hend : ∀ fuel cursor, cursor.rest = [] → loop fuel cursor = ([], cursor))
    (hpos : ∀ a out, write a = .ok out → 1 ≤ out.length)
    (hsucc : ∀ a out, write a = .ok out → ∀ fuel cursor suffix, cursor.rest = out ++ suffix →
      loop (fuel + 1) cursor = (result a :: (loop fuel (cursor.advance out.length)).1,
        (loop fuel (cursor.advance out.length)).2))
    (items : List α) {out : List Char} (h : concatM write items = .ok out) (fuel : Nat)
    (hfuel : out.length ≤ fuel) (cursor : Cursor) (hrest : cursor.rest = out) :
    loop fuel cursor = (items.map result, cursor.advance out.length) := by
  induction items generalizing out fuel cursor with
  | nil =>
    cases h
    rw [hend fuel cursor hrest, List.length_nil, Cursor.advance_zero, List.map_nil]
  | cons a rest ih =>
    obtain ⟨first, second, hfirst, hsecond, rfl⟩ := exists_of_concatM_cons h
    have hlen := hpos a first hfirst
    rw [List.length_append] at hfuel
    obtain ⟨fuel, rfl⟩ : ∃ k, fuel = k + 1 := ⟨fuel - 1, by omega⟩
    have htail := ih hsecond fuel (by omega) (cursor.advance first.length)
      (Cursor.rest_advance hrest)
    rw [hsucc a first hfirst fuel cursor second hrest, htail, Cursor.advance_advance,
      List.length_append, List.map_cons]

/-- Reading texts stops at the end. -/
theorem takeAll_of_rest_eq_nil {layout : Layout} (hw : 0 < layout.width) (fuel : Nat)
    {cursor : Cursor} (h : cursor.rest = []) : takeAll layout fuel cursor = ([], cursor) := by
  cases fuel with
  | zero => rfl
  | succ fuel =>
    have hlt : cursor.remaining < layout.width := by rwa [Cursor.remaining, h]
    rw [takeAll, Cursor.takeValue_of_lt hlt]

/-- **The texts of a dynamic list are read to the end.** -/
theorem readsLast_takeAll {name : String} {layout : Layout} (hw : 0 < layout.width)
    (places : List (Option Value)) (h : concatM (encodeTextItem name layout) places = .ok out) :
    ReadsLast 0 (fun cursor => takeAll layout cursor.remaining cursor) out
      (places.map (normalText layout)) := by
  rintro cursor - hrest
  refine readsLast_loop (takeAll layout) (normalText layout)
    (fun fuel cursor => takeAll_of_rest_eq_nil hw fuel) (fun place first hfirst => ?_)
    (fun place first hfirst fuel cursor suffix hrest => ?_) places h cursor.remaining
    (by rw [Cursor.remaining, hrest]) cursor hrest
  · rw [encodeTextItem_eq hfirst, layout.length_encode]
    exact hw
  · obtain rfl := encodeTextItem_eq hfirst
    have htake := readsBack_takeValue layout (textOf place) cursor suffix hrest
    simp only at htake
    rw [takeAll, htake, normalText]

/-- Reading records stops at the end. -/
theorem decodeAll_of_rest_eq_nil (decodeItem : Cursor → Record × Cursor)
    (continues : Cursor → Bool) (fuel : Nat) {cursor : Cursor} (h : cursor.rest = []) :
    decodeAll decodeItem continues fuel cursor = ([], cursor) := by
  cases fuel with
  | zero => rfl
  | succ fuel => simp [decodeAll, Cursor.isAtEnd, h]

variable {encodeRecord : RecordEncoder} {decodeRecord : RecordDecoder}
  {normal : Nat → Record → Record} {widths : Nat → Nat} {type : RecordType} {record : Record}
  {property : Property}

/-- **The records of a dynamic list are read to the end**, if each of them takes a character. -/
theorem readsLast_decodeAll {name : String} {target width : Nat}
    (hf : Faithful encodeRecord decodeRecord normal width target) (hw : 1 ≤ width)
    (places : List (Option Value))
    (h : concatM (encodeRecordItem encodeRecord name target) places = .ok out) :
    ReadsLast 0 (fun cursor => decodeAll (decodeRecord target) (fun _ => true) cursor.remaining
      cursor) out (places.map fun place => .record (normal target (recordOf place))) := by
  have hwidth : ∀ place first, encodeRecordItem encodeRecord name target place = .ok first →
      1 ≤ first.length := fun place first hfirst => by
    rw [(hf _ _ (encodeRecordItem_eq hfirst)).1]
    exact hw
  rintro cursor - hrest
  refine readsLast_loop (decodeAll (decodeRecord target) fun _ => true)
    (fun place => .record (normal target (recordOf place)))
    (fun fuel cursor => decodeAll_of_rest_eq_nil _ _ fuel) hwidth
    (fun place first hfirst fuel cursor suffix hrest => ?_) places h cursor.remaining
    (by rw [Cursor.remaining, hrest]) cursor hrest
  have hlen := hwidth place first hfirst
  have hgoes : cursor.isAtEnd = false := by
    rw [Cursor.isAtEnd, hrest]
    cases first with
    | nil => simp at hlen
    | cons => rfl
  have hmoved : (cursor.advance first.length).position ≠ cursor.position := by
    simp only [Cursor.advance]
    omega
  rw [decodeAll, hgoes, (hf _ _ (encodeRecordItem_eq hfirst)).2 cursor suffix hrest]
  simp [hmoved]

/-! ## The open step -/

/-- **How a property goes on to the end of the text**: as a list of texts, as a list of rigid
records that have a width, or as another record of its own type, the fixed part of which has a
width. -/
inductive GoesToEnd (table : TypeTable) (index fixed : Nat) (property : Property) : Prop
  | texts {layout : Layout} (kind : property.kind = .list (.text (some layout)) .dynamic)
  | records {target : Nat} (kind : property.kind = .list (.record target) .dynamic)
      (direct : property.recursive = false) (rigid : Rigid table.types target)
      (pos : 1 ≤ width table target)
  | nested (kind : property.kind = .nested index) (recursive : property.recursive = true)
      (pos : 1 ≤ fixed)

/-- **A list that goes on to the end is read to the end.** -/
theorem readsLast_decodeList {item : ItemType} (hk : property.kind = .list item .dynamic)
    (h : encodeList encodeRecord property record = .ok out) (start : Nat)
    (hitems : ∀ items, encodeItems encodeRecord property item .dynamic items = .ok out →
      ReadsLast 0 (decodeItems decodeRecord property.recursive start item .dynamic) out
        (normalItems normal property item .dynamic items)) (fields : Record) :
    ReadsLast 0 (decodeList decodeRecord property start fields) out
      (putValue fields ((normalValue normal property (record.get? property.name)).map
        (property.name, ·))) := by
  have hread := hitems _ (encodeItems_of_encodeList hk h)
  have hdecode : decodeList decodeRecord property start fields = fun cursor =>
      (fields.insert property.name (.list
        (decodeItems decodeRecord property.recursive start item .dynamic cursor).1),
        (decodeItems decodeRecord property.recursive start item .dynamic cursor).2) := by
    funext cursor
    simp only [decodeList, hk]
  rw [hdecode, normalValue, hk]
  exact hread.map fun items => fields.insert property.name (.list items)

/-- A recursive record is written where it is set, and nothing is written where it is not. -/
theorem encode_of_encodeNested_recursive {target : Nat} (hk : property.kind = .nested target)
    (hrec : property.recursive = true)
    (h : encodeNested encodeRecord property record = .ok out) :
    record.get? property.name = none ∧ out = [] ∨
      ∃ fields, record.get? property.name = some (.record fields) ∧
        encodeRecord target fields = .ok out := by
  rw [encodeNested, hk] at h
  simp only [Record.record] at h
  rcases hvalue : record.get? property.name with _ | ⟨_ | fields | _⟩
  · simp only [hvalue, hrec] at h
    cases h
    exact Or.inl ⟨rfl, rfl⟩
  · simp only [hvalue] at h
    cases h
  · simp only [hvalue] at h
    exact Or.inr ⟨fields, rfl, h⟩
  · simp only [hvalue] at h
    cases h

/-- **A recursive record is read where text remains**, behind the start of the record around it. -/
theorem readsLast_decodeNested {target : Nat} (hk : property.kind = .nested target)
    (hrec : property.recursive = true)
    (h : encodeNested encodeRecord property record = .ok out)
    (hinner : ∀ nested, record.get? property.name = some (.record nested) →
      encodeRecord target nested = .ok out →
        1 ≤ out.length ∧ ReadsLast 0 (decodeRecord target) out (normal target nested))
    (start : Nat) (fields : Record) :
    ReadsLast (start + 1) (decodeNested decodeRecord property start fields) out
      (putValue fields ((normalValue normal property (record.get? property.name)).map
        (property.name, ·))) := by
  intro cursor hleast hrest
  have hprogress : hasProgress start cursor = true := by
    rw [hasProgress, decide_eq_true_iff]
    omega
  obtain ⟨hunset, rfl⟩ | ⟨nested, hset, hencode⟩ := encode_of_encodeNested_recursive hk hrec h
  · have hend : cursor.isAtEnd = true := by rw [Cursor.isAtEnd, hrest]; rfl
    simp [decodeNested, normalValue, putValue, hk, hrec, hunset, hend]
  · obtain ⟨hlen, hread⟩ := hinner nested hset hencode
    have hgoes : cursor.isAtEnd = false := by
      rw [Cursor.isAtEnd, hrest]
      cases out with
      | nil => simp at hlen
      | cons => rfl
    simp [decodeNested, normalValue, putValue, hk, hset, hprogress, hgoes,
      hread cursor (Nat.zero_le _) hrest]

/-! ## Types with an open end -/

/-- The property of the step is rigid, and so is every type it leads to. -/
def FixedStep (types : List RecordType) (type : RecordType) (step : Step) : Prop :=
  ∀ property, step.property?.bind (type.properties[·]?) = some property →
    property.Rigid ∧ ∀ target, property.kind.target? = some target → Rigid types target

/-- **The type at an index has an open end**: behind fixed steps one property goes on to the end,
and what stands behind it has no place on the wire. -/
structure OpenEnded (table : TypeTable) (index : Nat) (type : RecordType)
    (before : List Step) (step : Step) (after : List Step) (property : Property) : Prop where
  found : table.types[index]? = some type
  steps_eq : type.steps = before ++ step :: after
  before_fixed : ∀ other ∈ before, FixedStep table.types type other
  after_fixed : ∀ other ∈ after, FixedStep table.types type other
  after_width : ∀ other ∈ after, stepWidth (width table) type other = 0
  uses : step.property?.bind (type.properties[·]?) = some property
  goes : GoesToEnd table index (before.map (stepWidth (width table) type)).sum property

variable {table : TypeTable} {rank : Nat → Nat} {index : Nat} {before after : List Step}
  {step : Step}

/-- Fixed steps are faithful, with fuel for every type. -/
theorem FixedStep.faithful (h : FixedStep table.types type step) (hr : Ranked table.types rank)
    (hm : ∀ type ∈ table.types, WellMade type.properties type.steps)
    (found : table.types[index]? = some type) (fuel fuel' : Nat)
    (hfuel : table.types.length ≤ fuel) (hfuel' : table.types.length ≤ fuel') :
    FaithfulStep (encodeWith table fuel) (decodeWith table fuel') (normalForm table) (width table)
      type step := by
  intro property hproperty
  obtain ⟨hrigid, htargets⟩ := h property hproperty
  obtain ⟨i, -, hi⟩ := Option.bind_eq_some_iff.1 hproperty
  refine ⟨hrigid, fun target htarget => ?_⟩
  have hlt := hr.target_lt index target ⟨type, property, found, List.mem_of_getElem? hi, htarget⟩
  exact faithful_of_rigid hr hm _ fuel fuel' (List.getElem?_eq_getElem hlt)
    (htargets target htarget) (hr.rank_lt_length target hlt) hfuel hfuel'

/-- **Steps before and behind an open one**: the type is read to the end where the open step is. -/
theorem readsLast_foldl (hm : WellMade type.properties type.steps)
    (hsteps : type.steps = before ++ step :: after)
    (hbefore : ∀ other ∈ before, FaithfulStep encodeRecord decodeRecord normal widths type other)
    (hafter : ∀ other ∈ after, FaithfulStep encodeRecord decodeRecord normal widths type other)
    (hwidth : ∀ other ∈ after, stepWidth widths type other = 0) (start : Nat)
    (hopen : ∀ middle, encodeStep encodeRecord type record step = .ok middle →
      (before.map (stepWidth widths type)).sum + middle.length ≤ out.length → ∀ fields,
        ReadsLast (start + (before.map (stepWidth widths type)).sum)
          (fun cursor => decodeStep decodeRecord type start (fields, cursor) step) middle
          (putValue fields (stepValue normal type record step)))
    (h : concatM (encodeStep encodeRecord type record) type.steps = .ok out) :
    (before.map (stepWidth widths type)).sum ≤ out.length ∧
      ReadsLast start (fun cursor =>
        type.steps.foldl (decodeStep decodeRecord type start) ([], cursor)) out
        (normalFields normal type record) := by
  have hsub : before ⊆ type.steps ∧ after ⊆ type.steps := by
    rw [hsteps]
    exact ⟨List.subset_append_left _ _, List.subset_append_of_subset_right _
      (List.subset_cons_self _ _)⟩
  rw [hsteps] at h
  obtain ⟨first, rest, hfirst, hrest, rfl⟩ := exists_of_concatM_append h
  obtain ⟨middle, last, hmiddle, hlast, rfl⟩ := exists_of_concatM_cons hrest
  obtain ⟨hlen, hread⟩ := readsBack_foldl hm start before hsub.1 hbefore [] hfirst
  have hempty : last = [] := by
    obtain ⟨hlen, -⟩ := readsBack_foldl hm start after hsub.2 hafter [] hlast
    rwa [List.sum_eq_zero_iff_forall_eq_nat.2 (by simpa using hwidth),
      List.length_eq_zero_iff] at hlen
  subst hempty
  rw [List.append_nil] at hopen ⊢
  rw [List.length_append, hlen] at hopen
  refine ⟨by rw [List.length_append, hlen]; omega, ?_⟩
  rw [← foldl_stepValue hm, hsteps, List.foldl_append, List.foldl_cons]
  have hend := fun fields => (hopen middle hmiddle le_rfl fields).bind
    (fun fields cursor => after.foldl (decodeStep decodeRecord type start) (fields, cursor))
    (readsBack_foldl hm start after hsub.2 hafter _ hlast).2
  simp only [List.foldl_append, List.foldl_cons]
  exact hread.bindLast (fun fields cursor => after.foldl (decodeStep decodeRecord type start)
    (decodeStep decodeRecord type start (fields, cursor) step)) (hlen ▸ hend _)

/-- **The open step is read to the end**: a list by its loop, and a record of the same type as the
one around it. -/
theorem readsLast_decodeStep {fixed : Nat} (hm : WellMade type.properties type.steps)
    (hs : step ∈ type.steps) (huse : step.property?.bind (type.properties[·]?) = some property)
    (hgoes : GoesToEnd table index fixed property)
    (hf : ∀ target, property.kind.target? = some target → Rigid table.types target →
      Faithful encodeRecord decodeRecord normal (width table target) target)
    (hinner : ∀ nested, property.kind = .nested index → 1 ≤ fixed →
      record.get? property.name = some (.record nested) → encodeRecord index nested = .ok out →
      1 ≤ out.length ∧ ReadsLast 0 (decodeRecord index) out (normal index nested))
    (h : encodeStep encodeRecord type record step = .ok out) (start : Nat) (fields : Record) :
    ReadsLast (start + fixed)
      (fun cursor => decodeStep decodeRecord type start (fields, cursor) step) out
      (putValue fields (stepValue normal type record step)) := by
  obtain ⟨i, hi, hp⟩ := Option.bind_eq_some_iff.1 huse
  have huses : step ∈ property.kind.stepsAt i := by
    obtain ⟨property', hp', huses⟩ := hm.exists_property hs hi
    cases hp.symm.trans hp'
    exact huses
  have hvalue : stepValue normal type record step =
      (normalValue normal property (record.get? property.name)).map (property.name, ·) := by
    rw [stepValue, huse, Option.bind_some]
  rw [hvalue]
  cases hgoes with
  | @texts layout kind =>
    rw [kind] at huses
    obtain rfl := List.mem_singleton.1 huses
    have hw := hm.layout_pos property (List.mem_of_getElem? hp) layout (by rw [kind]; rfl)
    simp only [encodeStep, decodeStep, hp] at h ⊢
    exact (readsLast_decodeList kind h start (fun items hitems => readsLast_takeAll hw _ hitems)
      fields).mono (Nat.zero_le _)
  | @records target kind direct rigid pos =>
    rw [kind] at huses
    obtain rfl := List.mem_singleton.1 huses
    simp only [encodeStep, decodeStep, hp] at h ⊢
    refine (readsLast_decodeList kind h start (fun items hitems => ?_) fields).mono (Nat.zero_le _)
    have hread := readsLast_decodeAll (hf target (by rw [kind]; rfl) rigid) pos _ hitems
    have hdecode : decodeItems decodeRecord property.recursive start (.record target) .dynamic =
        fun cursor => decodeAll (decodeRecord target) (fun _ => true) cursor.remaining cursor := by
      funext cursor
      simp [decodeItems, direct]
    rw [hdecode]
    exact hread
  | nested kind recursive pos =>
    rw [kind] at huses
    obtain rfl := List.mem_singleton.1 huses
    simp only [encodeStep, decodeStep, hp] at h ⊢
    exact (readsLast_decodeNested kind recursive h (fun nested hset => hinner nested kind pos hset)
      start fields).mono (Nat.add_le_add_left pos start)

/-- **A type with an open end is read to the end**, with fuel for every type, for the depth of the
record and for the length of the text. The induction is on the fuel of the encoder: a record inside
is less deep, and its text is shorter by the fixed part. -/
theorem OpenEnded.readsLast (h : OpenEnded table index type before step after property)
    (hr : Ranked table.types rank)
    (hm : ∀ type ∈ table.types, WellMade type.properties type.steps) (fuel fuel' : Nat)
    (hout : encodeWith table fuel index record = .ok out)
    (hfuel : record.depth + table.types.length < fuel)
    (hfuel' : out.length + table.types.length < fuel') :
    (before.map (stepWidth (width table) type)).sum ≤ out.length ∧
      ReadsLast 0 (decodeWith table fuel' index) out (normalForm table index record) := by
  induction fuel generalizing fuel' record out with
  | zero => omega
  | succ fuel ih =>
    obtain ⟨fuel', rfl⟩ : ∃ k, fuel' = k + 1 := ⟨fuel' - 1, by omega⟩
    have found := h.found
    have htype := hm type (List.mem_of_getElem? found)
    have hfaithful : ∀ other, FixedStep table.types type other → FaithfulStep
        (encodeWith table fuel) (decodeWith table fuel') (normalForm table) (width table) type
        other := fun other hfixed =>
      hfixed.faithful hr hm found fuel fuel' (by omega) (by omega)
    rw [encodeWith, found] at hout
    have hopen : ∀ start middle,
        encodeStep (encodeWith table fuel) type record step = .ok middle →
        (before.map (stepWidth (width table) type)).sum + middle.length ≤ out.length → ∀ fields,
          ReadsLast (start + (before.map (stepWidth (width table) type)).sum)
            (fun cursor => decodeStep (decodeWith table fuel') type start (fields, cursor) step)
            middle (putValue fields (stepValue (normalForm table) type record step)) := by
      intro start middle hmiddle hle fields
      have hs : step ∈ type.steps := by
        rw [h.steps_eq]
        simp
      refine readsLast_decodeStep htype hs h.uses h.goes (fun target htarget hrigid => ?_)
        (fun nested hk hpos hset hencode => ?_) hmiddle start fields
      · obtain ⟨i, -, hi⟩ := Option.bind_eq_some_iff.1 h.uses
        have hlt := hr.target_lt index target
          ⟨type, property, found, List.mem_of_getElem? hi, htarget⟩
        exact faithful_of_rigid hr hm _ fuel fuel' (List.getElem?_eq_getElem hlt) hrigid
          (hr.rank_lt_length target hlt) (by omega) (by omega)
      · have hdepth : Record.depth nested < record.depth :=
          Record.depth_lt_of_record (by rw [Record.record, hset])
        obtain ⟨hle', hread⟩ := ih fuel' hencode (by omega) (by omega)
        exact ⟨hpos.trans hle', hread⟩
    have hall := fun start => readsLast_foldl htype h.steps_eq
      (fun other hmem => hfaithful other (h.before_fixed other hmem))
      (fun other hmem => hfaithful other (h.after_fixed other hmem)) h.after_width start
      (hopen start) hout
    refine ⟨(hall 0).1, fun cursor _ hrest => ?_⟩
    rw [normalForm_eq hr found, decodeWith, found]
    exact (hall cursor.position).2 cursor le_rfl hrest

/-! ## The round trip -/

/-- The value of a property that goes on to the end, after coding: every item of its list in order,
or its record where there is one. -/
def openValue (normal : Nat → Record → Record) (property : Property) (value : Option Value) :
    Option Value :=
  match property.kind with
  | .list (.text (some layout)) _ =>
    some (.list ((listOf value).map fun item => normalText layout (some item)))
  | .list (.record target) _ =>
    some (.list ((listOf value).map fun item => .record (normal target (recordOf (some item)))))
  | .nested target =>
    match value with
    | some (.record fields) => some (.record (normal target fields))
    | _ => none
  | .text _ | .list (.text none) _ => none

theorem normalValue_eq_openValue {fixed : Nat} (h : GoesToEnd table index fixed property)
    (value : Option Value) :
    normalValue normal property value = openValue normal property value := by
  cases h with
  | texts kind =>
    simp only [normalValue, openValue, kind, normalItems, placeCount, slots_of_le le_rfl,
      List.take_length, List.map_map, Function.comp_def]
  | records kind =>
    simp only [normalValue, openValue, kind, normalItems, placeCount, slots_of_le le_rfl,
      List.take_length, List.map_map, Function.comp_def]
  | nested kind recursive =>
    rcases value with _ | ⟨_ | _ | _⟩ <;> simp [normalValue, openValue, kind, recursive]

/-- **Types with an open end round-trip.** What a compiled type with an open end writes is read back
as the normal form of the record, with every item of the list that goes on to the end, or with the
record inside exactly where there was one. -/
theorem openEnded_roundTrip (registry : Registry) (id : String) (index : Nat) (type : RecordType)
    (before after : List Step) (step : Step) (property : Property)
    (h : OpenEnded (compile registry id) index type before step after property) (record : Record)
    (out : List Char) (hout : encode (compile registry id) index record = .ok out) :
    decode (compile registry id) index out = normalForm (compile registry id) index record ∧
      NameMap.Ordered (normalForm (compile registry id) index record) ∧
      (∀ name, (normalForm (compile registry id) index record).get? name =
        (type.property? name).bind fun property =>
          normalValue (normalForm (compile registry id)) property (record.get? property.name)) ∧
      (normalForm (compile registry id) index record).get? property.name =
        openValue (normalForm (compile registry id)) property (record.get? property.name) := by
  have hrun := compiles_compile registry id
  have hm := hrun.wellMade
  obtain ⟨rank, hr⟩ := hrun.exists_ranked
  have htype := hm type (List.mem_of_getElem? h.found)
  have hlt := (List.getElem?_eq_some_iff.1 h.found).1
  have hget := get?_normalForm hr h.found htype record
  refine ⟨?_, ?_, hget, ?_⟩
  · have hfuel := Nat.le_mul_of_pos_left out.length (Nat.zero_lt_of_lt hlt)
    obtain ⟨-, hread⟩ := h.readsLast hr hm _
      ((compile registry id).types.length * (out.length + 1) + 1) hout (by omega)
      (by rw [Nat.mul_succ]; omega)
    rw [decode, hread (.ofText out) (Nat.zero_le _) rfl]
  · rw [normalForm_eq hr h.found]
    exact ordered_normalFields _ _ _
  · obtain ⟨i, -, hi⟩ := Option.bind_eq_some_iff.1 h.uses
    rw [hget, htype.property?_eq (List.mem_of_getElem? hi), Option.bind_some,
      normalValue_eq_openValue h.goes]

/-- A type that leads to no other is rigid if its own properties are. -/
theorem rigid_of_target?_eq_none {types : List RecordType} (found : types[index]? = some type)
    (h : ∀ property ∈ type.properties, property.Rigid ∧ property.kind.target? = none) :
    Rigid types index := by
  intro owner other property hway hother hp
  rcases hway.cases_head with rfl | ⟨target, ⟨type', property', found', hp', htarget⟩, -⟩
  · cases found.symm.trans hother
    exact (h property hp).1
  · cases found.symm.trans found'
    simp [(h property' hp').2] at htarget

/-- A type with one field, which holds a text, and then a property that goes on to the end. -/
theorem OpenEnded.of_field {key : Property} {layout : Layout}
    (found : table.types[index]? = some type) (hsteps : type.steps = [.field 0 layout, step])
    (hkey : type.properties[0]? = some key) (hrigid : key.Rigid) (htext : key.kind.target? = none)
    (huse : step.property?.bind (type.properties[·]?) = some property)
    (hgoes : GoesToEnd table index layout.width property) :
    OpenEnded table index type [.field 0 layout] step [] property where
  found := found
  steps_eq := hsteps
  before_fixed := by
    intro other hmem property hproperty
    obtain rfl := List.mem_singleton.1 hmem
    cases hkey.symm.trans hproperty
    exact ⟨hrigid, by simp [htext]⟩
  after_fixed := nofun
  after_width := nofun
  uses := huse
  goes := hgoes

/-- A record with a key of two characters and some more members. -/
def keyed (id : String) (line : Nat) (members : List Node) : Node :=
  { Node.ofTag "record" ⟨"letters.xml", line⟩ with
    id := some id
    children := [
      { Node.ofTag "fCSString" ⟨"letters.xml", line⟩ with attributes := [("dataName", "key")] },
      { Node.ofTag "stringFormatterDecor" ⟨"letters.xml", line⟩ with
        attributes := [("length", "2")] }] ++ members }

/-- A memo goes on with lines of three characters, a round with stops that have a name, and a
letter with another letter. -/
def letters : Registry where
  roots := [
    keyed "Memo" 1 [
      { Node.ofTag "fCSList" ⟨"letters.xml", 1⟩ with
        attributes := [("dataName", "lines"), ("times", "*")]
        children := [
          { Node.ofTag "stringFormatterDecor" ⟨"letters.xml", 1⟩ with
            attributes := [("length", "3")] }] }],
    keyed "Round" 2 [
      { Node.ofTag "fCSList" ⟨"letters.xml", 2⟩ with
        attributes := [("dataName", "stops"), ("times", "*")]
        children := [
          { Node.ofTag "record" ⟨"letters.xml", 2⟩ with
            children := [
              { Node.ofTag "fCSString" ⟨"letters.xml", 2⟩ with
                attributes := [("dataName", "name")] },
              { Node.ofTag "stringFormatterDecor" ⟨"letters.xml", 2⟩ with
                attributes := [("length", "3")] }] }] }],
    keyed "Letter" 3 [
      { Node.ofTag "record" ⟨"letters.xml", 3⟩ with attributes := [("dataName", "Letter")] }]]
  index := ⟨[("Letter", ⟨2, []⟩), ("Memo", ⟨0, []⟩), ("Round", ⟨1, []⟩)], []⟩

/-- A memo with two lines, the first of which is cut. -/
def memo : Record := [("key", .text "M"), ("lines", .list [.text "long", .text ""])]

/-- A round with two stops, the second of which has no name. -/
def round : Record := [("stops", .list [.record [("name", .text "Ulm")], .record []])]

/-- A letter with another one inside. -/
def letter : Record := [("Letter", .record [("key", .text "b")]), ("key", .text "a")]

/-- Both lines, both stops and both letters come back. -/
theorem letters_roundTrip :
    (encode (compile letters "Memo") 0 memo = .ok "M lon   ".toList ∧
        decode (compile letters "Memo") 0 "M lon   ".toList =
          [("key", .text "M"), ("lines", .list [.text "lon", .text ""])]) ∧
      (encode (compile letters "Round") 0 round = .ok "  Ulm   ".toList ∧
        decode (compile letters "Round") 0 "  Ulm   ".toList =
          [("key", .text ""),
            ("stops", .list [.record [("name", .text "Ulm")], .record [("name", .text "")]])]) ∧
      encode (compile letters "Letter") 0 letter = .ok "a b ".toList ∧
        decode (compile letters "Letter") 0 "a b ".toList = letter := by
  have hmemo : encode (compile letters "Memo") 0 memo = .ok "M lon   ".toList := by decide +kernel
  have hround : encode (compile letters "Round") 0 round = .ok "  Ulm   ".toList := by
    decide +kernel
  have hletter : encode (compile letters "Letter") 0 letter = .ok "a b ".toList := by
    decide +kernel
  have hstop : Rigid (compile letters "Round").types 1 :=
    rigid_of_target?_eq_none (by rfl) (by decide +kernel)
  refine ⟨⟨hmemo, ?_⟩, ⟨hround, ?_⟩, hletter, ?_⟩
  · rw [(openEnded_roundTrip letters "Memo" 0 _ _ _ _ _ (.of_field (by rfl) (by rfl) (by rfl)
      (by decide) rfl (by rfl) (.texts rfl)) _ _ hmemo).1]
    decide +kernel
  · rw [(openEnded_roundTrip letters "Round" 0 _ _ _ _ _ (.of_field (by rfl) (by rfl) (by rfl)
      (by decide) rfl (by rfl) (.records rfl rfl hstop (by decide +kernel))) _ _ hround).1]
    decide +kernel
  · rw [(openEnded_roundTrip letters "Letter" 0 _ _ _ _ _ (.of_field (by rfl) (by rfl) (by rfl)
      (by decide) rfl (by rfl) (.nested rfl rfl (by decide))) _ _ hletter).1]
    decide +kernel

end FixedWidth.Codec
