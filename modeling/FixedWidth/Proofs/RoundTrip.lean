import FixedWidth.Proofs.NormalForm
import FixedWidth.Proofs.Width

/-!
# Proofs/RoundTrip — what was written is read back

    record ──encode──▸ out        out ++ suffix ──decode──▸ normal form ; suffix

A reader reads a text back if it takes exactly that text from the front of any longer one
(`ReadsBack`). Each step of a rigid type reads back what it wrote, and so does the whole type:
`rigid_roundTrip` is the round trip for every rigid type of every compiled table.
-/

namespace FixedWidth.Wire.Cursor

open Text (byteLength)

/-! ## Cursors behind what was read -/

/-- The cursor `count` characters further on. -/
def advance (cursor : Cursor) (count : Nat) : Cursor where
  buffer := cursor.buffer
  rest := cursor.rest.drop count
  position := cursor.position + count
  byteOffset := cursor.byteOffset + byteLength (cursor.rest.take count)

variable {cursor : Cursor}

@[simp]
theorem advance_zero (cursor : Cursor) : cursor.advance 0 = cursor := by
  simp [advance, byteLength]

theorem advance_advance (cursor : Cursor) (first second : Nat) :
    (cursor.advance first).advance second = cursor.advance (first + second) := by
  simp [advance, List.take_add, Nat.add_assoc]

theorem rest_advance {out suffix : List Char} (h : cursor.rest = out ++ suffix) :
    (cursor.advance out.length).rest = suffix := by
  rw [advance, h, List.drop_left]

/-- A field that is there is taken. -/
theorem take_eq {out suffix : List Char} (h : cursor.rest = out ++ suffix) :
    cursor.take out.length = (some out, cursor.advance out.length) := by
  have hle : out.length ≤ cursor.remaining := by
    rw [remaining, h, List.length_append]
    omega
  rw [take_of_le hle, advance, h, List.take_left]

end FixedWidth.Wire.Cursor

namespace FixedWidth.Codec

open Schema (Node Registry)
open Table
open Wire (Cursor)

/-! ## Reading back -/

/-- **The reader takes `out` from the front of any text**, with this result. -/
def ReadsBack {α : Type} (read : Cursor → α × Cursor) (out : List Char) (result : α) : Prop :=
  ∀ cursor suffix, cursor.rest = out ++ suffix →
    read cursor = (result, cursor.advance out.length)

theorem ReadsBack.nothing {α : Type} (result : α) :
    ReadsBack (fun cursor => (result, cursor)) [] result := by
  rintro cursor suffix -
  rw [List.length_nil, Cursor.advance_zero]

/-- Readers that run one after the other read back texts that stand one after the other. -/
theorem ReadsBack.bind {α β : Type} {read : Cursor → α × Cursor} {out out' : List Char}
    {result : α} {result' : β} (h : ReadsBack read out result)
    (next : α → Cursor → β × Cursor) (h' : ReadsBack (next result) out' result') :
    ReadsBack (fun cursor => next (read cursor).1 (read cursor).2) (out ++ out') result' := by
  intro cursor suffix hrest
  rw [List.append_assoc] at hrest
  have hnext := h' _ suffix (Cursor.rest_advance hrest)
  simp only [h cursor _ hrest]
  rw [hnext, Cursor.advance_advance, List.length_append]

/-- The result of a reader may be changed. -/
theorem ReadsBack.map {α β : Type} {read : Cursor → α × Cursor} {out : List Char} {result : α}
    (h : ReadsBack read out result) (f : α → β) :
    ReadsBack (fun cursor => (f (read cursor).1, (read cursor).2)) out (f result) := by
  intro cursor suffix hrest
  simp only [h cursor suffix hrest]

theorem readsBack_takeValue (layout : Layout) (value : List Char) :
    ReadsBack (·.takeValue layout) (layout.encode value)
      (some (layout.decode (layout.encode value))) := by
  intro cursor suffix hrest
  have htake := Cursor.take_eq hrest
  rw [layout.length_encode] at htake ⊢
  simp only [Cursor.takeValue, htake, Option.map_some]

theorem readsBack_skip {α : Type} (result : α) {out : List Char} {width : Nat}
    (h : out.length = width) :
    ReadsBack (fun cursor => (result, (cursor.skip width).2)) out result := by
  intro cursor suffix hrest
  have htake := Cursor.take_eq hrest
  rw [h] at htake ⊢
  simp only [Cursor.skip, htake]

/-! ## Lists -/

variable {α : Type} {write : α → Encoded} {out : List Char}

theorem exists_of_concatM_cons {a : α} {rest : List α} (h : concatM write (a :: rest) = .ok out) :
    ∃ first second, write a = .ok first ∧ concatM write rest = .ok second ∧
      out = first ++ second := by
  cases ha : write a with
  | error mismatch => simp [concatM_cons_error ha] at h
  | ok first =>
    rw [concatM_cons_ok ha] at h
    cases hrest : concatM write rest with
    | error mismatch => simp [hrest, Except.map] at h
    | ok second =>
      rw [hrest] at h
      exact ⟨first, second, rfl, rfl, (Except.ok.inj h).symm⟩

/-- **A loop that reads one item after the other reads back items that were written so.** -/
theorem readsBack_loop {α β : Type} {write : α → Encoded} {width : Nat}
    (loop : Nat → Cursor → List Value × Cursor) (read : Cursor → β × Cursor) (f : β → Value)
    (result : α → β) (hzero : ∀ cursor, loop 0 cursor = ([], cursor))
    (hsucc : ∀ count cursor, loop (count + 1) cursor =
      (f (read cursor).1 :: (loop count (read cursor).2).1, (loop count (read cursor).2).2))
    (hitem : ∀ a out, write a = .ok out →
      out.length = width ∧ ReadsBack read out (result a))
    (items : List α) {out : List Char} (h : concatM write items = .ok out) :
    out.length = items.length * width ∧
      ReadsBack (loop items.length) out (items.map fun a => f (result a)) := by
  induction items generalizing out with
  | nil =>
    cases h
    refine ⟨by simp, ?_⟩
    rw [List.length_nil, funext hzero]
    exact .nothing _
  | cons a rest ih =>
    obtain ⟨first, second, hfirst, hsecond, rfl⟩ := exists_of_concatM_cons h
    obtain ⟨hlen, hread⟩ := hitem a first hfirst
    obtain ⟨hlens, hreads⟩ := ih hsecond
    refine ⟨?_, ?_⟩
    · rw [List.length_append, hlen, hlens, List.length_cons, Nat.succ_mul, Nat.add_comm]
    · rw [List.length_cons, funext (hsucc rest.length)]
      exact hread.bind (fun item cursor => (f item :: (loop rest.length cursor).1,
        (loop rest.length cursor).2)) (hreads.map _)

theorem encodeTextItem_eq {name : String} {layout : Layout} {place : Option Value}
    (h : encodeTextItem name layout place = .ok out) : out = layout.encode (textOf place) := by
  rcases place with _ | ⟨_ | _ | _⟩ <;> cases h <;> rfl

theorem encodeRecordItem_eq {encodeRecord : RecordEncoder} {name : String} {target : Nat}
    {place : Option Value} (h : encodeRecordItem encodeRecord name target place = .ok out) :
    encodeRecord target (recordOf place) = .ok out := by
  rcases place with _ | ⟨_ | _ | _⟩
  · exact h
  · cases h
  · exact h
  · cases h

/-- **The texts of a fixed list are read back.** -/
theorem readsBack_takeExactly {name : String} {layout : Layout} (places : List (Option Value))
    (h : concatM (encodeTextItem name layout) places = .ok out) :
    out.length = places.length * layout.width ∧
      ReadsBack (takeExactly layout places.length) out (places.map (normalText layout)) := by
  refine readsBack_loop (takeExactly layout) (·.takeValue layout)
    (fun text => .text (String.ofList (text.getD [])))
    (fun place => some (layout.decode (layout.encode (textOf place)))) (fun _ => rfl)
    (fun _ _ => rfl) (fun place first hfirst => ?_) places h
  obtain rfl := encodeTextItem_eq hfirst
  exact ⟨layout.length_encode _, readsBack_takeValue layout (textOf place)⟩

/-- What is written as a record of the type at an index has this width and is read back as its
normal form. -/
def Faithful (encodeRecord : RecordEncoder) (decodeRecord : RecordDecoder)
    (normal : Nat → Record → Record) (width index : Nat) : Prop :=
  ∀ record out, encodeRecord index record = .ok out →
    out.length = width ∧ ReadsBack (decodeRecord index) out (normal index record)

variable {encodeRecord : RecordEncoder} {decodeRecord : RecordDecoder}
  {normal : Nat → Record → Record} {widths : Nat → Nat} {type : RecordType} {record : Record}
  {property : Property}

/-- **The records of a fixed list are read back.** -/
theorem readsBack_decodeExactly {name : String} {target width : Nat}
    (hf : Faithful encodeRecord decodeRecord normal width target) (places : List (Option Value))
    (h : concatM (encodeRecordItem encodeRecord name target) places = .ok out) :
    out.length = places.length * width ∧
      ReadsBack (decodeExactly (decodeRecord target) places.length) out
        (places.map fun place => .record (normal target (recordOf place))) :=
  readsBack_loop (decodeExactly (decodeRecord target)) (decodeRecord target) Value.record
    (fun place => normal target (recordOf place)) (fun _ => rfl) (fun _ _ => rfl)
    (fun place first hfirst => hf (recordOf place) first (encodeRecordItem_eq hfirst)) places h

/-! ## Steps -/

/-- What a step sets after coding. -/
def stepValue (normal : Nat → Record → Record) (type : RecordType) (record : Record)
    (step : Step) : Option (String × Value) :=
  (step.property?.bind (type.properties[·]?)).bind fun property =>
    (normalValue normal property (record.get? property.name)).map (property.name, ·)

/-- The property of the step is rigid, and records of it are read back. -/
def FaithfulStep (encodeRecord : RecordEncoder) (decodeRecord : RecordDecoder)
    (normal : Nat → Record → Record) (widths : Nat → Nat) (type : RecordType) (step : Step) :
    Prop :=
  ∀ property, step.property?.bind (type.properties[·]?) = some property → property.Rigid ∧
    ∀ target, property.kind.target? = some target →
      Faithful encodeRecord decodeRecord normal (widths target) target

theorem encode_of_encodeNested {target : Nat} (hk : property.kind = .nested target)
    (hrec : property.recursive = false)
    (h : encodeNested encodeRecord property record = .ok out) :
    encodeRecord target (recordOf (record.get? property.name)) = .ok out := by
  rw [encodeNested, hk] at h
  simp only [Record.record] at h
  rcases hvalue : record.get? property.name with _ | ⟨_ | _ | _⟩
  · simp only [hvalue, hrec] at h
    exact h
  · simp only [hvalue] at h
    cases h
  · simp only [hvalue] at h
    exact h
  · simp only [hvalue] at h
    cases h

theorem normalValue_of_nested {target : Nat} (hk : property.kind = .nested target)
    (hrec : property.recursive = false) (value : Option Value) :
    normalValue normal property value = some (.record (normal target (recordOf value))) := by
  rw [normalValue, hk]
  rcases value with _ | ⟨_ | _ | _⟩ <;> simp [hrec, recordOf]

/-- **A nested record is read back.** -/
theorem readsBack_decodeNested {target : Nat} (hk : property.kind = .nested target)
    (hrec : property.recursive = false)
    (hf : Faithful encodeRecord decodeRecord normal (widths target) target)
    (h : encodeNested encodeRecord property record = .ok out) :
    out.length = propertyWidth widths property ∧ ∀ start fields,
      ReadsBack (decodeNested decodeRecord property start fields) out
        (putValue fields ((normalValue normal property (record.get? property.name)).map
          (property.name, ·))) := by
  obtain ⟨hlen, hread⟩ := hf _ _ (encode_of_encodeNested hk hrec h)
  refine ⟨?_, fun start fields => ?_⟩
  · rw [hlen, propertyWidth, hk]
    simp [hrec]
  · have hdecode : decodeNested decodeRecord property start fields = fun cursor =>
        (fields.insert property.name (.record (decodeRecord target cursor).1),
          (decodeRecord target cursor).2) := by
      funext cursor
      simp [decodeNested, hk, hrec]
    rw [hdecode, normalValue_of_nested hk hrec]
    exact hread.map fun nested => fields.insert property.name (.record nested)

theorem encodeItems_of_encodeList {item : ItemType} {repetition : Repetition}
    (hk : property.kind = .list item repetition)
    (h : encodeList encodeRecord property record = .ok out) :
    encodeItems encodeRecord property item repetition (listOf (record.get? property.name))
      = .ok out := by
  rw [encodeList, hk] at h
  simp only [Record.list] at h
  rcases hvalue : record.get? property.name with _ | ⟨_ | _ | _⟩
  · simp only [hvalue] at h
    exact h
  · simp only [hvalue] at h
    cases h
  · simp only [hvalue] at h
    cases h
  · simp only [hvalue] at h
    exact h

/-- **The items of a list are read back**, if the list has a fixed number of places or none at
all. -/
theorem readsBack_decodeItems (hrigid : property.Rigid) {item : ItemType}
    {repetition : Repetition} (hk : property.kind = .list item repetition)
    (hf : ∀ target, property.kind.target? = some target →
      Faithful encodeRecord decodeRecord normal (widths target) target) {items : List Value}
    (h : encodeItems encodeRecord property item repetition items = .ok out) :
    out.length = propertyWidth widths property ∧ ∀ start,
      ReadsBack (decodeItems decodeRecord property.recursive start item repetition) out
        (normalItems normal property item repetition items) := by
  obtain ⟨hrec, hopen⟩ := hrigid
  rw [hk] at hopen
  rw [propertyWidth, hk]
  rcases item with target | _ | layout
  · cases repetition with
    | dynamic => cases hopen
    | fixed count =>
      have hslots := length_slots (placeCount (.fixed count) property.recursive items.length) items
      have hcount : placeCount (.fixed count) property.recursive items.length = count := by
        simp [placeCount, hrec]
      obtain ⟨hlen, hread⟩ := readsBack_decodeExactly (hf target (by rw [hk]; rfl)) _ h
      rw [hslots, hcount] at hlen hread
      refine ⟨by simpa [hrec] using hlen, fun start => ?_⟩
      have hdecode : decodeItems decodeRecord property.recursive start (.record target)
          (.fixed count) = decodeExactly (decodeRecord target) count := by
        funext cursor
        simp [decodeItems, hrec]
      rw [hdecode, normalItems, hcount]
      exact hread
  · cases h
    refine ⟨rfl, fun start => ?_⟩
    cases repetition <;> exact .nothing _
  · cases repetition with
    | dynamic => cases hopen
    | fixed count =>
      obtain ⟨hlen, hread⟩ := readsBack_takeExactly _ h
      rw [length_slots] at hlen hread
      exact ⟨hlen, fun start => hread⟩

/-- **A list is read back.** -/
theorem readsBack_decodeList (hrigid : property.Rigid) {item : ItemType}
    {repetition : Repetition} (hk : property.kind = .list item repetition)
    (hf : ∀ target, property.kind.target? = some target →
      Faithful encodeRecord decodeRecord normal (widths target) target)
    (h : encodeList encodeRecord property record = .ok out) :
    out.length = propertyWidth widths property ∧ ∀ start fields,
      ReadsBack (decodeList decodeRecord property start fields) out
        (putValue fields ((normalValue normal property (record.get? property.name)).map
          (property.name, ·))) := by
  obtain ⟨hlen, hread⟩ :=
    readsBack_decodeItems hrigid hk hf (encodeItems_of_encodeList hk h)
  refine ⟨hlen, fun start fields => ?_⟩
  have hdecode : decodeList decodeRecord property start fields = fun cursor =>
      (fields.insert property.name (.list
        (decodeItems decodeRecord property.recursive start item repetition cursor).1),
        (decodeItems decodeRecord property.recursive start item repetition cursor).2) := by
    funext cursor
    simp only [decodeList, hk]
  rw [hdecode, normalValue, hk]
  exact (hread start).map fun items => fields.insert property.name (.list items)

theorem encode_of_field {layout : Layout}
    (h : fieldText layout property record = .ok out) :
    out = layout.encode (textOf (record.get? property.name)) := by
  rw [fieldText, Record.text] at h
  rcases hvalue : record.get? property.name with _ | ⟨_ | _ | _⟩ <;> simp only [hvalue] at h <;>
    cases h <;> rfl

/-- **A field is read back.** -/
theorem readsBack_field {index : Nat} {layout : Layout}
    (hp : type.properties[index]? = some property) (hk : property.kind = .text (some layout))
    (h : encodeStep encodeRecord type record (.field index layout) = .ok out) :
    out.length = layout.width ∧ ∀ start fields,
      ReadsBack (fun cursor => decodeStep decodeRecord type start (fields, cursor)
        (.field index layout)) out
        (putValue fields (stepValue normal type record (.field index layout))) := by
  rw [encodeStep, hp] at h
  obtain rfl := encode_of_field h
  refine ⟨layout.length_encode _, fun start fields => ?_⟩
  have hvalue : stepValue normal type record (.field index layout)
      = some (property.name, normalText layout (record.get? property.name)) := by
    simp [stepValue, Step.property?, hp, normalValue, hk]
  have hdecode : (fun cursor => decodeStep decodeRecord type start (fields, cursor)
      (.field index layout)) = fun cursor => (putValue fields
        ((cursor.takeValue layout).1.map fun text =>
          (property.name, .text (String.ofList text))), (cursor.takeValue layout).2) := by
    funext cursor
    rw [decodeStep]
    rcases cursor.takeValue layout with ⟨_ | text, next⟩
    · rfl
    · simp only [hp]
      rfl
  rw [hdecode, hvalue]
  exact (readsBack_takeValue layout _).map fun text => putValue fields
    (text.map fun text => (property.name, .text (String.ofList text)))

/-- **A step reads back what it wrote.** -/
theorem readsBack_decodeStep (hm : WellMade type.properties type.steps) {step : Step}
    (hf : FaithfulStep encodeRecord decodeRecord normal widths type step)
    (hs : step ∈ type.steps) (h : encodeStep encodeRecord type record step = .ok out) :
    out.length = stepWidth widths type step ∧ ∀ start fields,
      ReadsBack (fun cursor => decodeStep decodeRecord type start (fields, cursor) step) out
        (putValue fields (stepValue normal type record step)) := by
  cases step with
  | field index layout =>
    obtain ⟨property, hp, huse⟩ := hm.exists_property hs rfl
    exact readsBack_field hp (PropertyKind.eq_of_field_mem_stepsAt huse) h
  | nested index =>
    obtain ⟨property, hp, huse⟩ := hm.exists_property hs rfl
    obtain ⟨target, hk⟩ := PropertyKind.eq_of_nested_mem_stepsAt huse
    obtain ⟨hrigid, hf⟩ := hf property hp
    rw [encodeStep, hp] at h
    have hread := readsBack_decodeNested hk hrigid.1 (hf target (by rw [hk]; rfl)) h
    simpa only [stepWidth, stepValue, decodeStep, Step.property?, Option.bind_some, Option.elim, hp]
      using hread
  | list index =>
    obtain ⟨property, hp, huse⟩ := hm.exists_property hs rfl
    obtain ⟨item, repetition, hk⟩ := PropertyKind.eq_of_list_mem_stepsAt huse
    obtain ⟨hrigid, hf⟩ := hf property hp
    rw [encodeStep, hp] at h
    have hread := readsBack_decodeList hrigid hk hf h
    simpa only [stepWidth, stepValue, decodeStep, Step.property?, Option.bind_some, Option.elim, hp]
      using hread
  | constant value width =>
    cases h
    refine ⟨Layout.length_encode _ _, fun start fields => readsBack_skip _ ?_⟩
    exact Layout.length_encode _ _
  | padding width =>
    cases h
    refine ⟨List.length_replicate, fun start fields => readsBack_skip _ ?_⟩
    exact List.length_replicate
  | unresolved | cycle =>
    cases h
    exact ⟨rfl, fun start fields => .nothing _⟩

/-! ## Records -/

/-- The steps of a record read back what they wrote. -/
theorem readsBack_foldl (hm : WellMade type.properties type.steps) (start : Nat)
    (rest : List Step) (hrest : rest ⊆ type.steps)
    (hf : ∀ step ∈ rest, FaithfulStep encodeRecord decodeRecord normal widths type step)
    (fields : Record) (h : concatM (encodeStep encodeRecord type record) rest = .ok out) :
    out.length = (rest.map (stepWidth widths type)).sum ∧
      ReadsBack (fun cursor => rest.foldl (decodeStep decodeRecord type start) (fields, cursor)) out
        (rest.foldl (fun fields step => putValue fields (stepValue normal type record step))
          fields) := by
  induction rest generalizing fields out with
  | nil =>
    cases h
    exact ⟨rfl, .nothing _⟩
  | cons step rest ih =>
    rw [List.cons_subset] at hrest
    rw [List.forall_mem_cons] at hf
    obtain ⟨first, second, hfirst, hsecond, rfl⟩ := exists_of_concatM_cons h
    obtain ⟨hlen, hread⟩ := readsBack_decodeStep hm hf.1 hrest.1 hfirst
    obtain ⟨hlens, hreads⟩ := ih hrest.2 hf.2 _ hsecond
    refine ⟨?_, ?_⟩
    · rw [List.length_append, hlen, hlens, List.map_cons, List.sum_cons]
    · exact (hread start fields).bind
        (fun fields cursor => rest.foldl (decodeStep decodeRecord type start) (fields, cursor))
        hreads

theorem foldl_stepsAt {index : Nat} (hp : type.properties[index]? = some property)
    (fields : Record) :
    (property.kind.stepsAt index).foldl
        (fun fields step => putValue fields (stepValue normal type record step)) fields =
      putValue fields ((normalValue normal property (record.get? property.name)).map
        (property.name, ·)) := by
  cases hk : property.kind with
  | text layout =>
    cases layout with
    | none => simp [PropertyKind.stepsAt, normalValue, hk, putValue]
    | some layout => simp [PropertyKind.stepsAt, stepValue, Step.property?, hp]
  | nested | list => simp [PropertyKind.stepsAt, stepValue, Step.property?, hp]

/-- **The steps set what the properties have**: those without a property set nothing, and the
others come in the order of the properties. -/
theorem foldl_stepValue (hm : WellMade type.properties type.steps) :
    type.steps.foldl (fun fields step => putValue fields (stepValue normal type record step)) [] =
      normalFields normal type record := by
  have huses : type.steps.foldl
        (fun fields step => putValue fields (stepValue normal type record step)) [] =
      (type.steps.filter (·.property?.isSome)).foldl
        (fun fields step => putValue fields (stepValue normal type record step)) [] := by
    rw [List.foldl_filter]
    refine List.foldl_ext _ _ _ fun fields step _ => ?_
    cases hstep : step.property? with
    | none => simp [stepValue, hstep, putValue]
    | some index => simp
  have hindexed : normalFields normal type record = type.properties.zipIdx.foldl
      (fun fields entry => putValue fields
        ((normalValue normal entry.1 (record.get? entry.1.name)).map (entry.1.name, ·))) [] := by
    conv_lhs => rw [normalFields, ← List.zipIdx_map_fst 0 type.properties, List.foldl_map]
  rw [huses, hm.uses_eq, List.foldl_flatMap, hindexed]
  refine List.foldl_ext _ _ _ fun fields entry hentry => ?_
  exact foldl_stepsAt (List.mem_zipIdx_iff_getElem?.1 hentry) fields

variable {table : TypeTable} {rank : Nat → Nat} {index : Nat}

/-- **Rigid types are faithful**, with fuel above the rank. The induction is on the rank, which
falls from a rigid type to the types of its properties. -/
theorem faithful_of_rigid (hr : Ranked table.types rank)
    (hm : ∀ type ∈ table.types, WellMade type.properties type.steps) (n fuel fuel' : Nat)
    (found : table.types[index]? = some type) (hrigid : Rigid table.types index)
    (hn : rank index < n) (hfuel : n ≤ fuel) (hfuel' : n ≤ fuel') :
    Faithful (encodeWith table fuel) (decodeWith table fuel') (normalForm table)
      (width table index) index := by
  induction n generalizing fuel fuel' index type with
  | zero => omega
  | succ n ih =>
    obtain ⟨fuel, rfl⟩ : ∃ k, fuel = k + 1 := ⟨fuel - 1, by omega⟩
    obtain ⟨fuel', rfl⟩ : ∃ k, fuel' = k + 1 := ⟨fuel' - 1, by omega⟩
    have hsteps : ∀ step ∈ type.steps, FaithfulStep (encodeWith table fuel)
        (decodeWith table fuel') (normalForm table) (width table) type step := by
      intro step _ property hproperty
      obtain ⟨i, -, hi⟩ := Option.bind_eq_some_iff.1 hproperty
      have hp := List.mem_of_getElem? hi
      refine ⟨hrigid.of_mem found hp, fun target htarget => ?_⟩
      have hedge : Edge table.types index target := ⟨type, property, found, hp, htarget⟩
      have hrec := (hrigid.of_mem found hp).1
      have hrank := hr.rank_lt index target ⟨type, property, found, hp, hrec, htarget⟩
      have hlt := hr.target_lt index target hedge
      exact ih fuel fuel' (List.getElem?_eq_getElem hlt) (hrigid.of_edge hedge) (by omega)
        (by omega) (by omega)
    intro record out h
    rw [encodeWith, found] at h
    have htype := hm type (List.mem_of_getElem? found)
    obtain ⟨hlen, -⟩ := readsBack_foldl htype 0 type.steps (List.Subset.refl _) hsteps [] h
    refine ⟨by rw [hlen, width_eq hr found, stepsWidth], fun cursor suffix hrest => ?_⟩
    obtain ⟨-, hread⟩ := readsBack_foldl htype cursor.position type.steps (List.Subset.refl _)
      hsteps [] h
    rw [foldl_stepValue htype, ← normalForm_eq hr found] at hread
    rw [decodeWith, found]
    exact hread cursor suffix hrest

/-- **Rigid types round-trip.** What a compiled rigid type writes is as wide as the type, and with
any text behind it is read back as the normal form of the record. That has the normal value of each
property under its name, each name once and no other names. -/
theorem rigid_roundTrip (registry : Registry) (id : String) (index : Nat) (type : RecordType)
    (found : (compile registry id).types[index]? = some type)
    (hrigid : Rigid (compile registry id).types index) (record : Record) (out : List Char)
    (h : encode (compile registry id) index record = .ok out) :
    out.length = width (compile registry id) index ∧
      width (compile registry id) index = stepsWidth (width (compile registry id)) type ∧
      (∀ w, type.flatWidth? = some w → width (compile registry id) index = w) ∧
      (∀ suffix, decode (compile registry id) index (out ++ suffix) =
        normalForm (compile registry id) index record) ∧
      NameMap.Ordered (normalForm (compile registry id) index record) ∧
      ∀ name, (normalForm (compile registry id) index record).get? name =
        (type.property? name).bind fun property =>
          normalValue (normalForm (compile registry id)) property (record.get? property.name) := by
  have hrun := compiles_compile registry id
  have hm := hrun.wellMade
  obtain ⟨rank, hr⟩ := hrun.exists_ranked
  have hwidth := width_eq hr found
  have hindex := (List.getElem?_eq_some_iff.1 found).1
  have hrank := hr.rank_lt_length index hindex
  have hfaithful (suffix : List Char) := faithful_of_rigid hr hm (compile registry id).types.length
    (record.depth + (compile registry id).types.length + 1)
    ((compile registry id).types.length * ((out ++ suffix).length + 1) + 1) found hrigid hrank
    (by omega) (by rw [Nat.mul_succ]; omega) record out h
  refine ⟨(hfaithful []).1, hwidth, fun w hw => ?_, fun suffix => ?_, ?_,
    get?_normalForm hr found (hm type (List.mem_of_getElem? found)) record⟩
  · rw [hwidth, stepsWidth_eq_of_flatWidth? hw]
  · rw [decode, (hfaithful suffix).2 (.ofText (out ++ suffix)) suffix rfl]
  · rw [normalForm_eq hr found]
    exact ordered_normalFields _ _ _

/-- An order has a number, a buyer with a name, and two parts. -/
def orderNode : Node :=
  { Node.ofTag "record" ⟨"orders.xml", 1⟩ with
    id := some "Order"
    children := [
      { Node.ofTag "fCSString" ⟨"orders.xml", 2⟩ with attributes := [("dataName", "number")] },
      { Node.ofTag "numericFormatterDecor" ⟨"orders.xml", 3⟩ with
        attributes := [("length", "4")] },
      { Node.ofTag "record" ⟨"orders.xml", 4⟩ with
        attributes := [("dataName", "buyer")]
        children := [
          { Node.ofTag "fCSString" ⟨"orders.xml", 5⟩ with attributes := [("dataName", "name")] },
          { Node.ofTag "stringFormatterDecor" ⟨"orders.xml", 6⟩ with
            attributes := [("length", "5")] }] },
      { Node.ofTag "fCSList" ⟨"orders.xml", 7⟩ with
        attributes := [("dataName", "parts"), ("times", "2")]
        children := [
          { Node.ofTag "stringFormatterDecor" ⟨"orders.xml", 8⟩ with
            attributes := [("length", "3")] }] }] }

/-- The registry of an order alone. -/
def orders : Registry := ⟨[orderNode], ⟨[("Order", ⟨0, []⟩)], []⟩⟩

/-- An order with one part, whose name does not fit. -/
def order : Record :=
  [("buyer", .record [("name", .text "Zoë")]), ("number", .text "42"),
    ("parts", .list [.text "screw"])]

/-- An order is read back with a part cut to three characters and an empty one behind it. -/
theorem order_roundTrip :
    encode (compile orders "Order") 0 order = .ok "0042Zoë  scr   ".toList ∧
      ∀ suffix, decode (compile orders "Order") 0 ("0042Zoë  scr   ".toList ++ suffix) =
        [("buyer", .record [("name", .text "Zoë")]), ("number", .text "42"),
          ("parts", .list [.text "scr", .text ""])] := by
  have hlt : 0 < (compile orders "Order").types.length := by decide +kernel
  have hrigid : Rigid (compile orders "Order").types 0 := rigid_of_forall (by decide +kernel) 0
  have hout : encode (compile orders "Order") 0 order = .ok "0042Zoë  scr   ".toList := by
    decide +kernel
  refine ⟨hout, fun suffix => ?_⟩
  rw [(rigid_roundTrip orders "Order" 0 _ (List.getElem?_eq_getElem hlt) hrigid order _
    hout).2.2.2.1 suffix]
  decide +kernel

end FixedWidth.Codec
