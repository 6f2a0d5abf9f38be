import FixedWidth.Proofs.RoundTrip

/-!
# Proofs/Positions — which characters of a text matter

    T07 Ulm|Köl|       X07-Ulm.Köl.more       one ticket, read twice
    fvvfvvvfvvvf       fvvfvvvfvvvf           f filler, v value

The `uses` of a rigid type say of each position of its wire text whether a character of a value
stands there or filler. Two readers are `Alike` if texts that agree at the positions of values give
them one result, and readers that run one after the other are alike if each of them is. So a rigid
type reads texts that agree there as one record, whatever stands elsewhere
(`decode_depends_on_values`).
-/

namespace FixedWidth.Table

/-! ## What positions are for -/

/-- What a character of a wire text stands for. -/
inductive Use where
  /-- It belongs to a value. -/
  | value
  /-- It belongs to a constant or to padding. -/
  | filler
  deriving DecidableEq, Repr

/-- The uses of the positions of a property that is no text, as far as they are fixed. -/
def propertyUses (uses : Nat → List Use) (property : Property) : List Use :=
  match property.kind with
  | .nested target => if property.recursive then [] else uses target
  | .list (.text (some layout)) (.fixed count) =>
    (List.replicate count (List.replicate layout.width .value)).flatten
  | .list (.record target) (.fixed count) =>
    if property.recursive then [] else (List.replicate count (uses target)).flatten
  | _ => []

/-- The uses of the positions of a step of a type, as far as they are fixed. -/
def stepUses (uses : Nat → List Use) (type : RecordType) : Step → List Use
  | .field _ layout => List.replicate layout.width .value
  | .constant _ width | .padding width => List.replicate width .filler
  | .nested index | .list index => (type.properties[index]?).elim [] (propertyUses uses)
  | .unresolved _ | .cycle _ => []

/-- The uses of the positions of a type: those of its steps, side by side. -/
def stepsUses (uses : Nat → List Use) (type : RecordType) : List Use :=
  type.steps.flatMap (stepUses uses type)

/-- The uses of the positions of the type at an index, down to a depth of `fuel`. -/
def usesWith (table : TypeTable) : (fuel : Nat) → Nat → List Use
  | 0, _ => []
  | fuel + 1, index =>
    match table.types[index]? with
    | some type => stepsUses (usesWith table fuel) type
    | none => []

/-- **The uses of the positions** of the type at an index, as far as they are fixed. -/
def uses (table : TypeTable) (index : Nat) : List Use := usesWith table table.types.length index

variable {table : TypeTable} {type : RecordType} {property : Property} {rank : Nat → Nat}
  {used used' : Nat → List Use} {index : Nat}

theorem propertyUses_congr
    (h : ∀ target, property.recursive = false → property.kind.target? = some target →
      used target = used' target) :
    propertyUses used property = propertyUses used' property := by
  cases hrec : property.recursive with
  | true => simp [propertyUses, hrec]
  | false =>
    rw [propertyUses, propertyUses]
    split <;> rename_i hk
    · rw [h _ hrec (by rw [hk]; rfl)]
    · rfl
    · rw [h _ hrec (by rw [hk]; rfl)]
    · rfl

theorem stepsUses_congr
    (h : ∀ property ∈ type.properties, ∀ target, property.recursive = false →
      property.kind.target? = some target → used target = used' target) :
    stepsUses used type = stepsUses used' type := by
  have helim : ∀ index : Nat, (type.properties[index]?).elim [] (propertyUses used) =
      (type.properties[index]?).elim [] (propertyUses used') := by
    intro index
    cases hp : type.properties[index]? with
    | none => rfl
    | some property => exact propertyUses_congr (h property (List.mem_of_getElem? hp))
  refine List.flatMap_congr fun step _ => ?_
  cases step with
  | nested index | list index => exact helim index
  | field | constant | padding | unresolved | cycle => rfl

/-- The uses do not depend on the fuel, above the rank. -/
theorem usesWith_congr (hr : Ranked table.types rank) (fuel fuel' : Nat)
    (hindex : index < table.types.length) (h : rank index < fuel) (h' : rank index < fuel') :
    usesWith table fuel index = usesWith table fuel' index := by
  induction fuel generalizing fuel' index with
  | zero => omega
  | succ fuel ih =>
    cases fuel' with
    | zero => omega
    | succ fuel' =>
      have found := List.getElem?_eq_getElem hindex
      rw [usesWith, usesWith, found]
      refine stepsUses_congr fun property hp target hrec htarget => ?_
      have hlt := hr.target_lt index target ⟨_, property, found, hp, htarget⟩
      have hrank := hr.rank_lt index target ⟨_, property, found, hp, hrec, htarget⟩
      exact ih _ hlt (by omega) (by omega)

/-- **The uses of a type are those of its steps**, side by side. -/
theorem uses_eq (hr : Ranked table.types rank) (found : table.types[index]? = some type) :
    uses table index = stepsUses (uses table) type := by
  have hindex := (List.getElem?_eq_some_iff.1 found).1
  have hrank := hr.rank_lt_length index hindex
  obtain ⟨fuel, hfuel⟩ : ∃ fuel, table.types.length = fuel + 1 :=
    ⟨table.types.length - 1, by omega⟩
  rw [uses, hfuel, usesWith, found]
  refine stepsUses_congr fun property hp target hrec htarget => ?_
  have hlt := hr.target_lt index target ⟨_, property, found, hp, htarget⟩
  have hdirect := hr.rank_lt index target ⟨_, property, found, hp, hrec, htarget⟩
  exact usesWith_congr hr _ _ hlt (by omega) (hr.rank_lt_length target hlt)

theorem length_propertyUses {widths : Nat → Nat}
    (h : ∀ target, (used target).length = widths target) (property : Property) :
    (propertyUses used property).length = propertyWidth widths property := by
  rw [propertyUses, propertyWidth]
  rcases property.kind with _ | target | ⟨target | _ | layout, _ | count⟩
  case nested | list.record.fixed =>
    cases property.recursive <;> simp [h]
  case list.text.some.fixed => simp
  all_goals rfl

theorem length_stepUses {widths : Nat → Nat} (h : ∀ target, (used target).length = widths target)
    (type : RecordType) (step : Step) :
    (stepUses used type step).length = stepWidth widths type step := by
  cases step with
  | nested index | list index =>
    rw [stepUses, stepWidth]
    cases type.properties[index]? with
    | none => rfl
    | some property => exact length_propertyUses h property
  | field | constant | padding => exact List.length_replicate
  | unresolved | cycle => rfl

/-- **There are as many uses as the type is wide.** -/
theorem length_uses (table : TypeTable) (index : Nat) :
    (uses table index).length = width table index := by
  have hwith : ∀ fuel index, (usesWith table fuel index).length = widthWith table fuel index := by
    intro fuel
    induction fuel with
    | zero => exact fun _ => rfl
    | succ fuel ih =>
      intro index
      rw [usesWith, widthWith]
      cases table.types[index]? with
      | none => rfl
      | some type =>
        simp only [stepsUses, stepsWidth, List.length_flatMap]
        congr 1
        exact List.map_congr_left fun step _ => length_stepUses ih type step
  exact hwith _ index

end FixedWidth.Table

namespace FixedWidth.Codec

open Schema (Node Registry)
open Table
open Wire (Cursor)

/-! ## Texts that agree -/

/-- **Two texts of the length of these marks agree** at the positions of values. -/
structure Agree (marks : List Use) (out out' : List Char) : Prop where
  length_eq : out.length = marks.length
  length_eq' : out'.length = marks.length
  get_eq : ∀ i : Nat, marks[i]? = some .value → out[i]? = out'[i]?

variable {marks marks' : List Use} {out out' : List Char}

/-- What agrees at marks side by side falls into parts that do. -/
theorem Agree.exists_append (h : Agree (marks ++ marks') out out') :
    ∃ first second first' second', out = first ++ second ∧ out' = first' ++ second' ∧
      Agree marks first first' ∧ Agree marks' second second' := by
  have hlen := h.length_eq
  have hlen' := h.length_eq'
  rw [List.length_append] at hlen hlen'
  refine ⟨out.take marks.length, out.drop marks.length, out'.take marks.length,
    out'.drop marks.length, (List.take_append_drop ..).symm, (List.take_append_drop ..).symm,
    ⟨?_, ?_, fun i hi => ?_⟩, ⟨?_, ?_, fun i hi => ?_⟩⟩
  · rw [List.length_take]
    omega
  · rw [List.length_take]
    omega
  · have hlt := (List.getElem?_eq_some_iff.1 hi).1
    rw [List.getElem?_take_of_lt hlt, List.getElem?_take_of_lt hlt]
    exact h.get_eq i (by rwa [List.getElem?_append_left hlt])
  · rw [List.length_drop]
    omega
  · rw [List.length_drop]
    omega
  · rw [List.getElem?_drop, List.getElem?_drop]
    refine h.get_eq _ ?_
    rwa [List.getElem?_append_right (Nat.le_add_right _ _), Nat.add_sub_cancel_left]

/-- Where every position is one of a value, only equal texts agree. -/
theorem Agree.eq_of_replicate {count : Nat} (h : Agree (List.replicate count .value) out out') :
    out = out' := by
  have hlen := h.length_eq
  have hlen' := h.length_eq'
  rw [List.length_replicate] at hlen hlen'
  refine List.ext_getElem? fun i => ?_
  obtain hlt | hle := Nat.lt_or_ge i count
  · exact h.get_eq i (List.getElem?_replicate_of_lt hlt)
  · rw [List.getElem?_eq_none (by omega), List.getElem?_eq_none (by omega)]

/-! ## Readers that read alike -/

/-- A text is read back with one result. -/
theorem ReadsBack.unique {α : Type} {read : Cursor → α × Cursor} {result result' : α}
    (h : ReadsBack read out result) (h' : ReadsBack read out result') : result = result' := by
  have hrest : (Cursor.ofText out).rest = out ++ [] := (List.append_nil out).symm
  exact congrArg Prod.fst ((h _ [] hrest).symm.trans (h' _ [] hrest))

/-- **Two readers read alike**: from texts that agree they take all, with one result. -/
def Alike {α : Type} (read read' : Cursor → α × Cursor) (marks : List Use) : Prop :=
  ∀ out out', Agree marks out out' →
    ∃ result, ReadsBack read out result ∧ ReadsBack read' out' result

theorem Alike.nothing {α : Type} (result : α) :
    Alike (fun cursor => (result, cursor)) (fun cursor => (result, cursor)) [] := by
  intro out out' h
  obtain rfl : out = [] := List.length_eq_zero_iff.1 h.length_eq
  obtain rfl : out' = [] := List.length_eq_zero_iff.1 h.length_eq'
  exact ⟨result, .nothing _, .nothing _⟩

/-- Readers that run one after the other read alike if each of them does. -/
theorem Alike.bind {α β : Type} {read read' : Cursor → α × Cursor} (h : Alike read read' marks)
    (next next' : α → Cursor → β × Cursor) (hnext : ∀ a, Alike (next a) (next' a) marks') :
    Alike (fun cursor => next (read cursor).1 (read cursor).2)
      (fun cursor => next' (read' cursor).1 (read' cursor).2) (marks ++ marks') := by
  intro out out' hagree
  obtain ⟨first, second, first', second', rfl, rfl, hfirst, hsecond⟩ := hagree.exists_append
  obtain ⟨a, hread, hread'⟩ := h first first' hfirst
  obtain ⟨b, hreads, hreads'⟩ := hnext a second second' hsecond
  exact ⟨b, hread.bind next hreads, hread'.bind next' hreads'⟩

theorem Alike.map {α β : Type} {read read' : Cursor → α × Cursor} (h : Alike read read' marks)
    (f : α → β) :
    Alike (fun cursor => (f (read cursor).1, (read cursor).2))
      (fun cursor => (f (read' cursor).1, (read' cursor).2)) marks := by
  intro out out' hagree
  obtain ⟨a, hread, hread'⟩ := h out out' hagree
  exact ⟨f a, hread.map f, hread'.map f⟩

theorem readsBack_window {layout : Layout} (h : out.length = layout.width) :
    ReadsBack (·.takeValue layout) out (some (layout.decode out)) := by
  intro cursor suffix hrest
  have htake := Cursor.take_eq hrest
  rw [h] at htake ⊢
  simp only [Cursor.takeValue, htake, Option.map_some]

/-- A field is read from its own characters. -/
theorem alike_takeValue (layout : Layout) :
    Alike (·.takeValue layout) (·.takeValue layout) (List.replicate layout.width .value) := by
  intro out out' h
  obtain rfl := h.eq_of_replicate
  have hlen := h.length_eq
  rw [List.length_replicate] at hlen
  exact ⟨_, readsBack_window hlen, readsBack_window hlen⟩

/-- Filler is passed over. -/
theorem alike_skip {α : Type} (result : α) (width : Nat) :
    Alike (fun cursor => (result, (cursor.skip width).2))
      (fun cursor => (result, (cursor.skip width).2)) (List.replicate width .filler) := by
  intro out out' h
  have hlen := h.length_eq
  have hlen' := h.length_eq'
  rw [List.length_replicate] at hlen hlen'
  exact ⟨result, readsBack_skip result hlen, readsBack_skip result hlen'⟩

/-- **A loop reads one item after the other**, as many as it is told to. -/
structure Repeats {α : Type} (loop : Nat → Cursor → List Value × Cursor)
    (read : Cursor → α × Cursor) (f : α → Value) : Prop where
  zero : ∀ cursor, loop 0 cursor = ([], cursor)
  succ : ∀ count cursor, loop (count + 1) cursor =
    (f (read cursor).1 :: (loop count (read cursor).2).1, (loop count (read cursor).2).2)

theorem repeats_takeExactly (layout : Layout) :
    Repeats (takeExactly layout) (·.takeValue layout)
      fun text => .text (String.ofList (text.getD [])) :=
  ⟨fun _ => rfl, fun _ _ => rfl⟩

theorem repeats_decodeExactly (decodeItem : Cursor → Record × Cursor) :
    Repeats (decodeExactly decodeItem) decodeItem .record :=
  ⟨fun _ => rfl, fun _ _ => rfl⟩

/-- Loops read alike if their items do. -/
theorem Repeats.alike {α : Type} {loop loop' : Nat → Cursor → List Value × Cursor}
    {read read' : Cursor → α × Cursor} {f : α → Value} (h : Repeats loop read f)
    (h' : Repeats loop' read' f) (hitem : Alike read read' marks) (count : Nat) :
    Alike (loop count) (loop' count) (List.replicate count marks).flatten := by
  induction count with
  | zero =>
    rw [funext h.zero, funext h'.zero]
    exact .nothing []
  | succ count ih =>
    rw [funext (h.succ count), funext (h'.succ count), List.replicate_succ, List.flatten_cons]
    exact hitem.bind (fun item cursor => (f item :: (loop count cursor).1, (loop count cursor).2))
      (fun item cursor => (f item :: (loop' count cursor).1, (loop' count cursor).2))
      fun item => ih.map (f item :: ·)

/-! ## Steps -/

variable {decodeRecord decodeRecord' : RecordDecoder} {used : Nat → List Use} {type : RecordType}
  {property : Property} {start start' : Nat}

/-- The property is rigid, and records of it are read alike. -/
def AlikeProperty (decodeRecord decodeRecord' : RecordDecoder) (used : Nat → List Use)
    (property : Property) : Prop :=
  property.Rigid ∧ ∀ target, property.kind.target? = some target →
    Alike (decodeRecord target) (decodeRecord' target) (used target)

theorem alike_decodeNested (h : AlikeProperty decodeRecord decodeRecord' used property)
    {target : Nat} (hk : property.kind = .nested target) (fields : Record) :
    Alike (decodeNested decodeRecord property start fields)
      (decodeNested decodeRecord' property start' fields) (propertyUses used property) := by
  obtain ⟨⟨hrec, -⟩, hread⟩ := h
  have hdecode (decode : RecordDecoder) (begin : Nat) :
      decodeNested decode property begin fields = fun cursor =>
        (fields.insert property.name (.record (decode target cursor).1),
          (decode target cursor).2) := by
    funext cursor
    simp [decodeNested, hk, hrec]
  rw [hdecode, hdecode, propertyUses, hk]
  simp only [hrec]
  exact (hread target (by rw [hk]; rfl)).map fun nested =>
    fields.insert property.name (.record nested)

/-- The items of a list with a fixed number of places are read alike. -/
theorem alike_decodeItems (h : AlikeProperty decodeRecord decodeRecord' used property)
    {item : ItemType} {repetition : Repetition} (hk : property.kind = .list item repetition) :
    Alike (decodeItems decodeRecord property.recursive start item repetition)
      (decodeItems decodeRecord' property.recursive start' item repetition)
      (propertyUses used property) := by
  obtain ⟨⟨hrec, hopen⟩, hread⟩ := h
  rw [hk] at hopen hread
  rw [propertyUses, hk, hrec]
  rcases item with target | _ | layout
  · cases repetition with
    | dynamic => cases hopen
    | fixed count =>
      exact (repeats_decodeExactly _).alike (repeats_decodeExactly _) (hread target rfl) count
  · cases repetition <;> exact .nothing _
  · cases repetition with
    | dynamic => cases hopen
    | fixed count =>
      exact (repeats_takeExactly layout).alike (repeats_takeExactly layout)
        (alike_takeValue layout) count

/-- A list with a fixed number of places is read alike. -/
theorem alike_decodeList (h : AlikeProperty decodeRecord decodeRecord' used property)
    {item : ItemType} {repetition : Repetition} (hk : property.kind = .list item repetition)
    (fields : Record) :
    Alike (decodeList decodeRecord property start fields)
      (decodeList decodeRecord' property start' fields) (propertyUses used property) := by
  have hdecode (decode : RecordDecoder) (begin : Nat) :
      decodeList decode property begin fields = fun cursor =>
        (fields.insert property.name (.list
          (decodeItems decode property.recursive begin item repetition cursor).1),
          (decodeItems decode property.recursive begin item repetition cursor).2) := by
    funext cursor
    simp only [decodeList, hk]
  rw [hdecode, hdecode]
  exact (alike_decodeItems h hk).map fun items => fields.insert property.name (.list items)

/-- A field is read alike, and sets its property. -/
theorem alike_field (index : Nat) (layout : Layout) (fields : Record) :
    Alike (fun cursor => decodeStep decodeRecord type start (fields, cursor) (.field index layout))
      (fun cursor => decodeStep decodeRecord' type start' (fields, cursor) (.field index layout))
      (List.replicate layout.width .value) := by
  have hdecode (decode : RecordDecoder) (begin : Nat) :
      (fun cursor => decodeStep decode type begin (fields, cursor) (.field index layout)) =
        fun cursor => (putValue fields ((cursor.takeValue layout).1.bind fun text =>
          (type.properties[index]?).map fun property =>
            (property.name, .text (String.ofList text))), (cursor.takeValue layout).2) := by
    funext cursor
    rw [decodeStep]
    rcases cursor.takeValue layout with ⟨_ | text, next⟩
    · rfl
    · cases type.properties[index]? <;> rfl
  rw [hdecode, hdecode]
  exact (alike_takeValue layout).map fun text => putValue fields (text.bind fun text =>
    (type.properties[index]?).map fun property => (property.name, .text (String.ofList text)))

/-- **A step is read alike** where its property is. -/
theorem alike_decodeStep (hm : WellMade type.properties type.steps) {step : Step}
    (hs : step ∈ type.steps)
    (h : ∀ property ∈ type.properties, AlikeProperty decodeRecord decodeRecord' used property)
    (fields : Record) :
    Alike (fun cursor => decodeStep decodeRecord type start (fields, cursor) step)
      (fun cursor => decodeStep decodeRecord' type start' (fields, cursor) step)
      (stepUses used type step) := by
  cases step with
  | field index layout => exact alike_field index layout fields
  | nested index =>
    obtain ⟨property, hp, huse⟩ := hm.exists_property hs rfl
    obtain ⟨target, hk⟩ := PropertyKind.eq_of_nested_mem_stepsAt huse
    simp only [decodeStep, stepUses, hp, Option.elim]
    exact alike_decodeNested (h property (List.mem_of_getElem? hp)) hk fields
  | list index =>
    obtain ⟨property, hp, huse⟩ := hm.exists_property hs rfl
    obtain ⟨item, repetition, hk⟩ := PropertyKind.eq_of_list_mem_stepsAt huse
    simp only [decodeStep, stepUses, hp, Option.elim]
    exact alike_decodeList (h property (List.mem_of_getElem? hp)) hk fields
  | constant _ width | padding width => exact alike_skip fields width
  | unresolved | cycle => exact .nothing fields

/-! ## Records -/

/-- The steps of a record are read alike, one after the other. -/
theorem alike_foldl (hm : WellMade type.properties type.steps)
    (h : ∀ property ∈ type.properties, AlikeProperty decodeRecord decodeRecord' used property)
    (rest : List Step) (hrest : rest ⊆ type.steps) (fields : Record) :
    Alike (fun cursor => rest.foldl (decodeStep decodeRecord type start) (fields, cursor))
      (fun cursor => rest.foldl (decodeStep decodeRecord' type start') (fields, cursor))
      (rest.flatMap (stepUses used type)) := by
  induction rest generalizing fields with
  | nil => exact .nothing fields
  | cons step rest ih =>
    rw [List.cons_subset] at hrest
    exact (alike_decodeStep hm hrest.1 h fields).bind
      (fun fields cursor => rest.foldl (decodeStep decodeRecord type start) (fields, cursor))
      (fun fields cursor => rest.foldl (decodeStep decodeRecord' type start') (fields, cursor))
      (ih hrest.2)

variable {table : TypeTable} {rank : Nat → Nat} {index : Nat}

/-- **Rigid types are read alike**, with any two amounts of fuel above the rank. The induction is on
the rank, which falls from a rigid type to the types of its properties. -/
theorem alike_of_rigid (hr : Ranked table.types rank)
    (hm : ∀ type ∈ table.types, WellMade type.properties type.steps) (n fuel fuel' : Nat)
    (found : table.types[index]? = some type) (hrigid : Rigid table.types index)
    (hn : rank index < n) (hfuel : n ≤ fuel) (hfuel' : n ≤ fuel') :
    Alike (decodeWith table fuel index) (decodeWith table fuel' index) (uses table index) := by
  induction n generalizing fuel fuel' index type with
  | zero => omega
  | succ n ih =>
    obtain ⟨fuel, rfl⟩ : ∃ k, fuel = k + 1 := ⟨fuel - 1, by omega⟩
    obtain ⟨fuel', rfl⟩ : ∃ k, fuel' = k + 1 := ⟨fuel' - 1, by omega⟩
    have hproperties : ∀ property ∈ type.properties, AlikeProperty (decodeWith table fuel)
        (decodeWith table fuel') (uses table) property := by
      intro property hp
      refine ⟨hrigid.of_mem found hp, fun target htarget => ?_⟩
      have hedge : Edge table.types index target := ⟨type, property, found, hp, htarget⟩
      have hrec := (hrigid.of_mem found hp).1
      have hrank := hr.rank_lt index target ⟨type, property, found, hp, hrec, htarget⟩
      have hlt := hr.target_lt index target hedge
      exact ih fuel fuel' (List.getElem?_eq_getElem hlt) (hrigid.of_edge hedge) (by omega)
        (by omega) (by omega)
    -- records read alike wherever they begin, so the one result is that of a record at the start
    have hsteps (start start' : Nat) :
        Alike
          (fun cursor =>
            type.steps.foldl (decodeStep (decodeWith table fuel) type start) ([], cursor))
          (fun cursor =>
            type.steps.foldl (decodeStep (decodeWith table fuel') type start') ([], cursor))
          (type.steps.flatMap (stepUses (uses table) type)) :=
      alike_foldl (hm type (List.mem_of_getElem? found)) hproperties type.steps
        (List.Subset.refl _) []
    intro out out' hagree
    rw [uses_eq hr found] at hagree
    obtain ⟨result, hread, hread'⟩ := hsteps 0 0 out out' hagree
    refine ⟨result, fun cursor suffix hrest => ?_, fun cursor suffix hrest => ?_⟩
    · obtain ⟨other, hother, hsame⟩ := hsteps cursor.position 0 out out' hagree
      rw [decodeWith, found, ← hsame.unique hread']
      exact hother cursor suffix hrest
    · obtain ⟨other, hsame, hother⟩ := hsteps 0 cursor.position out out' hagree
      rw [decodeWith, found, ← hsame.unique hread]
      exact hother cursor suffix hrest

/-- A text that is long enough begins with one of the length of the uses. -/
theorem decode_eq_of_agree (hr : Ranked table.types rank)
    (hm : ∀ type ∈ table.types, WellMade type.properties type.steps)
    (found : table.types[index]? = some type) (hrigid : Rigid table.types index)
    {text text' : List Char} (hlen : width table index ≤ text.length)
    (hlen' : width table index ≤ text'.length)
    (hsame : ∀ i : Nat, (uses table index)[i]? = some .value → text[i]? = text'[i]?) :
    decode table index text = decode table index text' := by
  have hagree : Agree (uses table index) (text.take (width table index))
      (text'.take (width table index)) := by
    refine ⟨?_, ?_, fun i hi => ?_⟩
    · rw [List.length_take_of_le hlen, length_uses]
    · rw [List.length_take_of_le hlen', length_uses]
    · have hlt := (List.getElem?_eq_some_iff.1 hi).1
      rw [length_uses] at hlt
      rw [List.getElem?_take_of_lt hlt, List.getElem?_take_of_lt hlt]
      exact hsame i hi
  have hrank := hr.rank_lt_length index (List.getElem?_eq_some_iff.1 found).1
  obtain ⟨result, hread, hread'⟩ := alike_of_rigid hr hm table.types.length
    (table.types.length * (text.length + 1) + 1) (table.types.length * (text'.length + 1) + 1)
    found hrigid hrank (by rw [Nat.mul_succ]; omega) (by rw [Nat.mul_succ]; omega) _ _ hagree
  rw [decode, decode, hread (.ofText text) _ (List.take_append_drop ..).symm,
    hread' (.ofText text') _ (List.take_append_drop ..).symm]

/-- **The positions of a step** come behind those of the steps before it. -/
theorem getElem?_uses (hr : Ranked table.types rank) (found : table.types[index]? = some type)
    {before after : List Step} {step : Step} (hsteps : type.steps = before ++ step :: after)
    {i : Nat} (hi : i < stepWidth (width table) type step) :
    (uses table index)[(before.map (stepWidth (width table) type)).sum + i]? =
      (stepUses (uses table) type step)[i]? := by
  have hbefore : (before.flatMap (stepUses (uses table) type)).length =
      (before.map (stepWidth (width table) type)).sum := by
    rw [List.length_flatMap]
    congr 1
    exact List.map_congr_left fun step _ => length_stepUses (length_uses table) type step
  rw [uses_eq hr found, stepsUses, hsteps, List.flatMap_append, List.flatMap_cons, ← hbefore,
    List.getElem?_append_right (Nat.le_add_right _ _), Nat.add_sub_cancel_left]
  exact List.getElem?_append_left (by rwa [length_stepUses (length_uses table)])

/-! ## The rule -/

/-- **Which characters a rigid type reads.** Its positions are as many as the type is wide; those of
a step come behind those of the steps before it, and are positions of values in fields and framed
texts, and filler in constants and padding. Texts that are long enough and agree at the positions of
values are read as one record: what stands behind the type never matters, nor does a character of a
constant or of padding. -/
theorem decode_depends_on_values (registry : Registry) (id : String) (index : Nat)
    (type : RecordType) (found : (compile registry id).types[index]? = some type)
    (hrigid : Rigid (compile registry id).types index) :
    (uses (compile registry id) index).length = width (compile registry id) index ∧
      (∀ before step after, type.steps = before ++ step :: after →
        ∀ i < stepWidth (width (compile registry id)) type step,
          (uses (compile registry id) index)[
              (before.map (stepWidth (width (compile registry id)) type)).sum + i]? =
            (stepUses (uses (compile registry id)) type step)[i]?) ∧
      (∀ text text' : List Char, width (compile registry id) index ≤ text.length →
        width (compile registry id) index ≤ text'.length →
        (∀ i : Nat, (uses (compile registry id) index)[i]? = some .value → text[i]? = text'[i]?) →
        decode (compile registry id) index text = decode (compile registry id) index text') ∧
      (∀ text behind : List Char, width (compile registry id) index ≤ text.length →
        decode (compile registry id) index (text ++ behind) =
          decode (compile registry id) index text) ∧
      ∀ (text : List Char) (i : Nat) (c : Char), width (compile registry id) index ≤ text.length →
        (uses (compile registry id) index)[i]? ≠ some .value →
        decode (compile registry id) index (text.set i c) =
          decode (compile registry id) index text := by
  have hrun := compiles_compile registry id
  obtain ⟨rank, hr⟩ := hrun.exists_ranked
  refine ⟨length_uses _ index,
    fun before step after hsteps i hi => getElem?_uses hr found hsteps hi,
    fun text text' hlen hlen' hsame =>
      decode_eq_of_agree hr hrun.wellMade found hrigid hlen hlen' hsame,
    fun text behind hlen => ?_, fun text i c hlen hother => ?_⟩
  · refine decode_eq_of_agree hr hrun.wellMade found hrigid
      (by rw [List.length_append]; omega) hlen fun i hi => ?_
    have hlt := (List.getElem?_eq_some_iff.1 hi).1
    rw [length_uses] at hlt
    exact List.getElem?_append_left (by omega)
  · refine decode_eq_of_agree hr hrun.wellMade found hrigid (by rwa [List.length_set]) hlen
      fun j hj => List.getElem?_set_ne ?_
    rintro rfl
    exact hother hj

/-- A ticket has a sign, a seat, and two stops with a mark behind each of them. -/
def ticketNode : Node :=
  { Node.ofTag "record" ⟨"tickets.xml", 1⟩ with
    id := some "Ticket"
    children := [
      { Node.ofTag "constant" ⟨"tickets.xml", 2⟩ with attributes := [("value", "T")] },
      { Node.ofTag "stringFormatterDecor" ⟨"tickets.xml", 3⟩ with
        attributes := [("length", "1")] },
      { Node.ofTag "fCSString" ⟨"tickets.xml", 4⟩ with attributes := [("dataName", "seat")] },
      { Node.ofTag "numericFormatterDecor" ⟨"tickets.xml", 5⟩ with
        attributes := [("length", "2")] },
      { Node.ofTag "fixedLength" ⟨"tickets.xml", 6⟩ with attributes := [("length", "1")] },
      { Node.ofTag "fCSList" ⟨"tickets.xml", 7⟩ with
        attributes := [("dataName", "stops"), ("times", "2")]
        children := [
          { Node.ofTag "record" ⟨"tickets.xml", 8⟩ with
            children := [
              { Node.ofTag "fCSString" ⟨"tickets.xml", 9⟩ with
                attributes := [("dataName", "town")] },
              { Node.ofTag "stringFormatterDecor" ⟨"tickets.xml", 10⟩ with
                attributes := [("length", "3")] },
              { Node.ofTag "fixedLength" ⟨"tickets.xml", 11⟩ with
                attributes := [("length", "1")] }] }] }] }

/-- The registry of a ticket alone. -/
def tickets : Registry := ⟨[ticketNode], ⟨[("Ticket", ⟨0, []⟩)], []⟩⟩

/-- The sign and the marks of a ticket do not matter. -/
theorem ticket_depends_on_values :
    Rigid (compile tickets "Ticket").types 0 ∧
      (uses (compile tickets "Ticket") 0).zip "T07 Ulm|Köl|".toList =
        [(.filler, 'T'), (.value, '0'), (.value, '7'), (.filler, ' '), (.value, 'U'), (.value, 'l'),
          (.value, 'm'), (.filler, '|'), (.value, 'K'), (.value, 'ö'), (.value, 'l'),
          (.filler, '|')] ∧
      decode (compile tickets "Ticket") 0 "X07-Ulm.Köl.more".toList =
        decode (compile tickets "Ticket") 0 "T07 Ulm|Köl|".toList ∧
      decode (compile tickets "Ticket") 0 "T07 Ulm|Köl|".toList =
        [("seat", .text "7"), ("stops", .list [.record [("town", .text "Ulm")],
          .record [("town", .text "Köl")]])] := by
  have hlt : 0 < (compile tickets "Ticket").types.length := by decide +kernel
  have hrigid : Rigid (compile tickets "Ticket").types 0 := rigid_of_forall (by decide +kernel) 0
  have huses : uses (compile tickets "Ticket") 0 = [.filler, .value, .value, .filler, .value,
      .value, .value, .filler, .value, .value, .value, .filler] := by decide +kernel
  have hwidth : width (compile tickets "Ticket") 0 = 12 := by decide +kernel
  refine ⟨hrigid, by decide +kernel, ?_, by decide +kernel⟩
  obtain ⟨-, -, hsame, -⟩ := decode_depends_on_values tickets "Ticket" 0 _
    (List.getElem?_eq_getElem hlt) hrigid
  refine hsame _ _ (by rw [hwidth]; decide) (by rw [hwidth]; decide) fun i hi => ?_
  rw [huses] at hi
  have hall : ∀ i < 12, ([.filler, .value, .value, .filler, .value, .value, .value, .filler, .value,
      .value, .value, .filler] : List Use)[i]? = some .value →
        "X07-Ulm.Köl.more".toList[i]? = "T07 Ulm|Köl|".toList[i]? := by decide
  exact hall i (List.getElem?_eq_some_iff.1 hi).1 hi

end FixedWidth.Codec
