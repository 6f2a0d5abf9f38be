import FixedWidth.Proofs.EmittedLines
import FixedWidth.Proofs.StructValues
import FixedWidth.Wire.Cursor

/-!
# Proofs/EmittedDecoder — what emitted routines read

A routine that reads binds its variables by statements of its own. Each variable is bound before it
is used, and the struct is bound as mutable where a statement changes it
(`DecodeRoutine.closed_ofType`): the steps tell whether a statement uses the cursor
(`DecodeStatement.cursor_mem_uses_iff`) and whether it changes the struct
(`DecodeStatement.value_mem_changes_iff`). `Runs` carries a routine out as its lines say, from one
cursor to another: each statement has an effect on the variables, and loops push one item after the
other. There is one way to do so (`Runs.unique`).
-/

namespace FixedWidth.Emit

open Table (ItemType Property PropertyKind RecordType Repetition Step TypeTable WellMade)
open Wire (Cursor)

/-! ## Variables -/

/-- The variables in scope, each with whether it may change. -/
abbrev Variables := List (String × Bool)

variable {type : RecordType} {property : Property} {step : Step}

namespace DecodeStatement

/-- The variables that a statement uses. -/
def uses : DecodeStatement → List String
  | comment _ | bindValue _ => []
  | bindStart | skip _ => ["cursor"]
  | emptyTexts .. => ["value"]
  | takeField .. | nested .. | allTexts .. | countedTexts .. | countedRecords .. =>
    ["cursor", "value"]
  | boxed .. | firstRecords .. => ["cursor", "start", "value"]
  | allRecords _ _ guarded =>
    if guarded then ["cursor", "start", "value"] else ["cursor", "value"]

/-- The variables that a statement changes. -/
def changes : DecodeStatement → List String
  | comment _ | bindStart | bindValue _ | skip _ => []
  | _ => ["value"]

/-- The variables that a statement binds. -/
def binds : DecodeStatement → Variables
  | bindStart => [("start", false)]
  | bindValue mutable => [("value", mutable)]
  | _ => []

theorem uses_subset (statement : DecodeStatement) :
    statement.uses ⊆ ["cursor", "start", "value"] := by
  cases statement with
  | allRecords _ _ guarded => cases guarded <;> simp [uses]
  | _ => simp [uses]

theorem changes_subset (statement : DecodeStatement) : statement.changes ⊆ ["value"] := by
  cases statement <;> simp [changes]

section Steps

variable {identify : Nat → String} {names : List String} {statement : DecodeStatement}

/-- **A statement uses the cursor if its step touches the wire**, and only then. -/
theorem cursor_mem_uses_iff (h : ofStep? identify type names step = some statement) :
    "cursor" ∈ statement.uses ↔ touchesWire type step = true := by
  cases step with
  | field | constant | padding | unresolved | cycle =>
    cases h
    simp [uses, touchesWire]
  | nested i =>
    obtain ⟨property, target, -, rfl⟩ := exists_of_ofStep?_nested h
    split <;> simp [uses, touchesWire]
  | list i =>
    obtain ⟨property, item, repetition, hp, hk, rfl⟩ := exists_of_ofStep?_list h
    rw [touchesWire_list_iff hp hk]
    rcases item with target | _ | layout <;> cases repetition <;> simp only [ofList]
    case record.dynamic => cases property.recursive <;> simp [uses]
    case record.fixed => split <;> simp [uses]
    all_goals simp [uses]

/-- **A statement changes the struct if its step assigns to it**, and only then. -/
theorem value_mem_changes_iff (h : ofStep? identify type names step = some statement) :
    "value" ∈ statement.changes ↔ assignsValue type step = true := by
  cases step with
  | field | constant | padding | unresolved | cycle =>
    cases h
    simp [changes, assignsValue]
  | nested i =>
    obtain ⟨property, target, -, rfl⟩ := exists_of_ofStep?_nested h
    split <;> simp [changes, assignsValue]
  | list i =>
    obtain ⟨property, item, repetition, hp, hk, rfl⟩ := exists_of_ofStep?_list h
    rw [assignsValue_list_iff hp hk]
    rcases item with target | _ | layout <;> cases repetition <;> simp only [ofList]
    case record.fixed => split <;> simp [changes]
    all_goals simp [changes]

/-- **Only statements of recursive properties ask for the start.** -/
theorem exists_recursive (h : ofStep? identify type names step = some statement)
    (hstart : "start" ∈ statement.uses) :
    ∃ property ∈ type.properties, property.recursive = true := by
  cases step with
  | field | constant | padding | unresolved | cycle =>
    cases h
    simp [uses] at hstart
  | nested i =>
    obtain ⟨property, target, hp, rfl⟩ := exists_of_ofStep?_nested h
    refine ⟨property, List.mem_of_getElem? hp, ?_⟩
    by_contra hrec
    simp [hrec, uses] at hstart
  | list i =>
    obtain ⟨property, item, repetition, hp, hk, rfl⟩ := exists_of_ofStep?_list h
    refine ⟨property, List.mem_of_getElem? hp, ?_⟩
    by_contra hrec
    rcases item with target | _ | layout <;> cases repetition <;>
      simp [ofList, hrec, uses] at hstart

/-- **A recursive property that leads to a type asks for the start.** -/
theorem exists_start_mem_uses (hm : WellMade type.properties type.steps)
    (hp : property ∈ type.properties) (hrec : property.recursive = true) {target : Nat}
    (htarget : property.kind.target? = some target) (identify : Nat → String)
    (names : List String) :
    ∃ step ∈ type.steps, ∃ statement, ofStep? identify type names step = some statement ∧
      "start" ∈ statement.uses := by
  obtain ⟨i, hi, ⟨hk, hstep⟩ | ⟨repetition, hk, hstep⟩⟩ := exists_step_of_target hm hp htarget
  · exact ⟨_, hstep, _, ofStep?_nested identify names hi hk, by simp [hrec, uses]⟩
  · refine ⟨_, hstep, _, ofStep?_list identify names hi hk, ?_⟩
    cases repetition <;> simp [ofList, hrec, uses]

/-- The statements of steps bind nothing. -/
theorem binds_eq_nil (h : ofStep? identify type names step = some statement) :
    statement.binds = [] := by
  cases step with
  | field | constant | padding | unresolved | cycle =>
    cases h
    rfl
  | nested i =>
    obtain ⟨property, target, -, rfl⟩ := exists_of_ofStep?_nested h
    split <;> rfl
  | list i =>
    obtain ⟨property, item, repetition, -, -, rfl⟩ := exists_of_ofStep?_list h
    rcases item with target | _ | layout <;> cases repetition <;> simp only [ofList]
    case record.fixed => split <;> rfl
    all_goals rfl

end Steps

end DecodeStatement

/-- The variables that a result uses. -/
def DecodeResult.uses : DecodeResult → List String
  | value => ["value"]
  | default => []

/-- **Statements are scoped**: each uses variables that are bound before it and changes those that
may change, and at the end the variables of the result are bound. -/
def Scoped (result : DecodeResult) : Variables → List DecodeStatement → Prop
  | scope, [] => ∀ name ∈ result.uses, (scope.lookup name).isSome = true
  | scope, statement :: rest =>
    (∀ name ∈ statement.uses, (scope.lookup name).isSome = true) ∧
    (∀ name ∈ statement.changes, scope.lookup name = some true) ∧
    Scoped result (statement.binds ++ scope) rest

/-- The statements of the steps are scoped where the struct is bound, the cursor if a step touches
the wire, and the start if a property is recursive. -/
theorem scoped_steps (identify : Nat → String) (names : List String) (scope : Variables)
    (hvalue : scope.lookup "value" = some (type.steps.any (assignsValue type)))
    (hcursor : type.steps.any (touchesWire type) = true → (scope.lookup "cursor").isSome = true)
    (hstart : type.properties.any (·.recursive) = true → (scope.lookup "start").isSome = true)
    (steps : List Step) (hsteps : steps ⊆ type.steps) :
    Scoped .value scope (steps.filterMap (DecodeStatement.ofStep? identify type names)) := by
  induction steps with
  | nil =>
    intro name hname
    rw [List.mem_singleton.1 hname, hvalue, Option.isSome_some]
  | cons step rest ih =>
    rw [List.cons_subset] at hsteps
    cases h : DecodeStatement.ofStep? identify type names step with
    | none =>
      rw [List.filterMap_cons_none h]
      exact ih hsteps.2
    | some statement =>
      rw [List.filterMap_cons_some h, Scoped, DecodeStatement.binds_eq_nil h, List.nil_append]
      refine ⟨fun name hname => ?_, fun name hname => ?_, ih hsteps.2⟩
      · obtain rfl | rfl | rfl : name = "cursor" ∨ name = "start" ∨ name = "value" := by
          simpa using statement.uses_subset hname
        · exact hcursor (List.any_eq_true.2
            ⟨step, hsteps.1, (DecodeStatement.cursor_mem_uses_iff h).1 hname⟩)
        · exact hstart (List.any_eq_true.2 (DecodeStatement.exists_recursive h hname))
        · rw [hvalue, Option.isSome_some]
      · obtain rfl := List.mem_singleton.1 (statement.changes_subset hname)
        rw [hvalue, List.any_eq_true.2
          ⟨step, hsteps.1, (DecodeStatement.value_mem_changes_iff h).1 hname⟩]

namespace DecodeRoutine

/-- **Every variable that the routine uses is bound in it before**, and as mutable if it changes. -/
def Closed (routine : DecodeRoutine) : Prop :=
  Scoped routine.result [(routine.parameter, false)] routine.statements

theorem type_ofType (identify : Nat → String) (identifier : String) (type : RecordType) :
    (ofType identify identifier type).type = identifier := by
  simp only [ofType]
  split <;> rfl

/-- **The routine of a type is closed.** -/
theorem closed_ofType (hm : WellMade type.properties type.steps)
    (hfits : ∀ property ∈ type.properties, property.recursive = true →
      ∃ target, property.kind.target? = some target)
    (identify : Nat → String) (identifier : String) :
    (ofType identify identifier type).Closed := by
  have hsteps := @scoped_steps type identify (fieldIdentifiers (type.properties.map (·.name)))
  rw [Closed]
  simp only [ofType]
  split
  · simp [Scoped, DecodeResult.uses]
  · cases hstart : type.properties.any (·.recursive) with
    | true =>
      obtain ⟨property, hp, hrec⟩ := List.any_eq_true.1 hstart
      obtain ⟨target, htarget⟩ := hfits property hp hrec
      have htouches := any_touchesWire_of_target hm hp htarget
      have hscoped := hsteps [("value", type.steps.any (assignsValue type)), ("start", false),
        ("cursor", false)] rfl (fun _ => rfl) (fun _ => rfl) type.steps (List.Subset.refl _)
      simpa [DecodeStatement.bindings, hstart, htouches, Scoped, DecodeStatement.uses,
        DecodeStatement.changes, DecodeStatement.binds] using hscoped
    | false =>
      have hscoped := hsteps [("value", type.steps.any (assignsValue type)),
        (if type.steps.any (touchesWire type) then "cursor" else "_cursor", false)] rfl
        (fun htouches => by rw [if_pos htouches]; rfl) (fun h => by simp [hstart] at h)
        type.steps (List.Subset.refl _)
      simpa [DecodeStatement.bindings, hstart, Scoped, DecodeStatement.uses,
        DecodeStatement.changes, DecodeStatement.binds] using hscoped

theorem parameter_eq_iff (identify : Nat → String) (identifier : String) (type : RecordType) :
    (ofType identify identifier type).parameter = "cursor" ↔
      type.steps.any (touchesWire type) = true := by
  simp only [ofType]
  split <;> split <;> simp [*]

/-- The statements of a routine bind its variables or belong to steps. -/
theorem mem_statements_iff {identify : Nat → String} {identifier : String}
    {statement : DecodeStatement} : statement ∈ (ofType identify identifier type).statements ↔
      type.steps ≠ [] ∧ (statement ∈ DecodeStatement.bindings type ∨ ∃ step ∈ type.steps,
        DecodeStatement.ofStep? identify type (fieldIdentifiers (type.properties.map (·.name)))
          step = some statement) := by
  simp only [ofType]
  split
  · simp [List.isEmpty_iff.1 ‹_›]
  · rename_i hne
    rw [List.isEmpty_iff] at hne
    simp [hne]

/-- **A cursor goes by its plain name where it is used**, and only there. -/
theorem parameter_eq_iff_exists_uses (hm : WellMade type.properties type.steps)
    (hfits : ∀ property ∈ type.properties, property.recursive = true →
      ∃ target, property.kind.target? = some target)
    (identify : Nat → String) (identifier : String) :
    (ofType identify identifier type).parameter = "cursor" ↔
      ∃ statement ∈ (ofType identify identifier type).statements,
        "cursor" ∈ statement.uses := by
  rw [parameter_eq_iff]
  constructor
  · intro htouches
    obtain ⟨step, hstep, htouches⟩ := List.any_eq_true.1 htouches
    obtain ⟨statement, hstatement⟩ := DecodeStatement.exists_ofStep? hm hstep identify
      (fieldIdentifiers (type.properties.map (·.name)))
    exact ⟨statement, mem_statements_iff.2
      ⟨List.ne_nil_of_mem hstep, Or.inr ⟨step, hstep, hstatement⟩⟩,
      (DecodeStatement.cursor_mem_uses_iff hstatement).2 htouches⟩
  · rintro ⟨statement, hmem, huses⟩
    obtain ⟨-, hbinding | ⟨step, hstep, hstatement⟩⟩ := mem_statements_iff.1 hmem
    · obtain ⟨rfl, hrecursive⟩ | rfl := DecodeStatement.mem_bindings_iff.1 hbinding
      · obtain ⟨property, hp, hrec⟩ := List.any_eq_true.1 hrecursive
        obtain ⟨target, htarget⟩ := hfits property hp hrec
        exact any_touchesWire_of_target hm hp htarget
      · cases huses
    · exact List.any_eq_true.2
        ⟨step, hstep, (DecodeStatement.cursor_mem_uses_iff hstatement).1 huses⟩

/-- **The start is bound where it is used**, and only there. -/
theorem bindStart_mem_iff_exists_uses (hm : WellMade type.properties type.steps)
    (hfits : ∀ property ∈ type.properties, property.recursive = true →
      ∃ target, property.kind.target? = some target)
    (identify : Nat → String) (identifier : String) :
    .bindStart ∈ (ofType identify identifier type).statements ↔
      ∃ statement ∈ (ofType identify identifier type).statements,
        "start" ∈ statement.uses := by
  constructor
  · intro hmem
    obtain ⟨hne, hbinding | ⟨step, -, hstatement⟩⟩ := mem_statements_iff.1 hmem
    · have hrecursive : type.properties.any (·.recursive) = true := by
        simpa using DecodeStatement.mem_bindings_iff.1 hbinding
      obtain ⟨property, hp, hrec⟩ := List.any_eq_true.1 hrecursive
      obtain ⟨target, htarget⟩ := hfits property hp hrec
      obtain ⟨step, hstep, statement, hstatement, huses⟩ :=
        DecodeStatement.exists_start_mem_uses hm hp hrec htarget identify
          (fieldIdentifiers (type.properties.map (·.name)))
      exact ⟨statement, mem_statements_iff.2 ⟨hne, Or.inr ⟨step, hstep, hstatement⟩⟩, huses⟩
    · cases DecodeStatement.binds_eq_nil hstatement
  · rintro ⟨statement, hmem, huses⟩
    obtain ⟨hne, hbinding | ⟨step, hstep, hstatement⟩⟩ := mem_statements_iff.1 hmem
    · obtain ⟨rfl, -⟩ | rfl := DecodeStatement.mem_bindings_iff.1 hbinding
      · simp [DecodeStatement.uses] at huses
      · cases huses
    · obtain ⟨property, hp, hrec⟩ := DecodeStatement.exists_recursive hstatement huses
      exact mem_statements_iff.2 ⟨hne, Or.inl (DecodeStatement.mem_bindings_iff.2
        (Or.inl ⟨rfl, List.any_eq_true.2 ⟨property, hp, hrec⟩⟩))⟩

/-- **A struct is bound as mutable where it changes**, and only there. -/
theorem bindValue_mem_iff_exists_changes (hm : WellMade type.properties type.steps)
    (identify : Nat → String) (identifier : String) :
    .bindValue true ∈ (ofType identify identifier type).statements ↔
      ∃ statement ∈ (ofType identify identifier type).statements,
        "value" ∈ statement.changes := by
  constructor
  · intro hmem
    obtain ⟨hne, hbinding | ⟨step, -, hstatement⟩⟩ := mem_statements_iff.1 hmem
    · have hassigns : type.steps.any (assignsValue type) = true := by
        simpa using DecodeStatement.mem_bindings_iff.1 hbinding
      obtain ⟨step, hstep, hassigns⟩ := List.any_eq_true.1 hassigns
      obtain ⟨statement, hstatement⟩ := DecodeStatement.exists_ofStep? hm hstep identify
        (fieldIdentifiers (type.properties.map (·.name)))
      exact ⟨statement, mem_statements_iff.2 ⟨hne, Or.inr ⟨step, hstep, hstatement⟩⟩,
        (DecodeStatement.value_mem_changes_iff hstatement).2 hassigns⟩
    · cases DecodeStatement.binds_eq_nil hstatement
  · rintro ⟨statement, hmem, hchanges⟩
    obtain ⟨hne, hbinding | ⟨step, hstep, hstatement⟩⟩ := mem_statements_iff.1 hmem
    · obtain ⟨rfl, -⟩ | rfl := DecodeStatement.mem_bindings_iff.1 hbinding
      · cases hchanges
      · cases hchanges
    · refine mem_statements_iff.2 ⟨hne, Or.inl (DecodeStatement.mem_bindings_iff.2 (Or.inr ?_))⟩
      rw [List.any_eq_true.2
        ⟨step, hstep, (DecodeStatement.value_mem_changes_iff hstatement).1 hchanges⟩]

end DecodeRoutine

/-! ## Jobs -/

/-- What the variables of a routine hold. -/
structure Locals where
  /-- Where the struct starts, once this is remembered. -/
  start : Option Nat
  /-- The struct, once it is bound. -/
  value : Option Datum
  deriving Repr

namespace Locals

/-- A field of the struct. -/
def get? (locals : Locals) (field : String) : Option Datum :=
  locals.value.bind fun value => value.get? field

/-- The variables with another value in a field of the struct. -/
def set (locals : Locals) (field : String) (datum : Datum) : Locals :=
  { locals with value := locals.value.map fun value => value.set field datum }

end Locals

/-- When a loop over structs ends. -/
inductive RecordLoop where
  /-- At the end of the text, or at a struct that reads nothing; a guarded loop also where nothing
  was read since the start. -/
  | all (guard : Option Nat)
  /-- After a number of structs, at the end of the text, or where nothing was read since the
  start. -/
  | first (start count : Nat)
  /-- After a number of structs. -/
  | counted (count : Nat)
  deriving DecidableEq, Repr

namespace RecordLoop

/-- Whether the loop goes on at a cursor. -/
def goes (cursor : Cursor) : RecordLoop → Bool
  | all none => !cursor.isAtEnd
  | all (some start) => start < cursor.position && !cursor.isAtEnd
  | first _ 0 | counted 0 => false
  | first start (_ + 1) => !(cursor.position == start || cursor.isAtEnd)
  | counted (_ + 1) => true

/-- Whether the loop ends at a struct that reads nothing. -/
def endsIdle : RecordLoop → Bool
  | all _ => true
  | first .. | counted _ => false

/-- The loop behind one of its structs. -/
def next : RecordLoop → RecordLoop
  | all guard => all guard
  | first start count => first start (count - 1)
  | counted count => counted (count - 1)

end RecordLoop

/-- What a routine has still to do. -/
inductive DecodeJob where
  /-- The routine of a struct. -/
  | struct (type : String)
  /-- The statements that remain, and then the result, where a new struct is `initial`. -/
  | body (initial : Datum) (locals : Locals) (rest : List DecodeStatement) (result : DecodeResult)
  /-- A loop over texts, behind those that were pushed. -/
  | texts (layout : Layout) (items : List String)
  /-- A loop over structs, behind those that were pushed. -/
  | records (type : String) (loop : RecordLoop) (items : List Datum)

/-- What a statement does. -/
inductive Effect where
  /-- It leaves these variables, and the cursor there. -/
  | put (locals : Locals) (next : Cursor)
  /-- It does a job and stores the result. -/
  | run (job : DecodeJob) (store : Datum → Locals)

/-- Pushes a number of texts; those behind the end are empty. -/
def pushTexts (layout : Layout) : (count : Nat) → List String → Cursor → List String × Cursor
  | 0, items, cursor => (items, cursor)
  | count + 1, items, cursor =>
    let (text, next) := cursor.takeValue layout
    pushTexts layout count (items ++ [(text.map String.ofList).getD ""]) next

/-- The effect of a statement, if the variables that it uses are bound and the struct has such a
field. -/
def DecodeStatement.effect? (initial : Datum) (locals : Locals) (cursor : Cursor) :
    DecodeStatement → Option Effect
  | bindStart => some (.put { locals with start := some cursor.position } cursor)
  | bindValue _ => some (.put { locals with value := some initial } cursor)
  | takeField field layout =>
    let (text, next) := cursor.takeValue layout
    (locals.get? field).map fun _ => .put (locals.set field (.text (text.map String.ofList))) next
  | skip width => some (.put locals (cursor.skip width).2)
  | nested field type => (locals.get? field).map fun _ => .run (.struct type) (locals.set field)
  | boxed field type => locals.start.bind fun start => (locals.get? field).map fun _ =>
    if start < cursor.position && !cursor.isAtEnd then
      .run (.struct type) fun inner => locals.set field (.boxed inner)
    else .put locals cursor
  | emptyTexts field count => (locals.get? field).map fun _ =>
    .put (locals.set field (.texts (List.replicate count ""))) cursor
  | allTexts field layout =>
    match locals.get? field with
    | some (.texts items) => some (.run (.texts layout items) (locals.set field))
    | _ => none
  | countedTexts field layout count =>
    match locals.get? field with
    | some (.texts items) =>
      let (items, next) := pushTexts layout count items cursor
      some (.put (locals.set field (.texts items)) next)
    | _ => none
  | allRecords field type guarded =>
    if guarded then locals.start.bind fun start => loop field type (.all (some start))
    else loop field type (.all none)
  | firstRecords field type count =>
    locals.start.bind fun start => loop field type (.first start count)
  | countedRecords field type count => loop field type (.counted count)
  | comment _ => some (.put locals cursor)
where
  loop (field type : String) (loop : RecordLoop) : Option Effect :=
    match locals.get? field with
    | some (.records items) => some (.run (.records type loop items) (locals.set field))
    | _ => none

/-- The struct at the end, if it is bound. -/
def DecodeResult.datum? (initial : Datum) (locals : Locals) : DecodeResult → Option Datum
  | value => locals.value
  | default => some initial

/-- **A job is done** from one cursor to another, with this result. A struct is read by the routine
that the lines of its artifact say. -/
inductive Runs (program : Program) : DecodeJob → Cursor → Datum → Cursor → Prop
  | struct {type : String} {emitted : EmittedType} {routine : DecodeRoutine}
      {initial result : Datum} {cursor last : Cursor}
      (found : program.find? type = some emitted) (read : emitted.decodeRoutine? = some routine)
      (owner : routine.type = type) (closed : routine.Closed)
      (default : IsDefault program (.record type) initial)
      (body : Runs program (.body initial ⟨none, none⟩ routine.statements routine.result) cursor
        result last) :
    Runs program (.struct type) cursor result last
  | done {initial datum : Datum} {locals : Locals} {result : DecodeResult} {cursor : Cursor}
      (answer : result.datum? initial locals = some datum) :
    Runs program (.body initial locals [] result) cursor datum cursor
  | put {initial datum : Datum} {locals locals' : Locals} {statement : DecodeStatement}
      {rest : List DecodeStatement} {result : DecodeResult} {cursor next last : Cursor}
      (effect : statement.effect? initial locals cursor = some (.put locals' next))
      (tail : Runs program (.body initial locals' rest result) next datum last) :
    Runs program (.body initial locals (statement :: rest) result) cursor datum last
  | run {initial inner datum : Datum} {locals : Locals} {statement : DecodeStatement}
      {rest : List DecodeStatement} {result : DecodeResult} {job : DecodeJob}
      {store : Datum → Locals} {cursor next last : Cursor}
      (effect : statement.effect? initial locals cursor = some (.run job store))
      (done : Runs program job cursor inner next)
      (tail : Runs program (.body initial (store inner) rest result) next datum last) :
    Runs program (.body initial locals (statement :: rest) result) cursor datum last
  | textsEnd {layout : Layout} {items : List String} {cursor next : Cursor}
      (ended : cursor.takeValue layout = (none, next)) :
    Runs program (.texts layout items) cursor (.texts items) next
  | text {layout : Layout} {items : List String} {content : List Char} {result : Datum}
      {cursor next last : Cursor} (taken : cursor.takeValue layout = (some content, next))
      (tail : Runs program (.texts layout (items ++ [String.ofList content])) next result last) :
    Runs program (.texts layout items) cursor result last
  | recordsEnd {type : String} {loop : RecordLoop} {items : List Datum} {cursor : Cursor}
      (ended : loop.goes cursor = false) :
    Runs program (.records type loop items) cursor (.records items) cursor
  | idle {type : String} {loop : RecordLoop} {items : List Datum} {item : Datum}
      {cursor next : Cursor} (goes : loop.goes cursor = true) (ends : loop.endsIdle = true)
      (read : Runs program (.struct type) cursor item next)
      (still : next.position = cursor.position) :
    Runs program (.records type loop items) cursor (.records items) next
  | record {type : String} {loop : RecordLoop} {items : List Datum} {item result : Datum}
      {cursor next last : Cursor} (goes : loop.goes cursor = true)
      (read : Runs program (.struct type) cursor item next)
      (moved : loop.endsIdle = true → next.position ≠ cursor.position)
      (tail : Runs program (.records type loop.next (items ++ [item])) next result last) :
    Runs program (.records type loop items) cursor result last

variable {program : Program} {job : DecodeJob} {cursor next last last' : Cursor}
  {result result' : Datum}

/-- **A job is done in one way.** -/
theorem Runs.unique (h : Runs program job cursor result last)
    (h' : Runs program job cursor result' last') : result = result' ∧ last = last' := by
  induction h generalizing result' last' with
  | struct found read _ _ default _ ih =>
    cases h' with
    | struct found' read' _ _ default' body =>
      cases found.symm.trans found'
      cases read.symm.trans read'
      cases default.unique default'
      exact ih body
  | done answer =>
    cases h' with
    | done answer' =>
      cases answer.symm.trans answer'
      exact ⟨rfl, rfl⟩
  | put effect _ ih =>
    cases h' with
    | put effect' tail =>
      cases effect.symm.trans effect'
      exact ih tail
    | run effect' => cases effect.symm.trans effect'
  | run effect _ _ ihDone ih =>
    cases h' with
    | put effect' => cases effect.symm.trans effect'
    | run effect' done tail =>
      cases effect.symm.trans effect'
      obtain ⟨rfl, rfl⟩ := ihDone done
      exact ih tail
  | textsEnd ended =>
    cases h' with
    | textsEnd ended' =>
      cases ended.symm.trans ended'
      exact ⟨rfl, rfl⟩
    | text taken => cases ended.symm.trans taken
  | text taken _ ih =>
    cases h' with
    | textsEnd ended => cases taken.symm.trans ended
    | text taken' tail =>
      cases taken.symm.trans taken'
      exact ih tail
  | recordsEnd ended =>
    cases h' with
    | recordsEnd => exact ⟨rfl, rfl⟩
    | idle goes | record goes => cases ended.symm.trans goes
  | idle goes ends _ still ihRead =>
    cases h' with
    | recordsEnd ended => cases goes.symm.trans ended
    | idle _ _ read =>
      obtain ⟨-, rfl⟩ := ihRead read
      exact ⟨rfl, rfl⟩
    | record _ read moved =>
      obtain ⟨-, rfl⟩ := ihRead read
      exact absurd still (moved ends)
  | record goes _ moved _ ihRead ih =>
    cases h' with
    | recordsEnd ended => cases goes.symm.trans ended
    | idle _ ends read still =>
      obtain ⟨-, rfl⟩ := ihRead read
      exact absurd still (moved ends)
    | record _ read _ tail =>
      obtain ⟨rfl, rfl⟩ := ihRead read
      exact ih tail

end FixedWidth.Emit
