import FixedWidth.Emit.Decoder
import FixedWidth.Proofs.SourceReaders

/-!
# Proofs/DecoderSource — the source of a routine that reads is read back

`DecodeStatement.reader` reads a statement off the lines of emitted source, whatever form it has,
and `DecodeRoutine.reader` reads a whole routine, with the variables that it binds and the struct
that it answers with. From the lines of a routine they find the routine
(`DecodeRoutine.complete?_lines`), as long as what it calls its fields and types are identifiers.
-/

namespace FixedWidth.Emit

open LineReader TextReader

namespace DecodeStatement

/-- Reads a comment. -/
def readComment : LineReader DecodeStatement :=
  line do
    phrase "// "
    return comment (← remainder)

/-- Reads the passing over literals and spaces. -/
def readSkip : LineReader DecodeStatement :=
  line do
    phrase "cursor.skip("
    let width ← numeral
    phrase ");"
    return skip width

/-- Reads what is stored in a field. -/
def readStored (field : String) : TextReader DecodeStatement := do
  let head ← name
  (do
    phrase "::decode_from(cursor);"
    return nested field head)
  <|> (do
    phrase ".take_value("
    let layout ← TextReader.layout
    phrase ").map(str::to_string);"
    if head = "cursor" then return takeField field layout else failure)
  <|> (do
    phrase "![String::new(); "
    let count ← numeral
    phrase "];"
    if head = "vec" then return emptyTexts field count else failure)

/-- Reads the storing in a field. -/
def readStore : LineReader DecodeStatement :=
  line do
    phrase "value."
    let field ← name
    phrase " = "
    readStored field

/-- Reads the reading of a boxed struct. -/
def readBoxed : LineReader DecodeStatement := do
  fixed "if cursor.position() > start && !cursor.is_at_end() \x7b"
  let (field, type) ← line do
    phrase "value."
    let field ← name
    phrase " = Some(Box::new("
    let type ← name
    phrase "::decode_from(cursor)));"
    return (field, type)
  fixed "\x7d"
  return boxed field type

/-- Reads a loop over texts to the end. -/
def readTexts : LineReader DecodeStatement := do
  let layout ← line do
    phrase "while let Some(item) = cursor.take_value("
    let layout ← TextReader.layout
    phrase ") \x7b"
    return layout
  let field ← line do
    phrase "value."
    let field ← name
    phrase ".push(item.to_string());"
    return field
  fixed "\x7d"
  return allTexts field layout

/-- Reads the body of a loop over structs to the end. -/
def readRecords (guarded : Bool) : LineReader DecodeStatement := do
  fixed "let before = cursor.position();"
  let type ← line do
    phrase "let item = "
    let type ← name
    phrase "::decode_from(cursor);"
    return type
  fixed "if cursor.position() == before \x7b"
  fixed "break;"
  fixed "\x7d"
  let field ← line do
    phrase "value."
    let field ← name
    phrase ".push(item);"
    return field
  fixed "\x7d"
  return allRecords field type guarded

/-- Reads what is pushed a number of times. -/
def readPushed (field : String) (count : Nat) : TextReader DecodeStatement := do
  let head ← name
  (do
    phrase "::decode_from(cursor));"
    return countedRecords field head count)
  <|> (do
    phrase ".take_value("
    let layout ← TextReader.layout
    phrase ").unwrap_or_default().to_string()"
    phrase ");"
    if head = "cursor" then return countedTexts field layout count else failure)

/-- The forms of the body of a loop over a number of items. -/
def itemForms (count : Nat) : List (String × LineReader DecodeStatement) :=
  [("if ", do
      fixed "if cursor.position() == start || cursor.is_at_end() \x7b"
      fixed "break;"
      fixed "\x7d"
      let (field, type) ← line do
        phrase "value."
        let field ← name
        phrase ".push("
        let type ← name
        phrase "::decode_from(cursor));"
        return (field, type)
      return firstRecords field type count),
    ("value.", line do
      phrase "value."
      let field ← name
      phrase ".push("
      readPushed field count)]

/-- Reads a loop over a number of items. -/
def readCounted : LineReader DecodeStatement := do
  let count ← line do
    phrase "for _ in 0.."
    let count ← numeral
    phrase " \x7b"
    return count
  let statement ← choose (itemForms count)
  fixed "\x7d"
  return statement

/-- The forms of statements by how they begin. -/
def forms : List (String × LineReader DecodeStatement) :=
  [("// ", readComment),
    ("let start", do
      fixed "let start = cursor.position();"
      return bindStart),
    ("let mut", do
      fixed "let mut value = Self::default();"
      return bindValue true),
    ("let value", do
      fixed "let value = Self::default();"
      return bindValue false),
    ("cursor.skip(", readSkip), ("value.", readStore),
    ("if ", readBoxed),
    ("while let Some(item) = cursor.take_value(", readTexts),
    ("while cursor", do
      fixed "while cursor.position() > start && !cursor.is_at_end() \x7b"
      readRecords true),
    ("while !", do
      fixed "while !cursor.is_at_end() \x7b"
      readRecords false),
    ("for _ in 0..", readCounted)]

/-- Reads a statement. -/
def reader : LineReader DecodeStatement := choose forms

/-- The identifiers in a statement. -/
def names : DecodeStatement → List String
  | comment _ | bindStart | bindValue _ | skip _ => []
  | takeField field _ | emptyTexts field _ | allTexts field _ | countedTexts field _ _ => [field]
  | nested field type | boxed field type | allRecords field type _ | firstRecords field type _
  | countedRecords field type _ => [field, type]

theorem apart_itemForms (count : Nat) : ((itemForms count).map Prod.fst).Pairwise Apart := by
  simp [itemForms, Apart]

theorem apart_forms : (forms.map Prod.fst).Pairwise Apart := by
  simp [forms, Apart]

/-! ## Calls and types

A call of the cursor and a call of a type both begin with an identifier, and so does an empty list.
The sign behind the identifier tells them apart. -/

theorem isName_cursor : IsName "cursor" := .plain ⟨by simp, by simp; decide⟩

theorem isName_vec : IsName "vec" := .plain ⟨by simp, by simp; decide⟩

theorem run_readStored_call (field : String) (layout : Layout) (rest : List Char) :
    (readStored field).run ("cursor".toList ++ (".take_value(".toList ++
      (layout.expression.toList ++ (").map(str::to_string);".toList ++ rest)))) =
        some (takeField field layout, rest) := by
  have hcursor := isName_cursor
  simp (disch := first | exact id (by simp [Ends, Apart, signs]) | assumption)
    [readStored, -String.reduceToList]

theorem run_readStored_empty (field : String) (count : Nat) (rest : List Char) :
    (readStored field).run ("vec".toList ++ ("![String::new(); ".toList ++
      (Nat.toDigits 10 count ++ ("];".toList ++ rest)))) = some (emptyTexts field count, rest) := by
  have hvec := isName_vec
  simp (disch := first | exact id (by simp [Ends, Apart, signs]) | assumption)
    [readStored, -String.reduceToList]

theorem run_readStored_type (field : String) {type : String} (htype : IsName type)
    (rest : List Char) :
    (readStored field).run (type.toList ++ ("::decode_from(cursor);".toList ++ rest)) =
      some (nested field type, rest) := by
  simp (disch := first | exact id (by simp [Ends, signs]) | assumption)
    [readStored, -String.reduceToList]

theorem run_readPushed_call (field : String) (layout : Layout) (count : Nat)
    (rest : List Char) :
    (readPushed field count).run ("cursor".toList ++ (".take_value(".toList ++
      (layout.expression.toList ++ (").unwrap_or_default().to_string()".toList ++
        (");".toList ++ rest))))) =
          some (countedTexts field layout count, rest) := by
  have hcursor := isName_cursor
  simp (disch := first | exact id (by simp [Ends, Apart, signs]) | assumption)
    [readPushed, -String.reduceToList]

theorem run_readPushed_type (field : String) {type : String} (htype : IsName type) (count : Nat)
    (rest : List Char) :
    (readPushed field count).run (type.toList ++ ("::decode_from(cursor));".toList ++ rest)) =
      some (countedRecords field type count, rest) := by
  simp (disch := first | exact id (by simp [Ends, signs]) | assumption)
    [readPushed, -String.reduceToList]

/-! ## Statements -/

theorem run_itemForms_first {field type : String} (hfield : IsName field) (htype : IsName type)
    (count : Nat) (rest : List Line) :
    (choose (itemForms count)).run
        (⟨3, "if cursor.position() == start || cursor.is_at_end() \x7b"⟩ :: ⟨4, "break;"⟩ ::
          ⟨3, "\x7d"⟩ :: ⟨3, s!"value.{field}.push({type}::decode_from(cursor));"⟩ :: rest) =
      some (firstRecords field type count, rest) := by
  rw [run_choose (apart_itemForms count) (i := 0) rfl (by simp)]
  simp (disch := first | exact id (by simp [Ends, Apart, signs]) | assumption)
    [-String.reduceToList]

theorem run_itemForms_type {field type : String} (hfield : IsName field) (htype : IsName type)
    (count : Nat) (rest : List Line) :
    (choose (itemForms count)).run
        (⟨3, s!"value.{field}.push({type}::decode_from(cursor));"⟩ :: rest) =
      some (countedRecords field type count, rest) := by
  have hpushed := run_readPushed_type field htype count []
  rw [List.append_nil] at hpushed
  rw [run_choose (apart_itemForms count) (i := 1) rfl (by simp [-String.reduceToList])]
  simp (disch := first | exact id (by simp [Ends, signs]) | assumption)
    [hpushed, -String.reduceToList]

theorem run_itemForms_call {field : String} (hfield : IsName field) (layout : Layout) (count : Nat)
    (rest : List Line) :
    let item := s!"cursor.take_value({layout.expression}).unwrap_or_default().to_string()"
    (choose (itemForms count)).run (⟨3, s!"value.{field}.push({item});"⟩ :: rest) =
      some (countedTexts field layout count, rest) := by
  intro item
  have hcall : "cursor.take_value(".toList = "cursor".toList ++ ".take_value(".toList := by
    simp
  have hpushed := run_readPushed_call field layout count []
  rw [List.append_nil] at hpushed
  rw [run_choose (apart_itemForms count) (i := 1) rfl (by simp [-String.reduceToList])]
  simp (disch := first | exact id (by simp [Ends, Apart, signs]) | assumption)
    [item, hcall, hpushed, -String.reduceToList]

/-- The lines of a loop over structs to the end, without the first. -/
theorem run_readRecords {field type : String} (hfield : IsName field) (htype : IsName type)
    (guarded : Bool) (rest : List Line) :
    (readRecords guarded).run (⟨3, "let before = cursor.position();"⟩ ::
        ⟨3, s!"let item = {type}::decode_from(cursor);"⟩ ::
        ⟨3, "if cursor.position() == before \x7b"⟩ :: ⟨4, "break;"⟩ :: ⟨3, "\x7d"⟩ ::
        ⟨3, s!"value.{field}.push(item);"⟩ :: ⟨2, "\x7d"⟩ :: rest) =
      some (allRecords field type guarded, rest) := by
  simp (disch := first | exact id (by simp [Ends, Apart, signs]) | assumption)
    [readRecords, -String.reduceToList]

/-- **A statement is read back**, with the lines behind it left. -/
theorem run_reader {statement : DecodeStatement} (h : ∀ name ∈ statement.names, IsName name)
    (rest : List Line) : reader.run (statement.lines ++ rest) = some (statement, rest) := by
  rw [reader]
  cases statement with
  | comment text =>
    rw [lines, Line.comment, List.cons_append,
      run_choose apart_forms (i := 0) rfl (by simp [-String.reduceToList])]
    simp [readComment, -String.reduceToList]
  | bindStart =>
    rw [lines, List.cons_append, run_choose apart_forms (i := 1) rfl (by simp)]
    simp
  | bindValue mutable =>
    cases mutable with
    | true =>
      have hlines : lines (bindValue true) = [⟨2, "let mut value = Self::default();"⟩] := rfl
      rw [hlines, List.cons_append, run_choose apart_forms (i := 2) rfl (by simp)]
      simp
    | false =>
      have hlines : lines (bindValue false) = [⟨2, "let value = Self::default();"⟩] := rfl
      rw [hlines, List.cons_append, run_choose apart_forms (i := 3) rfl (by simp)]
      simp
  | takeField field layout =>
    have hfield := h field List.mem_cons_self
    have hcall : " = cursor.take_value(".toList =
        " = ".toList ++ ("cursor".toList ++ ".take_value(".toList) := by simp
    have hstored := run_readStored_call field layout []
    rw [List.append_nil] at hstored
    rw [lines, List.cons_append,
      run_choose apart_forms (i := 5) rfl (by simp [-String.reduceToList])]
    simp (disch := first | exact id (by simp [Ends, Apart, signs]) | assumption)
      [readStore, hcall, hstored, -String.reduceToList]
  | skip width =>
    rw [lines, List.cons_append,
      run_choose apart_forms (i := 4) rfl (by simp [-String.reduceToList])]
    simp (disch := first | exact id (by simp [Ends, Apart, signs]) | assumption)
      [readSkip, -String.reduceToList]
  | nested field type =>
    have hfield := h field List.mem_cons_self
    have htype := h type (by simp [names])
    have hstored := run_readStored_type field htype []
    rw [List.append_nil] at hstored
    rw [lines, List.cons_append,
      run_choose apart_forms (i := 5) rfl (by simp [-String.reduceToList])]
    simp (disch := first | exact id (by simp [Ends, signs]) | assumption)
      [readStore, hstored, -String.reduceToList]
  | boxed field type =>
    have hfield := h field List.mem_cons_self
    have htype := h type (by simp [names])
    have hlines : lines (boxed field type) =
        [⟨2, "if cursor.position() > start && !cursor.is_at_end() \x7b"⟩,
          ⟨3, s!"value.{field} = Some(Box::new({type}::decode_from(cursor)));"⟩,
          ⟨2, "\x7d"⟩] := rfl
    rw [hlines, List.cons_append, run_choose apart_forms (i := 6) rfl (by simp)]
    simp (disch := first | exact id (by simp [Ends, Apart, signs]) | assumption)
      [readBoxed, -String.reduceToList]
  | emptyTexts field count =>
    have hfield := h field List.mem_cons_self
    have hempty : " = vec![String::new(); ".toList =
        " = ".toList ++ ("vec".toList ++ "![String::new(); ".toList) := by simp
    have hstored := run_readStored_empty field count []
    rw [List.append_nil] at hstored
    rw [lines, List.cons_append,
      run_choose apart_forms (i := 5) rfl (by simp [-String.reduceToList])]
    simp (disch := first | exact id (by simp [Ends, Apart, signs]) | assumption)
      [readStore, hempty, hstored, -String.reduceToList]
  | allTexts field layout =>
    have hfield := h field List.mem_cons_self
    rw [lines, List.cons_append,
      run_choose apart_forms (i := 7) rfl (by simp [-String.reduceToList])]
    simp (disch := first | exact id (by simp [Ends, Apart, signs]) | assumption)
      [readTexts, -String.reduceToList]
  | countedTexts field layout count =>
    have hfield := h field List.mem_cons_self
    rw [lines, List.cons_append,
      run_choose apart_forms (i := 10) rfl (by simp [-String.reduceToList])]
    simp (disch := first | exact id (by simp [Ends, Apart, signs]) | assumption)
      [readCounted, run_itemForms_call hfield, -String.reduceToList]
  | allRecords field type guarded =>
    have hfield := h field List.mem_cons_self
    have htype := h type (by simp [names])
    cases guarded with
    | true =>
      have hline : toString "while " ++ toString progressCondition ++ toString " \x7b" =
          "while cursor.position() > start && !cursor.is_at_end() \x7b" := rfl
      rw [lines, if_pos rfl, hline, List.cons_append,
        run_choose apart_forms (i := 8) rfl (by simp)]
      simp [run_readRecords hfield htype, -String.reduceToList]
    | false =>
      have hline : toString "while " ++ toString "!cursor.is_at_end()" ++ toString " \x7b" =
          "while !cursor.is_at_end() \x7b" := rfl
      rw [lines, if_neg Bool.false_ne_true, hline, List.cons_append,
        run_choose apart_forms (i := 9) rfl (by simp)]
      simp [run_readRecords hfield htype, -String.reduceToList]
  | firstRecords field type count =>
    have hfield := h field List.mem_cons_self
    have htype := h type (by simp [names])
    rw [lines, List.cons_append,
      run_choose apart_forms (i := 10) rfl (by simp [-String.reduceToList])]
    simp (disch := first | exact id (by simp [Ends, Apart, signs]) | assumption)
      [readCounted, run_itemForms_first hfield htype, -String.reduceToList]
  | countedRecords field type count =>
    have hfield := h field List.mem_cons_self
    have htype := h type (by simp [names])
    rw [lines, List.cons_append,
      run_choose apart_forms (i := 10) rfl (by simp [-String.reduceToList])]
    simp (disch := first | exact id (by simp [Ends, Apart, signs]) | assumption)
      [readCounted, run_itemForms_type hfield htype, -String.reduceToList]

/-- No statement begins like the line of a result. -/
theorem run_reader_result (result : DecodeResult) (rest : List Line) :
    reader.run (result.line :: rest) = none := by
  cases result <;> exact run_choose_eq_none (by simp [forms]) _ rest

theorem lines_ne_nil (statement : DecodeStatement) : statement.lines ≠ [] := by
  cases statement <;> simp [lines]

end DecodeStatement

namespace DecodeResult

/-- The forms of the struct at the end. -/
def forms : List (String × LineReader DecodeResult) :=
  [("value", do
      fixed "value"
      return value),
    ("Self::default()", do
      fixed "Self::default()"
      return default)]

/-- Reads the struct at the end. -/
def reader : LineReader DecodeResult := choose forms

theorem apart_forms : (forms.map Prod.fst).Pairwise Apart := by
  simp [forms, Apart]

theorem run_reader (result : DecodeResult) (rest : List Line) :
    reader.run (result.line :: rest) = some (result, rest) := by
  cases result with
  | value =>
    rw [reader, line, run_choose apart_forms (i := 0) rfl List.prefix_rfl]
    simp
  | default =>
    rw [reader, line, run_choose apart_forms (i := 1) rfl List.prefix_rfl]
    simp

end DecodeResult

namespace DecodeRoutine

/-- Reads a routine. -/
def reader : LineReader DecodeRoutine := do
  let type ← line do
    phrase "impl HostDecode for "
    let type ← name
    phrase " \x7b"
    return type
  let parameter ← line do
    phrase "fn decode_from("
    let parameter ← name
    phrase ": &mut DecodeCursor<'_>) -> Self \x7b"
    return parameter
  let statements ← many DecodeStatement.reader
  let result ← DecodeResult.reader
  fixed "\x7d"
  fixed "\x7d"
  fixed ""
  return ⟨type, parameter, statements, result⟩

/-- **A routine is read back from its lines.** -/
theorem complete?_lines {routine : DecodeRoutine} (htype : IsName routine.type)
    (hparameter : IsName routine.parameter)
    (hnames : ∀ statement ∈ routine.statements, ∀ name ∈ statement.names, IsName name) :
    complete? reader routine.lines = some routine := by
  obtain ⟨type, parameter, statements, result⟩ := routine
  have hmany := run_many_flatMap
    (DecodeStatement.run_reader_result result [⟨1, "\x7d"⟩, ⟨0, "\x7d"⟩, ⟨0, ""⟩])
    statements (fun statement _ => statement.lines_ne_nil)
    (fun statement hmem => DecodeStatement.run_reader (hnames statement hmem))
  refine complete?_eq_some ?_
  simp (disch := first | exact id (by simp [Ends, Apart, signs]) | assumption)
    [reader, lines, Line.blank, hmany, DecodeResult.run_reader, -String.reduceToList]

end DecodeRoutine

end FixedWidth.Emit
