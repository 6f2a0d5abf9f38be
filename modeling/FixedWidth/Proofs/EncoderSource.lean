import FixedWidth.Emit.Encoder
import FixedWidth.Proofs.SourceReaders

/-!
# Proofs/EncoderSource — the source of a routine that writes is read back

`EncodeStatement.reader` reads a statement off the lines of emitted source, whatever form it has,
and `EncodeRoutine.reader` reads a whole routine. From the lines of a routine they find the routine
(`EncodeRoutine.complete?_lines`), as long as what it calls its fields and types are identifiers.
-/

namespace FixedWidth.Emit

open LineReader TextReader

namespace EncodeStatement

/-- Reads a comment. -/
def readComment : LineReader EncodeStatement :=
  line do
    phrase "// "
    return comment (← remainder)

/-- Reads the writing of a field. -/
def readPutField : LineReader EncodeStatement :=
  line do
    phrase "buffer.put_field("
    let layout ← TextReader.layout
    phrase ", self."
    let field ← name
    phrase ".as_deref().unwrap_or(\"\"));"
    return putField field layout

/-- Reads the writing of a literal. -/
def readPutConstant : LineReader EncodeStatement :=
  line do
    phrase "buffer.put_constant("
    let value ← literal
    phrase ", "
    let width ← numeral
    phrase ");"
    return putConstant value width

/-- Reads the writing of spaces. -/
def readPutPadding : LineReader EncodeStatement :=
  line do
    phrase "buffer.put_padding("
    let width ← numeral
    phrase ");"
    return putPadding width

/-- Reads the writing of a nested struct. -/
def readNested : LineReader EncodeStatement :=
  line do
    phrase "self."
    let field ← name
    phrase ".encode_into(buffer);"
    return nested field

/-- Reads the writing of a boxed struct. -/
def readBoxed : LineReader EncodeStatement := do
  let field ← line do
    phrase "if let Some(nested) = &self."
    let field ← name
    phrase " \x7b"
    return field
  fixed "nested.encode_into(buffer);"
  fixed "\x7d"
  return boxed field

/-- The forms of the body of a loop over all items of a list. -/
def itemForms (field : String) : List (String × LineReader EncodeStatement) :=
  [("item.encode_into(buffer);", do
      fixed "item.encode_into(buffer);"
      return allRecords field),
    ("buffer.put_field(", line do
      phrase "buffer.put_field("
      let layout ← TextReader.layout
      phrase ", item);"
      return allTexts field layout)]

/-- Reads a loop over all items of a list. -/
def readAll : LineReader EncodeStatement := do
  let field ← line do
    phrase "for item in &self."
    let field ← name
    phrase " \x7b"
    return field
  let statement ← choose (itemForms field)
  fixed "\x7d"
  return statement

/-- Reads a loop over the first items of a list. -/
def readFirst : LineReader EncodeStatement := do
  let (field, count) ← line do
    phrase "for item in self."
    let field ← name
    phrase ".iter().take("
    let count ← numeral
    phrase ") \x7b"
    return (field, count)
  fixed "item.encode_into(buffer);"
  fixed "\x7d"
  return firstRecords field count

/-- The forms of the body of a loop over a number of places. -/
def placeForms (count : Nat) : List (String × LineReader EncodeStatement) :=
  [("match self.", do
      let field ← line do
        phrase "match self."
        let field ← name
        phrase ".get(index) \x7b"
        return field
      fixed "Some(item) => item.encode_into(buffer),"
      let itemType ← line do
        phrase "None => "
        let itemType ← name
        phrase "::default().encode_into(buffer),"
        return itemType
      fixed "\x7d"
      return countedRecords field count itemType),
    ("buffer.put_field(", line do
      phrase "buffer.put_field("
      let layout ← TextReader.layout
      phrase ", "
      phrase "self."
      let field ← name
      phrase ".get(index).map_or(\"\", String::as_str)"
      phrase ");"
      return countedTexts field layout count)]

/-- Reads a loop over a number of places. -/
def readCounted : LineReader EncodeStatement := do
  let count ← line do
    phrase "for index in 0.."
    let count ← numeral
    phrase " \x7b"
    return count
  let statement ← choose (placeForms count)
  fixed "\x7d"
  return statement

/-- The forms of statements by how they begin. -/
def forms : List (String × LineReader EncodeStatement) :=
  [("// ", readComment), ("buffer.put_field(", readPutField),
    ("buffer.put_constant(", readPutConstant), ("buffer.put_padding(", readPutPadding),
    ("self.", readNested), ("if let Some(nested) = &self.", readBoxed),
    ("for item in &self.", readAll), ("for item in self.", readFirst),
    ("for index in 0..", readCounted)]

/-- Reads a statement. -/
def reader : LineReader EncodeStatement := choose forms

/-- The identifiers in a statement. -/
def names : EncodeStatement → List String
  | comment _ | putConstant .. | putPadding _ => []
  | putField field _ | nested field | boxed field | allRecords field | firstRecords field _
  | allTexts field _ | countedTexts field _ _ => [field]
  | countedRecords field _ itemType => [field, itemType]

theorem apart_itemForms (field : String) : ((itemForms field).map Prod.fst).Pairwise Apart := by
  simp [itemForms, Apart]

theorem apart_placeForms (count : Nat) : ((placeForms count).map Prod.fst).Pairwise Apart := by
  simp [placeForms, Apart]

theorem apart_forms : (forms.map Prod.fst).Pairwise Apart := by
  simp [forms, Apart]

theorem run_itemForms_record (field : String) (rest : List Line) :
    (choose (itemForms field)).run (⟨3, "item.encode_into(buffer);"⟩ :: rest) =
      some (allRecords field, rest) := by
  rw [run_choose (apart_itemForms field) (i := 0) rfl List.prefix_rfl]
  simp

theorem run_itemForms_text (field : String) (layout : Layout) (rest : List Line) :
    (choose (itemForms field)).run
        (⟨3, s!"buffer.put_field({layout.expression}, item);"⟩ :: rest) =
      some (allTexts field layout, rest) := by
  rw [run_choose (apart_itemForms field) (i := 1) rfl (by simp [-String.reduceToList])]
  simp [-String.reduceToList]

theorem run_placeForms_record {field itemType : String} (hfield : IsName field)
    (htype : IsName itemType) (count : Nat) (rest : List Line) :
    (choose (placeForms count)).run (⟨3, s!"match self.{field}.get(index) \x7b"⟩ ::
        ⟨4, "Some(item) => item.encode_into(buffer),"⟩ ::
        ⟨4, s!"None => {itemType}::default().encode_into(buffer),"⟩ :: ⟨3, "\x7d"⟩ :: rest) =
      some (countedRecords field count itemType, rest) := by
  rw [run_choose (apart_placeForms count) (i := 0) rfl (by simp [-String.reduceToList])]
  simp (disch := first | exact id (by simp [Ends, signs]) | assumption)
    [-String.reduceToList]

theorem run_placeForms_text {field : String} (hfield : IsName field) (layout : Layout)
    (count : Nat) (rest : List Line) :
    let item := s!"self.{field}.get(index).map_or(\"\", String::as_str)"
    (choose (placeForms count)).run
        (⟨3, s!"buffer.put_field({layout.expression}, {item});"⟩ :: rest) =
      some (countedTexts field layout count, rest) := by
  intro item
  rw [run_choose (apart_placeForms count) (i := 1) rfl (by simp [-String.reduceToList])]
  simp (disch := first | exact id (by simp [Ends, signs]) | assumption)
    [item, -String.reduceToList]

/-- **A statement is read back**, with the lines behind it left. -/
theorem run_reader {statement : EncodeStatement} (h : ∀ name ∈ statement.names, IsName name)
    (rest : List Line) : reader.run (statement.lines ++ rest) = some (statement, rest) := by
  rw [reader]
  cases statement with
  | comment text =>
    rw [lines, Line.comment, List.cons_append,
      run_choose apart_forms (i := 0) rfl (by simp [-String.reduceToList])]
    simp [readComment, -String.reduceToList]
  | putField field layout =>
    have hfield := h field List.mem_cons_self
    rw [lines, List.cons_append,
      run_choose apart_forms (i := 1) rfl (by simp [-String.reduceToList])]
    simp (disch := first | exact id (by simp [Ends, signs]) | assumption)
      [readPutField, -String.reduceToList]
  | putConstant value width =>
    rw [lines, List.cons_append,
      run_choose apart_forms (i := 2) rfl (by simp [-String.reduceToList])]
    simp (disch := first | exact id (by simp [Ends, signs]) | assumption)
      [readPutConstant, -String.reduceToList]
  | putPadding width =>
    rw [lines, List.cons_append,
      run_choose apart_forms (i := 3) rfl (by simp [-String.reduceToList])]
    simp (disch := first | exact id (by simp [Ends, signs]) | assumption)
      [readPutPadding, -String.reduceToList]
  | nested field =>
    have hfield := h field List.mem_cons_self
    rw [lines, List.cons_append,
      run_choose apart_forms (i := 4) rfl (by simp [-String.reduceToList])]
    simp (disch := first | exact id (by simp [Ends, signs]) | assumption)
      [readNested, -String.reduceToList]
  | boxed field =>
    have hfield := h field List.mem_cons_self
    rw [lines, List.cons_append,
      run_choose apart_forms (i := 5) rfl (by simp [-String.reduceToList])]
    simp (disch := first | exact id (by simp [Ends, signs]) | assumption)
      [readBoxed, -String.reduceToList]
  | allRecords field =>
    have hfield := h field List.mem_cons_self
    rw [lines, List.cons_append,
      run_choose apart_forms (i := 6) rfl (by simp [-String.reduceToList])]
    simp (disch := first | exact id (by simp [Ends, signs]) | assumption)
      [readAll, run_itemForms_record, -String.reduceToList]
  | firstRecords field count =>
    have hfield := h field List.mem_cons_self
    rw [lines, List.cons_append,
      run_choose apart_forms (i := 7) rfl (by simp [-String.reduceToList])]
    simp (disch := first | exact id (by simp [Ends, signs]) | assumption)
      [readFirst, -String.reduceToList]
  | countedRecords field count itemType =>
    have hfield := h field List.mem_cons_self
    have htype := h itemType (by simp [names])
    rw [lines, List.cons_append,
      run_choose apart_forms (i := 8) rfl (by simp [-String.reduceToList])]
    simp (disch := first | exact id (by simp [Ends, signs]) | assumption)
      [readCounted, run_placeForms_record hfield htype, -String.reduceToList]
  | allTexts field layout =>
    have hfield := h field List.mem_cons_self
    rw [lines, List.cons_append,
      run_choose apart_forms (i := 6) rfl (by simp [-String.reduceToList])]
    simp (disch := first | exact id (by simp [Ends, signs]) | assumption)
      [readAll, run_itemForms_text, -String.reduceToList]
  | countedTexts field layout count =>
    have hfield := h field List.mem_cons_self
    rw [lines, List.cons_append,
      run_choose apart_forms (i := 8) rfl (by simp [-String.reduceToList])]
    simp (disch := first | exact id (by simp [Ends, signs]) | assumption)
      [readCounted, run_placeForms_text hfield, -String.reduceToList]

/-- No statement begins like the line at the end of a block. -/
theorem run_reader_eq_none (depth : Nat) (rest : List Line) :
    reader.run (⟨depth, "\x7d"⟩ :: rest) = none := by
  exact run_choose_eq_none (by simp [forms]) depth rest

theorem lines_ne_nil (statement : EncodeStatement) : statement.lines ≠ [] := by
  cases statement <;> simp [lines]

end EncodeStatement

namespace EncodeRoutine

/-- Reads what stands behind the first brace of the body. -/
def readBody (behind : String) : LineReader (Option (List EncodeStatement)) :=
  if behind = "\x7d" then return none
  else do
    let statements ← many EncodeStatement.reader
    fixed "\x7d"
    return some statements

/-- Reads the opening of the body, up to what stands behind its first brace. -/
def readOpening : TextReader (String × String) := do
  phrase "fn encode_into(&self, "
  let parameter ← name
  phrase ": &mut EncodeBuffer) \x7b"
  let behind ← remainder
  return (parameter, behind)

/-- Reads a routine. -/
def reader : LineReader EncodeRoutine := do
  let type ← line do
    phrase "impl HostEncode for "
    let type ← name
    phrase " \x7b"
    return type
  let (parameter, behind) ← line readOpening
  let body ← readBody behind
  fixed "\x7d"
  fixed ""
  return ⟨type, parameter, body⟩

theorem run_readOpening {parameter : String} (hparameter : IsName parameter) (behind : List Char) :
    readOpening.run ("fn encode_into(&self, ".toList ++ (parameter.toList ++
      (": &mut EncodeBuffer) \x7b".toList ++ behind))) =
        some ((parameter, String.ofList behind), []) := by
  simp (disch := first | exact id (by simp [Ends, signs]) | assumption)
    [readOpening, -String.reduceToList]

/-- **A routine is read back from its lines.** -/
theorem complete?_lines {routine : EncodeRoutine} (htype : IsName routine.type)
    (hparameter : IsName routine.parameter)
    (hnames : ∀ statement ∈ routine.statements, ∀ name ∈ statement.names, IsName name) :
    complete? reader routine.lines = some routine := by
  obtain ⟨type, parameter, body⟩ := routine
  have hopening := run_readOpening hparameter
  refine complete?_eq_some ?_
  cases body with
  | none =>
    simp (disch := first | exact id (by simp [Ends, signs]) | assumption)
      [reader, hopening, readBody, lines, Line.blank, -String.reduceToList]
  | some statements =>
    have hmany := run_many_flatMap (EncodeStatement.run_reader_eq_none 1 [⟨0, "\x7d"⟩, ⟨0, ""⟩])
      statements (fun statement _ => statement.lines_ne_nil)
      (fun statement hmem => EncodeStatement.run_reader (hnames statement hmem))
    have hopening := hopening []
    rw [List.append_nil] at hopening
    simp (disch := first | exact id (by simp [Ends, signs]) | assumption)
      [reader, hopening, readBody, lines, Line.blank, hmany, -String.reduceToList]

end EncodeRoutine

end FixedWidth.Emit
