import FixedWidth.Proofs.EmittedTypes
import Mathlib.Data.List.Forall2

/-!
# Proofs/Comments — schema text in the comments of emitted source

    reference `AB`      │        // unresolved reference 'AB'

    reference `A⏎B`     │        // unresolved reference 'A
                        │B'

Names, references, sources and lengths are written into comments as they are, so a comment is on
one line exactly if its text is (`Line.contained_iff`). The texts in question are `commentTexts`;
where none of them has a line feed, every comment is contained (`allContained_sourceLines`). Tables
that differ in those texts alone have sources that differ in comments alone (`alike_sourceLines`),
and contained comments are comment lines of the text (`alike_pieces`).
-/

namespace FixedWidth.Emit

open Table (Diagnostic ItemType Property PropertyKind RecordType Repetition Step TypeTable)

/-! ## Lines of a text -/

/-- The lines of a text. Each line feed ends one, and the last one has no end. -/
def textLines (text : String) : List (List Char) := text.toList.splitOn '\n'

/-- Whether a line is a comment behind its indentation. -/
def IsCommentLine (line : List Char) : Prop := ['/', '/'] <+: line.dropWhile (· == ' ')

/-- Whether a text has no line feed. -/
def OnOneLine (text : String) : Prop := '\n' ∉ text.toList

instance (line : List Char) : Decidable (IsCommentLine line) :=
  inferInstanceAs (Decidable (_ <+: _))

instance (text : String) : Decidable (OnOneLine text) :=
  inferInstanceAs (Decidable (¬ '\n' ∈ text.toList))

theorem onOneLine_append {text other : String} :
    OnOneLine (text ++ other) ↔ OnOneLine text ∧ OnOneLine other := by
  rw [OnOneLine, String.toList_append, List.mem_append, not_or]
  rfl

theorem onOneLine_between {before text after : String} (hbefore : OnOneLine before)
    (hafter : OnOneLine after) : OnOneLine (before ++ text ++ after) ↔ OnOneLine text := by
  rw [onOneLine_append, onOneLine_append, and_iff_left hafter, and_iff_right hbefore]

theorem onOneLine_numeral (n : Nat) : OnOneLine (toString n) := by
  rw [OnOneLine, Nat.toString_eq_ofList_toDigits, String.toList_ofList]
  exact fun hmem => absurd (Naming.isDigit_of_mem_toDigits hmem) (by decide)

theorem onOneLine_render (place : Schema.Provenance) :
    OnOneLine place.render ↔ OnOneLine place.source := by
  have hplace : place.render = place.source ++ " line " ++ toString place.line := by
    simp [Schema.Provenance.render, toString]
  rw [hplace, onOneLine_append, onOneLine_append, and_iff_left (onOneLine_numeral _),
    and_iff_left (by decide +kernel)]

namespace Line

variable {line : Line}

/-- Whether a line of source is a comment. -/
def IsComment (line : Line) : Prop := ['/', '/'] <+: line.text.toList

/-- The text of the line with its indentation. -/
def indented (line : Line) : List Char :=
  List.replicate (4 * line.depth) ' ' ++ line.text.toList

/-- The lines of the text that a line of source takes up. -/
def pieces (line : Line) : List (List Char) := line.indented.splitOn '\n'

/-- **A comment takes up one line of the text, and that line is a comment.** -/
def Contained (line : Line) : Prop :=
  line.IsComment → ∃ piece, line.pieces = [piece] ∧ IsCommentLine piece

theorem toList_render (line : Line) : line.render.toList = line.indented ++ ['\n'] := by
  simp [render, indented]

theorem isCommentLine_indented (h : line.IsComment) : IsCommentLine line.indented := by
  obtain ⟨rest, hrest⟩ := h
  rw [IsCommentLine, indented, List.dropWhile_append_of_pos (by simp), ← hrest]
  exact ⟨rest, rfl⟩

theorem onOneLine_text_iff (line : Line) : OnOneLine line.text ↔ '\n' ∉ line.indented := by
  simp [indented, OnOneLine]

theorem pieces_eq_singleton_iff {piece : List Char} :
    line.pieces = [piece] ↔ OnOneLine line.text ∧ piece = line.indented := by
  rw [onOneLine_text_iff]
  constructor
  · intro h
    by_cases hmem : '\n' ∈ line.indented
    · obtain ⟨before, after, heq⟩ := List.append_of_mem hmem
      rw [pieces, heq, List.splitOn_append_cons_self] at h
      have hlen := congrArg List.length h
      have hbefore := List.length_pos_iff.2 (List.splitOn_ne_nil '\n' before)
      have hafter := List.length_pos_iff.2 (List.splitOn_ne_nil '\n' after)
      rw [List.length_append, List.length_singleton] at hlen
      omega
    · rw [pieces, List.splitOn_eq_singleton hmem, List.singleton_inj] at h
      exact ⟨hmem, h.symm⟩
  · rintro ⟨hmem, rfl⟩
    exact List.splitOn_eq_singleton hmem

/-- **A comment is contained exactly if its text is on one line.** -/
theorem contained_iff : line.Contained ↔ (line.IsComment → OnOneLine line.text) := by
  refine forall_congr' fun hcomment => ?_
  simp only [pieces_eq_singleton_iff]
  constructor
  · rintro ⟨piece, ⟨hline, -⟩, -⟩
    exact hline
  · exact fun hline => ⟨_, ⟨hline, rfl⟩, isCommentLine_indented hcomment⟩

theorem contained_comment {depth : Nat} {text : String} :
    (comment depth text).Contained ↔ OnOneLine text := by
  rw [contained_iff]
  simp [comment, IsComment, OnOneLine]

end Line

/-- Lines of source take up their lines of the text one behind the other. -/
theorem textLines_render (lines : List Line) :
    textLines (render lines) = lines.flatMap Line.pieces ++ [[]] := by
  induction lines with
  | nil => rfl
  | cons line rest ih =>
    have htext : (render (line :: rest)).toList =
        line.indented ++ '\n' :: (render rest).toList := by
      simp [render, Line.toList_render]
    rw [textLines, htext, List.splitOn_append_cons_self, List.flatMap_cons, List.append_assoc, ← ih]
    rfl

/-! ## Contained comments -/

/-- Whether every comment among some lines is contained. -/
def AllContained (lines : List Line) : Prop := ∀ line ∈ lines, line.Contained

section AllContained

variable {lines others : List Line}

@[simp] theorem allContained_nil : AllContained [] := nofun

@[simp] theorem allContained_cons {line : Line} :
    AllContained (line :: lines) ↔ line.Contained ∧ AllContained lines :=
  List.forall_mem_cons

@[simp] theorem allContained_append :
    AllContained (lines ++ others) ↔ AllContained lines ∧ AllContained others :=
  List.forall_mem_append

theorem allContained_flatMap {α : Type} {items : List α} {f : α → List Line} :
    AllContained (items.flatMap f) ↔ ∀ item ∈ items, AllContained (f item) :=
  List.forall_mem_flatMap

theorem allContained_map {α : Type} {items : List α} {f : α → Line} :
    AllContained (items.map f) ↔ ∀ item ∈ items, (f item).Contained :=
  List.forall_mem_map

theorem contained_blank : Line.blank.Contained := Line.contained_iff.2 fun _ => by decide

end AllContained

/-- The texts that a step brings into comments. -/
def stepTexts (type : RecordType) : Step → List String
  | .list index =>
    match type.properties[index]? with
    | some ⟨name, .list (.text none) _, _, _⟩ => [name]
    | _ => []
  | .unresolved reference | .cycle reference => [reference]
  | _ => []

/-- The texts that the struct of a type has in comments. -/
def declarationTexts (options : Options) (type : RecordType) : List String :=
  type.name :: if options.sourceComments then
    type.place.source :: type.properties.map (·.place.source) else []

/-- The texts that a problem brings into comments. -/
def problemTexts : Diagnostic → List String
  | .rootNotFound id => [id]
  | .unresolvedReference text inType place | .referenceCycle text inType place
  | .invalidPadding text inType place => [place.source, text, inType]

/-- The texts that the source of a table has in comments. -/
def commentTexts (options : Options) (table : TypeTable) : List String :=
  table.diagnostics.flatMap problemTexts ++ table.types.flatMap fun type =>
    declarationTexts options type ++ type.steps.flatMap (stepTexts type)

section Routines

variable {options : Options} {identify : Nat → String} {type : RecordType} {fields : List String}
  {step : Step}

theorem allContained_sourceComment {depth : Nat} {place : Schema.Provenance} :
    AllContained (sourceComment options depth place) ↔
      (options.sourceComments = true → OnOneLine place.source) := by
  have hcomment : OnOneLine s!"Source: {place.render}" ↔ OnOneLine place.source := by
    rw [← onOneLine_render]
    exact onOneLine_append.trans (and_iff_right (by decide +kernel))
  rw [sourceComment]
  split <;> simp [Line.contained_comment, *]

theorem allContained_fieldLines {field : String} {property : Property} :
    AllContained (fieldLines options identify field property) ↔
      (options.sourceComments = true → OnOneLine property.place.source) := by
  rw [fieldLines, allContained_append, allContained_sourceComment]
  simp [Line.contained_iff, Line.IsComment, toString]

/-- **The comments of a struct are contained** exactly if its texts are on one line. -/
theorem allContained_structLines {identifier : String} :
    AllContained (structLines options identify identifier type) ↔
      ∀ text ∈ declarationTexts options type, OnOneLine text := by
  have hdoc : (⟨0, s!"/// {type.name} record."⟩ : Line).Contained ↔ OnOneLine type.name := by
    simp [Line.contained_iff, Line.IsComment, OnOneLine, toString]
  have hderive : (⟨0, s!"#[derive({options.deriveList})]"⟩ : Line).Contained := by
    simp [Line.contained_iff, Line.IsComment, toString]
  have hallow : (⟨0, "#[allow(non_snake_case)]"⟩ : Line).Contained :=
    Line.contained_iff.2 fun _ => by decide +kernel
  have hsnd : ((fieldIdentifiers (type.properties.map (·.name))).zip type.properties).map
      Prod.snd = type.properties := List.map_snd_zip (by simp [length_fieldIdentifiers])
  have hfields : (∀ field property, (field, property) ∈
      (fieldIdentifiers (type.properties.map (·.name))).zip type.properties →
        options.sourceComments = true → OnOneLine property.place.source) ↔
      ∀ property ∈ type.properties,
        options.sourceComments = true → OnOneLine property.place.source := by
    conv_rhs => rw [← hsnd]
    simp only [List.forall_mem_map, Prod.forall]
  simp only [structLines, declarationTexts, allContained_append, allContained_cons,
    allContained_nil, allContained_sourceComment, hdoc, hderive, hallow, contained_blank]
  by_cases hempty : type.properties = []
  · cases options.sourceComments <;>
      simp [hempty, Line.contained_iff, Line.IsComment, toString, and_comm]
  · simp only [List.isEmpty_iff, hempty, if_false, allContained_append, allContained_flatMap,
      Prod.forall, allContained_fieldLines, hfields]
    cases options.sourceComments <;>
      simp [Line.contained_iff, Line.IsComment, toString, and_assoc, and_left_comm]

/-- A statement brings a comment only if it is one. -/
theorem allContained_encodeStatement {statement : EncodeStatement} :
    AllContained statement.lines ↔ ∀ text, statement = .comment text → OnOneLine text := by
  cases statement with
  | comment text => simp [EncodeStatement.lines, Line.contained_comment]
  | _ => simp [EncodeStatement.lines, Line.contained_iff, Line.IsComment, toString]

theorem allContained_decodeStatement {statement : DecodeStatement} :
    AllContained statement.lines ↔ ∀ text, statement = .comment text → OnOneLine text := by
  cases statement with
  | comment text => simp [DecodeStatement.lines, Line.contained_comment]
  | bindValue mutable =>
    cases mutable <;> simp [DecodeStatement.lines, Line.contained_iff, Line.IsComment, toString]
  | _ =>
    simp [DecodeStatement.lines, DecodeStatement.progressCondition, Line.contained_iff,
      Line.IsComment, toString]

theorem onOneLine_withoutWidth (name : String) :
    OnOneLine s!"{name}: items without declared width" ↔ OnOneLine name :=
  onOneLine_append.trans (and_iff_left (by decide +kernel))

theorem onOneLine_unresolved (reference : String) :
    OnOneLine s!"unresolved reference '{reference}'" ↔ OnOneLine reference :=
  onOneLine_between (by decide +kernel) (by decide +kernel)

theorem onOneLine_cycle (reference : String) :
    OnOneLine s!"reference cycle through '{reference}'" ↔ OnOneLine reference :=
  onOneLine_between (by decide +kernel) (by decide +kernel)

/-- The statement that writes a step brings the texts of the step into comments. -/
theorem allContained_encodeStep :
    (∀ statement, EncodeStatement.ofStep? identify type fields step = some statement →
      AllContained statement.lines) ↔ ∀ text ∈ stepTexts type step, OnOneLine text := by
  simp only [allContained_encodeStatement]
  cases step with
  | field | constant | padding => simp [EncodeStatement.ofStep?, stepTexts]
  | nested index =>
    simp only [EncodeStatement.ofStep?, stepTexts]
    rcases type.properties[index]? with _ | ⟨_, _, _ | _, _⟩ <;> simp
  | list index =>
    simp only [EncodeStatement.ofStep?, stepTexts]
    rcases type.properties[index]? with _ | ⟨_, _ | _ | ⟨_ | _ | _, _ | _⟩, _ | _, _⟩ <;>
      simp [EncodeStatement.ofList, onOneLine_withoutWidth]
  | unresolved => simp [EncodeStatement.ofStep?, stepTexts, onOneLine_unresolved]
  | cycle => simp [EncodeStatement.ofStep?, stepTexts, onOneLine_cycle]

/-- The statement that reads a step has no other texts in comments. -/
theorem allContained_decodeStep (h : ∀ text ∈ stepTexts type step, OnOneLine text) :
    ∀ statement, DecodeStatement.ofStep? identify type fields step = some statement →
      AllContained statement.lines := by
  revert h
  simp only [allContained_decodeStatement]
  cases step with
  | field | constant | padding => simp [DecodeStatement.ofStep?]
  | nested index =>
    simp only [DecodeStatement.ofStep?, stepTexts]
    rcases type.properties[index]? with _ | ⟨_, _ | _ | _, _ | _, _⟩ <;> simp
  | list index =>
    simp only [DecodeStatement.ofStep?, stepTexts]
    rcases type.properties[index]? with _ | ⟨_, _ | _ | ⟨_ | _ | _, _ | _⟩, _ | _, _⟩ <;>
      simp [DecodeStatement.ofList, onOneLine_withoutWidth]
  | unresolved => simp [DecodeStatement.ofStep?, stepTexts, onOneLine_unresolved]
  | cycle => simp [DecodeStatement.ofStep?, stepTexts, onOneLine_cycle]

/-- **The comments of the routine that writes are contained** exactly if the texts of its steps are
on one line. -/
theorem allContained_encodeRoutine {identifier : String} :
    AllContained (EncodeRoutine.ofType identify identifier type).lines ↔
      ∀ text ∈ type.steps.flatMap (stepTexts type), OnOneLine text := by
  have hbody : AllContained ((type.steps.filterMap (EncodeStatement.ofStep? identify type
      (fieldIdentifiers (type.properties.map (·.name))))).flatMap (·.lines)) ↔
        ∀ text ∈ type.steps.flatMap (stepTexts type), OnOneLine text := by
    rw [allContained_flatMap, List.forall_mem_filterMap, List.forall_mem_flatMap]
    exact forall₂_congr fun _ _ => allContained_encodeStep
  rw [← hbody, EncodeRoutine.lines, EncodeRoutine.ofType]
  cases hsteps : type.steps <;> simp [Line.contained_iff, Line.IsComment, Line.blank, toString]

/-- The statements that bind variables are no comments. -/
theorem allContained_bindings :
    AllContained ((DecodeStatement.bindings type).flatMap (·.lines)) := by
  simp only [allContained_flatMap, allContained_decodeStatement]
  rintro statement hmem text rfl
  simp [DecodeStatement.bindings] at hmem

theorem allContained_decodeRoutine {identifier : String}
    (h : ∀ text ∈ type.steps.flatMap (stepTexts type), OnOneLine text) :
    AllContained (DecodeRoutine.ofType identify identifier type).lines := by
  have hbody : AllContained ((type.steps.filterMap (DecodeStatement.ofStep? identify type
      (fieldIdentifiers (type.properties.map (·.name))))).flatMap (·.lines)) := by
    rw [allContained_flatMap, List.forall_mem_filterMap]
    exact fun step hstep =>
      allContained_decodeStep fun text htext => h text (List.mem_flatMap.2 ⟨step, hstep, htext⟩)
  rw [DecodeRoutine.lines, DecodeRoutine.ofType]
  split
  · simp [Line.contained_iff, Line.IsComment, Line.blank, DecodeResult.line, toString]
  · simp [Line.contained_iff, Line.IsComment, Line.blank, DecodeResult.line, toString, hbody,
      allContained_bindings]

theorem allContained_warnings {table : TypeTable} : AllContained (warnings table) ↔
    ∀ text ∈ table.diagnostics.flatMap problemTexts, OnOneLine text := by
  have hwarning (problem : Diagnostic) :
      (Line.comment 0 s!"warning: {problem.message}").Contained ↔
        ∀ text ∈ problemTexts problem, OnOneLine text := by
    have hmarks : ∀ text ∈ ["warning: ", "root '", "' not found", ": unresolved reference '",
        "' in type '", "'", ": reference cycle through '", ": invalid padding length '"],
        OnOneLine text := by decide +kernel
    have htext (text : String) : toString text = text := rfl
    rw [Line.contained_comment]
    cases problem <;>
      simp_all [Diagnostic.message, problemTexts, onOneLine_append, onOneLine_render, and_assoc]
  rw [warnings, List.forall_mem_flatMap]
  split
  · simp_all
  · simp [allContained_map, hwarning, contained_blank]

theorem allContained_artifact {table : TypeTable} {types : TypeIdentifiers} :
    AllContained (Artifact.ofType options table types type).lines ↔
      ∀ text ∈ declarationTexts options type ++ type.steps.flatMap (stepTexts type),
        OnOneLine text := by
  simp only [Artifact.lines, Artifact.ofType, allContained_append, allContained_structLines,
    allContained_encodeRoutine, List.forall_mem_append]
  exact and_iff_left_of_imp fun h => allContained_decodeRoutine h.2

/-- **The comments of source are contained** exactly if the texts in them are on one line. -/
theorem allContained_sourceLines {table : TypeTable} :
    AllContained (sourceLines options table) ↔
      ∀ text ∈ commentTexts options table, OnOneLine text := by
  have hheader : AllContained [header, imports, .blank] := by
    have hgenerated : header.Contained := Line.contained_comment.2 (by decide +kernel)
    have himports : imports.Contained := Line.contained_iff.2 fun _ => by decide +kernel
    simp [hgenerated, himports, contained_blank]
  rw [sourceLines, commentTexts, allContained_append, allContained_append, List.forall_mem_append]
  refine and_congr ((and_iff_right hheader).trans allContained_warnings) ?_
  rw [artifactList, List.flatMap_map, allContained_flatMap, List.forall_mem_flatMap]
  exact forall₂_congr fun _ _ => allContained_artifact

end Routines

/-! ## Sources that differ in comments -/

/-- Two steps that are the same but for the text of a marker. -/
inductive SameStep : Step → Step → Prop where
  | refl (step : Step) : SameStep step step
  | unresolved (reference reference' : String) :
      SameStep (.unresolved reference) (.unresolved reference')
  | cycle (reference reference' : String) : SameStep (.cycle reference) (.cycle reference')

/-- Two properties that are the same but for their names and places. -/
structure SameProperty (property property' : Property) : Prop where
  kind : property.kind = property'.kind
  recursive : property.recursive = property'.recursive

/-- Two types that are the same but for texts, and give the same identifiers to their fields. -/
structure SameType (type type' : RecordType) : Prop where
  fields : fieldIdentifiers (type.properties.map (·.name)) =
    fieldIdentifiers (type'.properties.map (·.name))
  properties : List.Forall₂ SameProperty type.properties type'.properties
  steps : List.Forall₂ SameStep type.steps type'.steps

/-- **Two tables that are the same but for texts**, and give the same identifiers. -/
structure SameTable (table table' : TypeTable) : Prop where
  identifiers : ∀ index, identifierOf table index = identifierOf table' index
  types : List.Forall₂ SameType table.types table'.types
  diagnostics : table.diagnostics.length = table'.diagnostics.length

/-- Two lines of source that are the same or both comments. -/
def Line.Alike (line line' : Line) : Prop := line = line' ∨ line.IsComment ∧ line'.IsComment

/-- Two statements that are the same or both comments. -/
inductive EncodeStatement.Alike : EncodeStatement → EncodeStatement → Prop where
  | refl (statement : EncodeStatement) : Alike statement statement
  | comment (text text' : String) : Alike (.comment text) (.comment text')

/-- Two statements that are the same or both comments. -/
inductive DecodeStatement.Alike : DecodeStatement → DecodeStatement → Prop where
  | refl (statement : DecodeStatement) : Alike statement statement
  | comment (text text' : String) : Alike (.comment text) (.comment text')

section Alike

variable {options : Options} {identify : Nat → String} {identifier : String}
  {fields : List String} {type type' : RecordType} {step step' : Step}

theorem isEmpty_eq_of_forall₂ {α : Type} {R : α → α → Prop} {items items' : List α}
    (h : List.Forall₂ R items items') : items.isEmpty = items'.isEmpty := by
  cases h <;> rfl

theorem any_eq_of_forall₂ {α : Type} {R : α → α → Prop} {items items' : List α} {f g : α → Bool}
    (h : List.Forall₂ R items items') (hfg : ∀ item item', R item item' → f item = g item') :
    items.any f = items'.any g := by
  induction h with
  | nil => rfl
  | cons hitem _ ih => rw [List.any_cons, List.any_cons, hfg _ _ hitem, ih]

theorem alike_comment (depth : Nat) (text text' : String) :
    (Line.comment depth text).Alike (.comment depth text') := by
  refine .inr ⟨?_, ?_⟩ <;> simp [Line.IsComment, Line.comment]

theorem alike_refl (lines : List Line) : List.Forall₂ Line.Alike lines lines :=
  List.forall₂_same.2 fun _ _ => .inl rfl

theorem alike_sourceComment (depth : Nat) (place place' : Schema.Provenance) :
    List.Forall₂ Line.Alike (sourceComment options depth place)
      (sourceComment options depth place') := by
  rw [sourceComment, sourceComment]
  split
  · exact .cons (alike_comment _ _ _) .nil
  · exact .nil

theorem alike_fieldLines {field : String} {property property' : Property}
    (h : SameProperty property property') :
    List.Forall₂ Line.Alike (fieldLines options identify field property)
      (fieldLines options identify field property') := by
  have htype : fieldType identify property = fieldType identify property' := by
    rw [fieldType, fieldType, h.kind, h.recursive]
  rw [fieldLines, fieldLines, htype]
  exact List.rel_append (alike_sourceComment _ _ _) (alike_refl _)

theorem alike_structLines (h : SameType type type') :
    List.Forall₂ Line.Alike (structLines options identify identifier type)
      (structLines options identify identifier type') := by
  have hdoc (name other : String) :
      Line.Alike ⟨0, s!"/// {name} record."⟩ ⟨0, s!"/// {other} record."⟩ := by
    refine .inr ⟨?_, ?_⟩ <;> simp [Line.IsComment, toString]
  have hempty := isEmpty_eq_of_forall₂ h.properties
  have hfields (names : List String) : List.Forall₂ Line.Alike
      ((names.zip type.properties).flatMap fun pair => fieldLines options identify pair.1 pair.2)
      ((names.zip type'.properties).flatMap fun pair =>
        fieldLines options identify pair.1 pair.2) := by
    have hproperties := h.properties
    generalize type.properties = properties at hproperties
    generalize type'.properties = properties' at hproperties
    induction hproperties generalizing names with
    | nil => simp
    | cons hproperty _ ih =>
      cases names with
      | nil => exact .nil
      | cons name names => exact List.rel_append (alike_fieldLines hproperty) (ih names)
  rw [structLines, structLines, h.fields, hempty]
  refine List.rel_append (List.rel_append (List.rel_append (alike_sourceComment _ _ _)
    (.cons (hdoc _ _) (alike_refl _))) ?_) (alike_refl _)
  split
  · exact alike_refl _
  · exact List.rel_append (List.rel_append (alike_refl _) (hfields _)) (alike_refl _)

/-- What is made of a property depends on what it shares with the one in its place. -/
theorem SameType.bind_properties {α : Type} {R : α → α → Prop} {f g : Property → Option α}
    (h : SameType type type')
    (hfg : ∀ property property', SameProperty property property' →
      Option.Rel R (f property) (g property')) (index : Nat) :
    Option.Rel R (type.properties[index]?.bind f) (type'.properties[index]?.bind g) := by
  have hproperties := h.properties
  generalize type.properties = properties at hproperties
  generalize type'.properties = properties' at hproperties
  induction hproperties generalizing index with
  | nil => exact .none
  | cons hproperty _ ih =>
    cases index with
    | zero => exact hfg _ _ hproperty
    | succ index => exact ih index

/-- What a list step asks of a routine depends on the kind of its property alone. -/
theorem SameType.listShape?_eq (h : SameType type type') (index : Nat) :
    listShape? type (.list index) = listShape? type' (.list index) := by
  have hkinds : type.properties.map (·.kind) = type'.properties.map (·.kind) := by
    rw [← List.forall₂_eq_eq_eq, List.forall₂_map_left_iff, List.forall₂_map_right_iff]
    exact h.properties.imp fun _ _ hproperty => hproperty.kind
  have hkind : type.properties[index]?.map (·.kind) = type'.properties[index]?.map (·.kind) := by
    rw [← List.getElem?_map, ← List.getElem?_map, hkinds]
  rw [listShape?, listShape?]
  cases hp : type.properties[index]? with
  | none =>
    rw [hp, Option.map_none, eq_comm, Option.map_eq_none_iff] at hkind
    rw [hkind]
  | some property =>
    rw [hp, Option.map_some, eq_comm, Option.map_eq_some_iff] at hkind
    obtain ⟨property', hp', hkind⟩ := hkind
    simp only [hp', Option.bind_eq_bind, Option.bind_some, hkind]

theorem SameType.any_touchesWire (h : SameType type type') :
    type.steps.any (touchesWire type) = type'.steps.any (touchesWire type') := by
  refine any_eq_of_forall₂ h.steps fun step step' hstep => ?_
  cases hstep with
  | unresolved | cycle => rfl
  | refl => cases step <;> simp only [touchesWire, h.listShape?_eq]

theorem SameType.any_assignsValue (h : SameType type type') :
    type.steps.any (assignsValue type) = type'.steps.any (assignsValue type') := by
  refine any_eq_of_forall₂ h.steps fun step step' hstep => ?_
  cases hstep with
  | unresolved | cycle => rfl
  | refl => cases step <;> simp only [assignsValue, h.listShape?_eq]

theorem alike_encodeStep (h : SameType type type') (hstep : SameStep step step') :
    Option.Rel EncodeStatement.Alike (EncodeStatement.ofStep? identify type fields step)
      (EncodeStatement.ofStep? identify type' fields step') := by
  cases hstep with
  | unresolved reference reference' => exact .some (.comment _ _)
  | cycle reference reference' => exact .some (.comment _ _)
  | refl =>
    cases step with
    | field | constant | padding | unresolved | cycle => exact .some (.refl _)
    | nested index =>
      refine h.bind_properties (fun property property' hproperty => ?_) index
      simp only [hproperty.recursive]
      exact .some (.refl _)
    | list index =>
      refine h.bind_properties (fun property property' hproperty => ?_) index
      simp only [hproperty.kind]
      split
      · rename_i item repetition _
        refine .some ?_
        rcases item with _ | _ | _ <;> rcases repetition with _ | _ <;>
          simp only [EncodeStatement.ofList, hproperty.recursive] <;> constructor
      · exact .none

theorem alike_encodeStatement {statement statement' : EncodeStatement}
    (h : statement.Alike statement') :
    List.Forall₂ Line.Alike statement.lines statement'.lines := by
  cases h with
  | refl => exact alike_refl _
  | comment text text' => exact .cons (alike_comment _ _ _) .nil

theorem alike_encodeRoutine (h : SameType type type') :
    List.Forall₂ Line.Alike (EncodeRoutine.ofType identify identifier type).lines
      (EncodeRoutine.ofType identify identifier type').lines := by
  have hstatements : List.Forall₂ EncodeStatement.Alike
      (type.steps.filterMap (EncodeStatement.ofStep? identify type
        (fieldIdentifiers (type'.properties.map (·.name)))))
      (type'.steps.filterMap (EncodeStatement.ofStep? identify type'
        (fieldIdentifiers (type'.properties.map (·.name))))) :=
    List.rel_filterMap (R := SameStep) (fun _ _ hstep => alike_encodeStep h hstep) h.steps
  simp only [EncodeRoutine.lines, EncodeRoutine.ofType, h.any_touchesWire, h.fields,
    isEmpty_eq_of_forall₂ h.steps]
  refine List.rel_append (List.rel_append (alike_refl _) ?_) (alike_refl _)
  cases type'.steps.isEmpty with
  | true => exact alike_refl _
  | false =>
    exact List.rel_append (List.rel_append (alike_refl _)
      (List.rel_flatMap hstatements fun _ _ => alike_encodeStatement)) (alike_refl _)

theorem alike_decodeStep (h : SameType type type') (hstep : SameStep step step') :
    Option.Rel DecodeStatement.Alike (DecodeStatement.ofStep? identify type fields step)
      (DecodeStatement.ofStep? identify type' fields step') := by
  cases hstep with
  | unresolved reference reference' => exact .some (.comment _ _)
  | cycle reference reference' => exact .some (.comment _ _)
  | refl =>
    cases step with
    | field | constant | padding | unresolved | cycle => exact .some (.refl _)
    | nested index =>
      refine h.bind_properties (fun property property' hproperty => ?_) index
      simp only [hproperty.kind, hproperty.recursive]
      split
      · exact .some (.refl _)
      · exact .none
    | list index =>
      refine h.bind_properties (fun property property' hproperty => ?_) index
      simp only [hproperty.kind]
      split
      · rename_i item repetition _
        refine .some ?_
        rcases item with _ | _ | _ <;> rcases repetition with _ | _ <;>
          simp only [DecodeStatement.ofList, hproperty.recursive] <;> constructor
      · exact .none

theorem alike_decodeStatement {statement statement' : DecodeStatement}
    (h : statement.Alike statement') :
    List.Forall₂ Line.Alike statement.lines statement'.lines := by
  cases h with
  | refl => exact alike_refl _
  | comment text text' => exact .cons (alike_comment _ _ _) .nil

theorem alike_decodeRoutine (h : SameType type type') :
    List.Forall₂ Line.Alike (DecodeRoutine.ofType identify identifier type).lines
      (DecodeRoutine.ofType identify identifier type').lines := by
  have hstatements : List.Forall₂ DecodeStatement.Alike
      (type.steps.filterMap (DecodeStatement.ofStep? identify type
        (fieldIdentifiers (type'.properties.map (·.name)))))
      (type'.steps.filterMap (DecodeStatement.ofStep? identify type'
        (fieldIdentifiers (type'.properties.map (·.name))))) :=
    List.rel_filterMap (R := SameStep) (fun _ _ hstep => alike_decodeStep h hstep) h.steps
  have hrecursive : type.properties.any (·.recursive) = type'.properties.any (·.recursive) :=
    any_eq_of_forall₂ h.properties fun _ _ hproperty => hproperty.recursive
  have hbindings : DecodeStatement.bindings type = DecodeStatement.bindings type' := by
    rw [DecodeStatement.bindings, DecodeStatement.bindings, hrecursive, h.any_assignsValue]
  simp only [DecodeRoutine.ofType, h.any_touchesWire, h.fields, isEmpty_eq_of_forall₂ h.steps,
    hbindings]
  split
  · exact alike_refl _
  · simp only [DecodeRoutine.lines, List.flatMap_append]
    exact List.rel_append (List.rel_append (alike_refl _) (List.rel_append (alike_refl _)
      (List.rel_flatMap hstatements fun _ _ => alike_decodeStatement))) (alike_refl _)

variable {table table' : TypeTable}

theorem alike_warnings (h : table.diagnostics.length = table'.diagnostics.length) :
    List.Forall₂ Line.Alike (warnings table) (warnings table') := by
  have hproblems : List.Forall₂ (fun _ _ => True) table.diagnostics table'.diagnostics :=
    List.forall₂_iff_zip.2 ⟨h, fun _ => trivial⟩
  rw [warnings, warnings, isEmpty_eq_of_forall₂ hproblems]
  split
  · exact .nil
  · refine List.rel_append ?_ (alike_refl _)
    exact List.rel_map (fun _ _ _ => alike_comment _ _ _) hproblems

theorem alike_artifact (h : SameType type type')
    (hidentify : identifierOf table = identifierOf table')
    (hidentifier : (EmittedType.ofType options table type).identifier =
      (EmittedType.ofType options table' type').identifier) :
    List.Forall₂ Line.Alike (Artifact.ofType options table (.ofNames table.names) type).lines
      (Artifact.ofType options table' (.ofNames table'.names) type').lines := by
  have hlines (table : TypeTable) (type : RecordType) :
      (Artifact.ofType options table (.ofNames table.names) type).lines =
        structLines options (identifierOf table) (EmittedType.ofType options table type).identifier
            type
          ++ (EncodeRoutine.ofType (identifierOf table)
            (EmittedType.ofType options table type).identifier type).lines
          ++ (DecodeRoutine.ofType (identifierOf table)
            (EmittedType.ofType options table type).identifier type).lines := rfl
  rw [hlines, hlines, hidentify, hidentifier]
  exact List.rel_append (List.rel_append (alike_structLines h) (alike_encodeRoutine h))
    (alike_decodeRoutine h)

theorem alike_artifactList (h : SameTable table table') :
    List.Forall₂ (fun artifact artifact' => List.Forall₂ Line.Alike artifact.lines artifact'.lines)
      (artifactList options table) (artifactList options table') := by
  obtain ⟨hlength, hsame⟩ := List.forall₂_iff_get.1 h.types
  rw [artifactList, artifactList, List.forall₂_map_left_iff, List.forall₂_map_right_iff,
    List.forall₂_iff_get]
  refine ⟨hlength, fun index hindex hindex' => ?_⟩
  have hidentifier := h.identifiers index
  rw [identifierOf_eq options (List.getElem?_eq_getElem hindex),
    identifierOf_eq options (List.getElem?_eq_getElem hindex')] at hidentifier
  exact alike_artifact (hsame index hindex hindex') (funext h.identifiers) hidentifier

theorem alike_sourceLines (h : SameTable table table') :
    List.Forall₂ Line.Alike (sourceLines options table) (sourceLines options table') := by
  refine List.rel_append (List.rel_append (alike_refl _) (alike_warnings h.diagnostics)) ?_
  exact List.rel_flatMap (alike_artifactList h) fun _ _ hlines => hlines

end Alike

/-- Alike lines of source take up the same lines of the text but for comments, where comments are
contained. -/
theorem alike_pieces {lines lines' : List Line} (h : List.Forall₂ Line.Alike lines lines')
    (hlines : AllContained lines) (hlines' : AllContained lines') :
    List.Forall₂ (fun piece piece' => piece = piece' ∨ IsCommentLine piece ∧ IsCommentLine piece')
      (lines.flatMap Line.pieces) (lines'.flatMap Line.pieces) := by
  induction h with
  | nil => exact .nil
  | cons hline _ ih =>
    obtain ⟨hcontained, hrest⟩ := allContained_cons.1 hlines
    obtain ⟨hcontained', hrest'⟩ := allContained_cons.1 hlines'
    refine List.rel_append ?_ (ih hrest hrest')
    obtain rfl | ⟨hcomment, hcomment'⟩ := hline
    · exact List.forall₂_same.2 fun _ _ => .inl rfl
    · obtain ⟨piece, hpiece, hkept⟩ := hcontained hcomment
      obtain ⟨piece', hpiece', hkept'⟩ := hcontained' hcomment'
      rw [hpiece, hpiece']
      exact .cons (.inr ⟨hkept, hkept'⟩) .nil

end FixedWidth.Emit
