import FixedWidth.Wire.Cursor
import Mathlib.Data.List.Basic

/-!
# Proofs/CursorReads — reads of any kind, in any order

    שלוםab      take 4 ▸ שלום      skip 3 ▸ no      take 2 ▸ ab

A cursor counts characters and bytes side by side: behind the first read above it stands at 4 and 8.
`Cursor.Behind` says that both are the counts of what was read, and that the rest of the text
follows it; every read keeps this (`Cursor.Behind.run`). So the byte offset is always a place
between two characters, and a read fails if and only if it asks for more than remains
(`reads_consume`).
-/

namespace FixedWidth.Text

theorem utf8ByteSize_ofList (cs : List Char) : (String.ofList cs).utf8ByteSize = byteLength cs := by
  induction cs with
  | nil => rfl
  | cons c cs ih =>
    rw [String.ofList_cons, String.utf8ByteSize_append, String.utf8ByteSize_singleton, ih,
      byteLength_cons]

/-- **The size of the beginning of a text is a place in it**, and the rest stands from there on. -/
theorem exists_place (before rest : List Char) :
    ∃ place : (String.ofList (before ++ rest)).Pos, place.offset.byteIdx = byteLength before ∧
      ((String.ofList (before ++ rest)).sliceFrom place).copy = String.ofList rest := by
  have hvalid : String.Pos.Raw.IsValid (String.ofList (before ++ rest))
      (String.ofList before).rawEndPos :=
    String.Pos.Raw.isValid_iff_exists_append.2
      ⟨String.ofList before, String.ofList rest, String.ofList_append, rfl⟩
  refine ⟨⟨_, hvalid⟩, utf8ByteSize_ofList before, ?_⟩
  exact (String.Pos.splits _).eq_right ⟨String.ofList_append, rfl⟩

end FixedWidth.Text

namespace FixedWidth.Wire

open Text (byteLength)

/-! ## Reads -/

/-- One read of a cursor. -/
inductive Read where
  /-- Characters as they are. -/
  | take (width : Nat)
  /-- Characters without surrounding blanks. -/
  | takeField (width : Nat)
  /-- A field of a layout without its padding. -/
  | takeValue (layout : Layout)
  /-- Characters that are passed over. -/
  | skip (width : Nat)
  deriving DecidableEq, Repr

/-- What a read answers. -/
inductive Answer where
  /-- A text, if there were enough characters for it. -/
  | text (content : Option (List Char))
  /-- Whether there were enough characters to pass over. -/
  | passed (enough : Bool)
  deriving DecidableEq, Repr

namespace Read

/-- The number of characters that a read asks for. -/
def width : Read → Nat
  | take width | takeField width | skip width => width
  | takeValue layout => layout.width

/-- The answer of a read together with the cursor behind it. -/
def run (cursor : Cursor) : Read → Answer × Cursor
  | take width => (cursor.take width).map .text id
  | takeField width => (cursor.takeField width).map .text id
  | takeValue layout => (cursor.takeValue layout).map .text id
  | skip width => (cursor.skip width).map .passed id

/-- The answer where characters lack. -/
def refusal : Read → Answer
  | take _ | takeField _ | takeValue _ => .text none
  | skip _ => .passed false

/-- The answer where these characters are taken. -/
def answer (taken : List Char) : Read → Answer
  | take _ => .text (some taken)
  | takeField _ => .text (some (Unicode.trim taken))
  | takeValue layout => .text (some (layout.decode taken))
  | skip _ => .passed true

/-- The cursor behind reads that are made one after the other. -/
def runAll (reads : List Read) (cursor : Cursor) : Cursor :=
  reads.foldl (fun cursor read => (read.run cursor).2) cursor

/-- The characters that a read takes, as they are. A read that fails takes none. -/
def piece (cursor : Cursor) (read : Read) : List Char := (cursor.take read.width).1.getD []

/-- The pieces that reads take one after the other. -/
def pieces : List Read → Cursor → List (List Char)
  | [], _ => []
  | read :: rest, cursor => read.piece cursor :: pieces rest (read.run cursor).2

variable {cursor : Cursor} {read : Read}

theorem answer_ne_refusal (read : Read) (taken : List Char) : read.answer taken ≠ read.refusal := by
  cases read <;> exact nofun

/-- Every read takes characters, and answers with what it makes of them. -/
theorem run_eq (read : Read) (cursor : Cursor) :
    read.run cursor =
      ((cursor.take read.width).1.elim read.refusal read.answer, (cursor.take read.width).2) := by
  cases read with
  | take count | takeField count | skip count =>
    rcases htake : cursor.take count with ⟨_ | taken, next⟩ <;>
      simp [run, Cursor.takeField, Cursor.skip, width, htake, refusal, answer]
  | takeValue layout =>
    rcases htake : cursor.take layout.width with ⟨_ | taken, next⟩ <;>
      simp [run, Cursor.takeValue, width, htake, refusal, answer]

/-- **A read of more characters than remain changes nothing.** -/
theorem run_of_lt (h : cursor.remaining < read.width) :
    read.run cursor = (read.refusal, cursor) := by
  rw [run_eq, Cursor.take_of_lt h, Option.elim_none]

/-- **Any other read takes the next characters.** -/
theorem run_of_le (h : read.width ≤ cursor.remaining) :
    read.run cursor = (read.answer (cursor.rest.take read.width), (cursor.take read.width).2) := by
  rw [run_eq, Cursor.take_of_le h, Option.elim_some]

/-- **A read fails if and only if it asks for more characters than remain.** -/
theorem run_eq_refusal_iff :
    (read.run cursor).1 = read.refusal ↔ cursor.remaining < read.width := by
  obtain hlt | hle := Nat.lt_or_ge cursor.remaining read.width
  · exact iff_of_true (by rw [run_of_lt hlt]) hlt
  · exact iff_of_false (by rw [run_of_le hle]; exact read.answer_ne_refusal _) (Nat.not_lt.2 hle)

end Read

/-! ## Behind what was read -/

/-- **The cursor stands behind these characters of a text**, and counts them. -/
structure Cursor.Behind (text before : List Char) (cursor : Cursor) : Prop where
  buffer_eq : cursor.buffer = text
  text_eq : text = before ++ cursor.rest
  position_eq : cursor.position = before.length
  byteOffset_eq : cursor.byteOffset = byteLength before

namespace Cursor.Behind

variable {text before : List Char} {cursor : Cursor}

theorem ofText (text : List Char) : (Cursor.ofText text).Behind text [] := ⟨rfl, rfl, rfl, rfl⟩

/-- **A read leaves the cursor behind what it took.** -/
theorem run (h : cursor.Behind text before) (read : Read) :
    (read.run cursor).2.Behind text (before ++ read.piece cursor) := by
  rw [Read.run_eq, Read.piece]
  obtain hlt | hle := Nat.lt_or_ge cursor.remaining read.width
  · rw [take_of_lt hlt, Option.getD_none, List.append_nil]
    exact h
  · rw [take_of_le hle, Option.getD_some]
    refine ⟨h.buffer_eq, ?_, ?_, ?_⟩
    · rw [List.append_assoc, List.take_append_drop, h.text_eq]
    · rw [List.length_append, List.length_take_of_le hle, h.position_eq]
    · rw [Text.byteLength_append, h.byteOffset_eq]

/-- **Reads leave the cursor behind all that they took.** -/
theorem runAll (h : cursor.Behind text before) (reads : List Read) :
    (Read.runAll reads cursor).Behind text (before ++ (Read.pieces reads cursor).flatten) := by
  induction reads generalizing cursor before with
  | nil => simpa [Read.pieces, Read.runAll] using h
  | cons read rest ih =>
    rw [Read.pieces, List.flatten_cons, ← List.append_assoc]
    exact ih (h.run read)

theorem take_position (h : cursor.Behind text before) : text.take cursor.position = before := by
  rw [h.position_eq, h.text_eq, List.take_left]

theorem drop_position (h : cursor.Behind text before) :
    text.drop cursor.position = cursor.rest := by
  rw [h.position_eq, h.text_eq, List.drop_left]

theorem position_add_remaining (h : cursor.Behind text before) :
    cursor.position + cursor.remaining = cursor.length := by
  rw [h.position_eq, remaining, length, h.buffer_eq, h.text_eq, List.length_append]

end Cursor.Behind

/-! ## The rule -/

/-- **What reads do to a text.** Whatever was read of it before, a read fails if and only if it asks
for more characters than remain, and then changes nothing. Otherwise it takes the next characters
and moves on by as many. What was taken is, piece after piece, what stands before the position; the
byte offset is the size of that, and the rest of the text can be cut off there. -/
theorem reads_consume (text : List Char) (reads : List Read) {cursor : Cursor}
    (h : Read.runAll reads (.ofText text) = cursor) :
    (∀ read : Read,
      ((read.run cursor).1 = read.refusal ↔ cursor.remaining < read.width) ∧
        (cursor.remaining < read.width → (read.run cursor).2 = cursor) ∧
        (read.width ≤ cursor.remaining →
          (read.run cursor).1 = read.answer ((text.drop cursor.position).take read.width) ∧
            (read.run cursor).2.position = cursor.position + read.width)) ∧
      cursor.length = text.length ∧
      cursor.position + cursor.remaining = cursor.length ∧
      (Read.pieces reads (.ofText text)).flatten = text.take cursor.position ∧
      cursor.byteOffset = byteLength (text.take cursor.position) ∧
      ∃ place : (String.ofList text).Pos, place.offset.byteIdx = cursor.byteOffset ∧
        ((String.ofList text).sliceFrom place).copy =
          String.ofList (text.drop cursor.position) := by
  have hbehind : cursor.Behind text (Read.pieces reads (.ofText text)).flatten :=
    h ▸ (Cursor.Behind.ofText text).runAll reads
  refine ⟨fun read => ⟨Read.run_eq_refusal_iff, fun hlt => ?_, fun hle => ⟨?_, ?_⟩⟩, ?_,
    hbehind.position_add_remaining, hbehind.take_position.symm, ?_, ?_⟩
  · rw [Read.run_of_lt hlt]
  · rw [Read.run_of_le hle, hbehind.drop_position]
  · rw [Read.run_of_le hle, Cursor.take_of_le hle]
  · rw [Cursor.length, hbehind.buffer_eq]
  · rw [hbehind.take_position, hbehind.byteOffset_eq]
  · rw [hbehind.drop_position, hbehind.byteOffset_eq]
    have hplace := Text.exists_place (Read.pieces reads (.ofText text)).flatten cursor.rest
    rwa [← hbehind.text_eq] at hplace

/-- Behind four letters of two bytes each and a failed read, two characters remain. -/
theorem letters_reads_consume :
    Read.runAll [.take 4, .skip 3] (.ofText "שלוםab".toList) =
        ⟨"שלוםab".toList, "ab".toList, 4, 8⟩ ∧
      (∃ place : "שלוםab".Pos, place.offset.byteIdx = 8 ∧
        ("שלוםab".sliceFrom place).copy = "ab") ∧
      ((Read.takeField 3).run ⟨"שלוםab".toList, "ab".toList, 4, 8⟩).1 = .text none ∧
      ((Read.takeField 2).run ⟨"שלוםab".toList, "ab".toList, 4, 8⟩).1 =
        .text (some "ab".toList) := by
  have hrun : Read.runAll [.take 4, .skip 3] (.ofText "שלוםab".toList) =
      ⟨"שלוםab".toList, "ab".toList, 4, 8⟩ := by decide +kernel
  obtain ⟨hread, -, -, -, -, hplace⟩ := reads_consume _ _ hrun
  exact ⟨hrun, hplace, (hread (.takeField 3)).1.2 (by decide),
    ((hread (.takeField 2)).2.2 (by decide)).1.trans (by decide)⟩

end FixedWidth.Wire
