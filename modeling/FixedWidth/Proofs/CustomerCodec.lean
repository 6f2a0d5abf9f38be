import FixedWidth.Codec.Named
import FixedWidth.Proofs.Framing
import FixedWidth.Proofs.RoundTrip
import FixedWidth.Sample.Customer
import FixedWidth.Schema.Registry

/-!
# Proofs/CustomerCodec — the emitted codec of a customer is the one of its format

    CU Ann     042 555   ␣␣␣␣␣ ␣ a    bcde …
       name    age phones     notes up to the end

The format of a customer compiles to a table of two types. `Customer.encode` writes what the table
writes for the record of the customer, and `Customer.decode` reads what the table reads, so that the
record of what it reads is the record that the table reads. A customer comes back from the wire if
and only if it is `Complete`: each text is there and fits, and there are two telephones
(`customer_codec`).
-/

namespace FixedWidth.Sample

open Codec
open Schema (Document Registry)
open Table
open Wire (Buffer Cursor)

/-! ## The table of the format -/

/-- The format of a customer. -/
def customerXml : String := "<kColl>
  <fmtDef id=\"Customer\">
    <constant value=\"CU\"/><delimDecor length=\"2\"/>
    <fString dataName=\"Name\"/><delimDecor length=\"8\"/>
    <fString dataName=\"Age\"/><numDecor length=\"3\"/>
    <fCSList dataName=\"Phones\" times=\"2\">
      <record>
        <fString dataName=\"Number\"/><delimDecor length=\"5\"/>
      </record>
    </fCSList>
    <fixedLength length=\"1\"/>
    <fCSList dataName=\"Notes\" times=\"*\"><delimDecor length=\"4\"/></fCSList>
  </fmtDef>
</kColl>"

/-- The type of a telephone. -/
def phoneType : RecordType where
  name := "PhonesItem"
  properties := [⟨"Number", .text (some (.text 5)), false, ⟨"customer.xml", 8⟩⟩]
  steps := [.field 0 (.text 5)]
  place := ⟨"customer.xml", 7⟩

/-- The type of a customer. -/
def customerType : RecordType where
  name := "Customer"
  properties := [
    ⟨"Name", .text (some (.text 8)), false, ⟨"customer.xml", 4⟩⟩,
    ⟨"Age", .text (some (.numeric 3)), false, ⟨"customer.xml", 5⟩⟩,
    ⟨"Phones", .list (.record 1) (.fixed 2), false, ⟨"customer.xml", 6⟩⟩,
    ⟨"Notes", .list (.text (some (.text 4))) .dynamic, false, ⟨"customer.xml", 12⟩⟩]
  steps := [.constant "CU" 2, .field 0 (.text 8), .field 1 (.numeric 3), .list 2, .padding 1,
    .list 3]
  place := ⟨"customer.xml", 2⟩

/-- The table of both. -/
def customerTable : TypeTable := ⟨[customerType, phoneType], some 0, []⟩

set_option maxRecDepth 4000 in
/-- **The format compiles to the table.** -/
theorem exists_compile_customerXml :
    ∃ document, Document.parse "customer.xml" customerXml.toList = .ok document ∧
      compile (.ofDocuments [document]) "Customer" = customerTable := by
  -- taking the characters of the text apart once keeps the evaluation short
  have hcompile : ∃ cs, customerXml = String.ofList cs ∧
      (Document.parse "customer.xml" cs).toOption.map
        (fun document => compile (.ofDocuments [document]) "Customer") = some customerTable :=
    ⟨_, rfl, by decide +kernel⟩
  obtain ⟨cs, htext, hcompile⟩ := hcompile
  obtain ⟨document, hparse, htable⟩ := Option.map_eq_some_iff.1 hcompile
  rw [htext, String.toList_ofList]
  cases h : Document.parse "customer.xml" cs with
  | error cause =>
    rw [h] at hparse
    cases hparse
  | ok other =>
    rw [h] at hparse
    cases hparse
    exact ⟨document, rfl, htable⟩

/-! ## Customers as records -/

/-- Sets a text, if there is one. -/
def setText (record : Record) (name : String) : Option String → Record
  | some text => record.insert name (.text text)
  | none => record

/-- The record of a telephone. -/
def Phone.toRecord (phone : Phone) : Record := setText [] "Number" phone.number

/-- **The record of a customer**: texts that are not set are missing, lists are always there. -/
def Customer.toRecord (customer : Customer) : Record :=
  let texts := setText (setText [] "Name" customer.name) "Age" customer.age
  let phones := customer.phones.map fun phone => Value.record phone.toRecord
  (texts.insert "Phones" (.list phones)).insert "Notes" (.list (customer.notes.map .text))

theorem get?_setText_self (record : Record) (name : String) (text : Option String) :
    (setText record name text).get? name = (text.map Value.text).or (record.get? name) := by
  cases text with
  | none => rfl
  | some text => exact Record.get?_insert_self record name _

theorem get?_setText_of_ne (record : Record) {name other : String} (h : name ≠ other)
    (text : Option String) : (setText record name text).get? other = record.get? other := by
  cases text with
  | none => rfl
  | some text => exact Record.get?_insert_of_ne record h _

theorem text_of_get? {record : Record} {name : String} {text : Option String}
    (h : record.get? name = text.map .text) : record.text name = .ok text := by
  rw [Record.text, h]
  cases text <;> rfl

theorem list_of_get? {record : Record} {name : String} {items : List Value}
    (h : record.get? name = some (.list items)) : record.list name = .ok (some items) := by
  rw [Record.list, h]

namespace Customer

variable (customer : Customer)

theorem text_name : customer.toRecord.text "Name" = .ok customer.name := by
  refine text_of_get? ?_
  rw [toRecord, Record.get?_insert_of_ne _ (by decide), Record.get?_insert_of_ne _ (by decide),
    get?_setText_of_ne _ (by decide), get?_setText_self]
  exact Option.or_none

theorem text_age : customer.toRecord.text "Age" = .ok customer.age := by
  refine text_of_get? ?_
  rw [toRecord, Record.get?_insert_of_ne _ (by decide), Record.get?_insert_of_ne _ (by decide),
    get?_setText_self, get?_setText_of_ne _ (by decide)]
  exact Option.or_none

theorem list_phones : customer.toRecord.list "Phones" =
    .ok (some (customer.phones.map fun phone => .record phone.toRecord)) := by
  refine list_of_get? ?_
  rw [toRecord, Record.get?_insert_of_ne _ (by decide), Record.get?_insert_self]

theorem list_notes : customer.toRecord.list "Notes" = .ok (some (customer.notes.map .text)) :=
  list_of_get? (Record.get?_insert_self _ _ _)

end Customer

theorem Phone.text_number (phone : Phone) : phone.toRecord.text "Number" = .ok phone.number :=
  text_of_get? ((get?_setText_self _ _ _).trans Option.or_none)

/-! ## Writing -/

/-- The wire text of a telephone. -/
def Phone.wire (phone : Phone) : List Char := (Layout.text 5).encode (fieldText phone.number)

/-- The wire text of a note. -/
def noteWire (note : String) : List Char := (Layout.text 4).encode note.toList

theorem text_foldl_notes (notes : List String) (buffer : Buffer) :
    (notes.foldl (fun buffer note => buffer.putField (.text 4) note.toList) buffer).text =
      buffer.text ++ notes.flatMap noteWire := by
  induction notes generalizing buffer with
  | nil => exact (List.append_nil _).symm
  | cons note rest ih =>
    rw [List.foldl_cons, ih, List.flatMap_cons, ← List.append_assoc]
    rfl

/-- What a customer writes, field by field. -/
theorem Customer.encode_eq (customer : Customer) :
    customer.encode = (Layout.text 2).encode ['C', 'U'] ++
      ((Layout.text 8).encode (fieldText customer.name) ++
      ((Layout.numeric 3).encode (fieldText customer.age) ++
      ((customer.phones[0]?.getD Phone.blank).wire ++
      ((customer.phones[1]?.getD Phone.blank).wire ++
      (List.replicate 1 ' ' ++ customer.notes.flatMap noteWire))))) := by
  rw [encode, encodeInto, text_foldl_notes]
  simp only [Buffer.putPadding, Phone.encodeInto, Buffer.putField, Buffer.putConstant,
    Buffer.empty, List.nil_append, List.append_assoc, Phone.wire]

section Step

variable {encodeRecord : RecordEncoder} {type : RecordType} {record : Record} {index : Nat}
  {property : Property}

theorem encodeStep_field {layout : Layout} {text : Option String}
    (hp : type.properties[index]? = some property) (h : record.text property.name = .ok text) :
    encodeStep encodeRecord type record (.field index layout) =
      .ok (layout.encode (fieldText text)) := by
  simp only [encodeStep, hp, h]
  rfl

theorem encodeStep_list {item : ItemType} {repetition : Repetition} {items : List Value}
    (hp : type.properties[index]? = some property) (hk : property.kind = .list item repetition)
    (h : record.list property.name = .ok (some items)) :
    encodeStep encodeRecord type record (.list index) =
      encodeItems encodeRecord property item repetition items := by
  simp only [encodeStep, hp, encodeList, hk, h]
  rfl

end Step

/-- Texts that are written without a mismatch stand side by side. -/
theorem concatM_of_forall₂ {α : Type} {write : α → Encoded} {list : List α}
    {outs : List (List Char)} (h : List.Forall₂ (fun a out => write a = .ok out) list outs) :
    concatM write list = .ok outs.flatten := by
  induction h with
  | nil => rfl
  | cons hfirst _ ih =>
    rw [concatM_cons_ok hfirst, ih]
    rfl

theorem concatM_eq_ok {α : Type} {write : α → Encoded} {out : α → List Char}
    (h : ∀ a, write a = .ok (out a)) (list : List α) :
    concatM write list = .ok (list.flatMap out) :=
  concatM_of_forall₂ (List.forall₂_map_right_iff.2 (List.forall₂_same.2 fun a _ => h a))

theorem encodeWith_phone (fuel : Nat) (phone : Phone) :
    encodeWith customerTable (fuel + 1) 1 phone.toRecord = .ok phone.wire :=
  (concatM_singleton _ _).trans (encodeStep_field rfl phone.text_number)

/-- **The telephones of a customer**: further ones are not written, and missing ones are blank. -/
theorem encodeItems_phones (fuel : Nat) (property : Property) (hrec : property.recursive = false)
    (phones : List Phone) :
    encodeItems (encodeWith customerTable (fuel + 1)) property (.record 1) (.fixed 2)
        (phones.map fun phone => .record phone.toRecord) =
      .ok ((phones[0]?.getD Phone.blank).wire ++ (phones[1]?.getD Phone.blank).wire) := by
  have hslots : slots 2 (phones.map fun phone => .record phone.toRecord) =
      [phones[0]?, phones[1]?].map (·.map fun phone => Value.record phone.toRecord) := by
    rcases phones with _ | ⟨first, _ | ⟨second, more⟩⟩
    · rfl
    · rfl
    · simp [slots]
  have hplace (place : Option Phone) :
      encodeRecordItem (encodeWith customerTable (fuel + 1)) property.name 1
        (place.map fun phone => .record phone.toRecord) = .ok (place.getD Phone.blank).wire := by
    cases place with
    | none => exact encodeWith_phone fuel Phone.blank
    | some phone => exact encodeWith_phone fuel phone
  simp only [encodeItems, placeCount, hrec]
  refine (congrArg (concatM _) hslots).trans ?_
  rw [concatM_map, concatM_eq_ok hplace]
  simp

theorem encodeItems_notes (encodeRecord : RecordEncoder) (property : Property)
    (notes : List String) :
    encodeItems encodeRecord property (.text (some (.text 4))) .dynamic (notes.map .text) =
      .ok (notes.flatMap noteWire) := by
  have hslots : slots (notes.map Value.text).length (notes.map Value.text) =
      notes.map fun note => some (.text note) := by
    simp [slots, List.take_of_length_le]
  simp only [encodeItems, placeCount]
  rw [hslots, concatM_map]
  exact concatM_eq_ok (fun _ => rfl) notes

/-- **The table writes what the customer writes.** -/
theorem encodeWith_customer (fuel : Nat) (customer : Customer) :
    encodeWith customerTable (fuel + 2) 0 customer.toRecord = .ok customer.encode := by
  have hsteps : List.Forall₂ (fun step out => encodeStep (encodeWith customerTable (fuel + 1))
      customerType customer.toRecord step = .ok out) customerType.steps
      [(Layout.text 2).encode ['C', 'U'],
        (Layout.text 8).encode (fieldText customer.name),
        (Layout.numeric 3).encode (fieldText customer.age),
        (customer.phones[0]?.getD Phone.blank).wire ++ (customer.phones[1]?.getD Phone.blank).wire,
        List.replicate 1 ' ',
        customer.notes.flatMap noteWire] := by
    refine .cons rfl (.cons ?name (.cons ?age (.cons ?phones (.cons rfl (.cons ?notes .nil)))))
    case name => exact encodeStep_field rfl customer.text_name
    case age => exact encodeStep_field rfl customer.text_age
    case phones =>
      exact (encodeStep_list rfl rfl customer.list_phones).trans
        (encodeItems_phones fuel _ rfl customer.phones)
    case notes =>
      exact (encodeStep_list rfl rfl customer.list_notes).trans
        (encodeItems_notes _ _ customer.notes)
  refine (concatM_of_forall₂ hsteps).trans ?_
  rw [customer.encode_eq]
  simp

/-! ## Reading -/

section Step

variable {decodeRecord : RecordDecoder} {type : RecordType} {start index : Nat} {record : Record}
  {cursor : Cursor} {property : Property}

theorem decodeStep_field {layout : Layout} (hp : type.properties[index]? = some property) :
    decodeStep decodeRecord type start (record, cursor) (.field index layout) =
      (setText record property.name (textOf (cursor.takeValue layout).1),
        (cursor.takeValue layout).2) := by
  rw [decodeStep]
  rcases cursor.takeValue layout with ⟨_ | text, next⟩
  · rfl
  · simp only [hp]
    rfl

theorem decodeStep_list {item : ItemType} {repetition : Repetition}
    (hp : type.properties[index]? = some property) (hk : property.kind = .list item repetition) :
    decodeStep decodeRecord type start (record, cursor) (.list index) =
      (record.insert property.name (.list
        (decodeItems decodeRecord property.recursive start item repetition cursor).1),
        (decodeItems decodeRecord property.recursive start item repetition cursor).2) := by
  simp only [decodeStep, hp, decodeList, hk]

end Step

theorem decodeWith_phone (fuel : Nat) (cursor : Cursor) :
    decodeWith customerTable (fuel + 1) 1 cursor =
      ((Phone.decodeFrom cursor).1.toRecord, (Phone.decodeFrom cursor).2) := by
  have hstep : decodeWith customerTable (fuel + 1) 1 cursor =
      decodeStep (decodeWith customerTable fuel) phoneType cursor.position ([], cursor)
        (.field 0 (.text 5)) := rfl
  rw [hstep, decodeStep_field rfl]
  rfl

/-- **Two telephones are read**, one after the other. -/
theorem decodeItems_phones (fuel start : Nat) (cursor : Cursor) :
    decodeItems (decodeWith customerTable (fuel + 1)) false start (.record 1) (.fixed 2) cursor =
      ([(Phone.decodeFrom cursor).1, (Phone.decodeFrom (Phone.decodeFrom cursor).2).1].map
        fun phone => .record phone.toRecord,
        (Phone.decodeFrom (Phone.decodeFrom cursor).2).2) := by
  have hitems : decodeItems (decodeWith customerTable (fuel + 1)) false start (.record 1) (.fixed 2)
      cursor = decodeExactly (decodeWith customerTable (fuel + 1) 1) 2 cursor := rfl
  simp only [hitems, decodeExactly, decodeWith_phone]
  rfl

theorem takeAll_notes (fuel : Nat) (cursor : Cursor) :
    (takeAll (.text 4) fuel cursor).1 = (Customer.notesFrom fuel cursor).map .text := by
  induction fuel generalizing cursor with
  | zero => rfl
  | succ fuel ih =>
    rw [takeAll, Customer.notesFrom]
    rcases cursor.takeValue (.text 4) with ⟨_ | note, next⟩
    · rfl
    · exact congrArg _ (ih next)

/-- **Notes are read to the end.** -/
theorem decodeItems_notes (decodeRecord : RecordDecoder) (recursive : Bool) (start : Nat)
    (cursor : Cursor) :
    (decodeItems decodeRecord recursive start (.text (some (.text 4))) .dynamic cursor).1 =
      (Customer.notesFrom cursor.remaining cursor).map .text :=
  takeAll_notes cursor.remaining cursor

/-- **The table reads what the customer reads.** -/
theorem decodeWith_customer (fuel : Nat) (text : List Char) :
    (decodeWith customerTable (fuel + 2) 0 (.ofText text)).1 = (Customer.decode text).toRecord := by
  have hskip (record : Record) (cursor : Cursor) :
      decodeStep (decodeWith customerTable (fuel + 1)) customerType 0 (record, cursor)
        (.constant "CU" 2) = (record, (cursor.skip 2).2) := rfl
  have hpad (record : Record) (cursor : Cursor) :
      decodeStep (decodeWith customerTable (fuel + 1)) customerType 0 (record, cursor)
        (.padding 1) = (record, (cursor.skip 1).2) := rfl
  have hname (record : Record) (cursor : Cursor) :
      decodeStep (decodeWith customerTable (fuel + 1)) customerType 0 (record, cursor)
          (.field 0 (.text 8)) =
        (setText record "Name" (textOf (cursor.takeValue (.text 8)).1),
          (cursor.takeValue (.text 8)).2) := by
    rw [decodeStep_field rfl]
  have hage (record : Record) (cursor : Cursor) :
      decodeStep (decodeWith customerTable (fuel + 1)) customerType 0 (record, cursor)
          (.field 1 (.numeric 3)) =
        (setText record "Age" (textOf (cursor.takeValue (.numeric 3)).1),
          (cursor.takeValue (.numeric 3)).2) := by
    rw [decodeStep_field rfl]
  have hphones (record : Record) (cursor : Cursor) :
      decodeStep (decodeWith customerTable (fuel + 1)) customerType 0 (record, cursor) (.list 2) =
        (record.insert "Phones" (.list (([(Phone.decodeFrom cursor).1,
            (Phone.decodeFrom (Phone.decodeFrom cursor).2).1] : List Phone).map
              fun phone => .record phone.toRecord)),
          (Phone.decodeFrom (Phone.decodeFrom cursor).2).2) := by
    rw [decodeStep_list rfl rfl]
    simp only [decodeItems_phones]
  have hnotes (record : Record) (cursor : Cursor) :
      (decodeStep (decodeWith customerTable (fuel + 1)) customerType 0 (record, cursor)
          (.list 3)).1 =
        record.insert "Notes" (.list ((Customer.notesFrom cursor.remaining cursor).map .text)) := by
    rw [decodeStep_list rfl rfl]
    simp only [decodeItems_notes]
  have hsteps : (decodeWith customerTable (fuel + 2) 0 (.ofText text)).1 =
      ([.constant "CU" 2, .field 0 (.text 8), .field 1 (.numeric 3), .list 2, .padding 1,
        .list 3].foldl (decodeStep (decodeWith customerTable (fuel + 1)) customerType 0)
          ([], .ofText text)).1 := rfl
  rw [hsteps, List.foldl_cons, hskip, List.foldl_cons, hname, List.foldl_cons, hage,
    List.foldl_cons, hphones, List.foldl_cons, hpad, List.foldl_cons, List.foldl_nil, hnotes,
    Customer.decode, Customer.toRecord]

/-! ## What comes back -/

/-- A text after it was written to a field and read from it. -/
def recodeText (layout : Layout) (text : String) : String :=
  String.ofList (layout.recode text.toList)

/-- The telephone that comes back for one. -/
def Phone.normal (phone : Phone) : Phone := ⟨some (recodeText (.text 5) (phone.number.getD ""))⟩

/-- **The customer that comes back for one**: every text is set, and there are two telephones. -/
def Customer.normal (customer : Customer) : Customer where
  name := some (recodeText (.text 8) (customer.name.getD ""))
  age := some (recodeText (.numeric 3) (customer.age.getD ""))
  phones := [(customer.phones[0]?.getD Phone.blank).normal,
    (customer.phones[1]?.getD Phone.blank).normal]
  notes := customer.notes.map (recodeText (.text 4))

section Rest

variable {cursor : Cursor} {suffix : List Char}

theorem takeValue_of_rest {layout : Layout} {value : List Char}
    (h : cursor.rest = layout.encode value ++ suffix) :
    ∃ next, cursor.takeValue layout = (some (layout.recode value), next) ∧ next.rest = suffix :=
  ⟨_, readsBack_takeValue layout value cursor suffix h, Cursor.rest_advance h⟩

theorem rest_skip {out : List Char} (h : cursor.rest = out ++ suffix) :
    (cursor.skip out.length).2.rest = suffix := by
  rw [Cursor.skip, Cursor.take_eq h]
  exact Cursor.rest_advance h

theorem Phone.decodeFrom_of_rest {phone : Phone} (h : cursor.rest = phone.wire ++ suffix) :
    ∃ next, Phone.decodeFrom cursor = (phone.normal, next) ∧ next.rest = suffix := by
  obtain ⟨next, htake, hrest⟩ := takeValue_of_rest h
  exact ⟨next, by rw [Phone.decodeFrom, htake]; rfl, hrest⟩

/-- Notes that fill the rest of the text are all read. -/
theorem Customer.notesFrom_of_rest {notes : List String} {fuel : Nat}
    (hfuel : notes.length ≤ fuel) (h : cursor.rest = notes.flatMap noteWire) :
    Customer.notesFrom fuel cursor = notes.map (recodeText (.text 4)) := by
  induction notes generalizing fuel cursor with
  | nil =>
    have hrest : cursor.rest = [] := h
    have hshort : cursor.remaining < (Layout.text 4).width := by
      rw [Cursor.remaining, hrest]
      decide
    cases fuel with
    | zero => rfl
    | succ fuel =>
      simp only [notesFrom, Cursor.takeValue, Cursor.take_of_lt hshort]
      rfl
  | cons note notes ih =>
    cases fuel with
    | zero => cases hfuel
    | succ fuel =>
      rw [List.flatMap_cons, noteWire] at h
      obtain ⟨next, htake, hrest⟩ := takeValue_of_rest h
      simp only [notesFrom, htake]
      exact congrArg _ (ih (Nat.le_of_succ_le_succ hfuel) hrest)

end Rest

theorem length_flatMap_noteWire (notes : List String) :
    (notes.flatMap noteWire).length = 4 * notes.length := by
  induction notes with
  | nil => rfl
  | cons note notes ih =>
    have hnote : (noteWire note).length = 4 := Layout.length_encode _ _
    rw [List.flatMap_cons, List.length_append, ih, hnote, List.length_cons]
    omega

/-- **What a customer writes is read as its normal form.** -/
theorem Customer.decode_encode (customer : Customer) :
    Customer.decode customer.encode = customer.normal := by
  have hstart : (Cursor.ofText customer.encode).rest = customer.encode := rfl
  rw [customer.encode_eq] at hstart
  obtain ⟨afterName, hname, hrest⟩ := takeValue_of_rest (rest_skip hstart)
  obtain ⟨afterAge, hage, hrest⟩ := takeValue_of_rest hrest
  obtain ⟨afterFirst, hfirst, hrest⟩ := Phone.decodeFrom_of_rest hrest
  obtain ⟨afterSecond, hsecond, hrest⟩ := Phone.decodeFrom_of_rest hrest
  have hnotes := rest_skip hrest
  rw [Layout.length_encode] at hname
  rw [List.length_replicate] at hnotes
  have hremaining : customer.notes.length ≤ (afterSecond.skip 1).2.remaining := by
    rw [Cursor.remaining, hnotes, length_flatMap_noteWire]
    omega
  rw [← customer.encode_eq] at hname
  change ((Cursor.ofText customer.encode).skip 2).2.takeValue (.text 8) = _ at hname
  simp only [decode, hname, hage, hfirst, hsecond, notesFrom_of_rest hremaining hnotes]
  rfl

/-! ## Customers that come back -/

/-- The text is what trimming and cutting to a width make of it. -/
def IsCut (width : Nat) (text : String) : Prop :=
  (Unicode.trim text.toList).take width = text.toList

/-- **A customer with every text and two telephones.** Its texts have no blanks around them and are
no wider than their fields, and its age has the form in which the field gives an age back. -/
structure Customer.Complete (customer : Customer) : Prop where
  name : ∃ name, customer.name = some name ∧ IsCut 8 name
  age : ∃ age, customer.age = some age ∧
    (Layout.numeric 3).decode ((Layout.numeric 3).encode age.toList) = age.toList
  length_phones : customer.phones.length = 2
  number : ∀ phone ∈ customer.phones, ∃ number, phone.number = some number ∧ IsCut 5 number
  note : ∀ note ∈ customer.notes, IsCut 4 note

theorem recodeText_eq_self_iff {layout : Layout} {text : String} :
    recodeText layout text = text ↔ layout.recode text.toList = text.toList := by
  rw [recodeText, ← String.toList_inj, String.toList_ofList]

theorem recode_text_eq_self_iff {width : Nat} {text : String} :
    (Layout.text width).recode text.toList = text.toList ↔ IsCut width text := by
  have hblank : Unicode.isBlank ' ' = true := by decide
  have hfits : (Layout.text width).Fits text.toList ↔
      text.toList.length ≤ width ∧ Unicode.Trimmed text.toList := by
    rw [Layout.Fits, Layout.text, if_pos hblank]
  rw [Layout.recode_eq_self_iff, hfits, IsCut, ← Unicode.trim_eq_self_iff]
  constructor
  · rintro ⟨hle, htrim⟩
    rw [htrim, List.take_of_length_le hle]
  · intro hcut
    have hle : text.toList.length ≤ width := by
      rw [← hcut]
      exact List.length_take_le _ _
    -- trimming leaves a text no longer than it was, so that there is nothing to cut
    rw [List.take_of_length_le ((Unicode.trim_isInfix _).length_le.trans hle)] at hcut
    exact ⟨hle, hcut⟩

theorem some_recodeText_getD_iff {layout : Layout} {value : Option String} :
    some (recodeText layout (value.getD "")) = value ↔
      ∃ text, value = some text ∧ layout.recode text.toList = text.toList := by
  cases value with
  | none => simp
  | some text => simp [recodeText_eq_self_iff]

theorem Phone.normal_eq_self_iff {phone : Phone} :
    phone.normal = phone ↔ ∃ number, phone.number = some number ∧ IsCut 5 number := by
  obtain ⟨value⟩ := phone
  simp only [Phone.normal, Phone.mk.injEq, some_recodeText_getD_iff, recode_text_eq_self_iff]

theorem normal_phones_eq_self_iff {phones : List Phone} :
    [(phones[0]?.getD Phone.blank).normal, (phones[1]?.getD Phone.blank).normal] = phones ↔
      phones.length = 2 ∧ ∀ phone ∈ phones, phone.normal = phone := by
  match phones with
  | [] => simp
  | [_] => simp
  | [first, second] => simp
  | _ :: _ :: _ :: _ => simp

/-- **A customer is its own normal form if and only if it is complete.** -/
theorem Customer.normal_eq_self_iff {customer : Customer} :
    customer.normal = customer ↔ customer.Complete := by
  have hnotes : customer.notes.map (recodeText (.text 4)) = customer.notes ↔
      ∀ note ∈ customer.notes, IsCut 4 note := by
    conv_lhs => rhs; rw [← customer.notes.map_id]
    rw [List.map_inj_left]
    simp only [id_eq, recodeText_eq_self_iff, recode_text_eq_self_iff]
  obtain ⟨name, age, phones, notes⟩ := customer
  simp only [normal, Customer.mk.injEq, some_recodeText_getD_iff, normal_phones_eq_self_iff, hnotes,
    recode_text_eq_self_iff, Phone.normal_eq_self_iff]
  exact ⟨fun ⟨hname, hage, hphones, hnotes⟩ => ⟨hname, hage, hphones.1, hphones.2, hnotes⟩,
    fun h => ⟨h.name, h.age, ⟨h.length_phones, h.number⟩, h.note⟩⟩

/-! ## The codec of the format -/

theorem encodeNamed_customer (customer : Customer) :
    encodeNamed customerTable "Customer" customer.toRecord = .ok customer.encode := by
  have hindex : indexOf customerTable "Customer" = .ok 0 := rfl
  have hencode : Codec.encode customerTable 0 customer.toRecord = .ok customer.encode :=
    encodeWith_customer _ customer
  rw [encodeNamed, hindex]
  exact congrArg (Except.mapError CodecError.value) hencode

theorem decodeNamed_customer (text : List Char) :
    decodeNamed customerTable "Customer" text = .ok (Customer.decode text).toRecord := by
  have hindex : indexOf customerTable "Customer" = .ok 0 := rfl
  have hlength : customerTable.types.length = 2 := rfl
  have hfuel : 2 * (text.length + 1) + 1 = 2 * text.length + 1 + 2 := by omega
  have hdecode : Codec.decode customerTable 0 text = (Customer.decode text).toRecord := by
    rw [Codec.decode, hlength, hfuel]
    exact decodeWith_customer _ text
  rw [decodeNamed, hindex, ← hdecode]
  rfl

/-- **The emitted codec of a customer is the one of its format.** The format of a customer compiles
to a codec that writes for the record of a customer what the emitted routines write for the
customer, and reads from every text the record of the customer that they read. A customer comes
back if and only if it is complete. -/
theorem customer_codec :
    ∃ document, Document.parse "customer.xml" customerXml.toList = .ok document ∧
      let table := compile (.ofDocuments [document]) "Customer"
      (∀ customer : Customer,
        encodeNamed table "Customer" customer.toRecord = .ok customer.encode) ∧
      (∀ text, decodeNamed table "Customer" text = .ok (Customer.decode text).toRecord) ∧
      ∀ customer : Customer, Customer.decode customer.encode = customer ↔ customer.Complete := by
  obtain ⟨document, hparse, htable⟩ := exists_compile_customerXml
  refine ⟨document, hparse, ?_⟩
  simp only [htable]
  refine ⟨encodeNamed_customer, decodeNamed_customer, fun customer => ?_⟩
  rw [customer.decode_encode]
  exact Customer.normal_eq_self_iff

end FixedWidth.Sample
