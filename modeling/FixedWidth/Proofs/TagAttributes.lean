import FixedWidth.Proofs.StartTags
import FixedWidth.Proofs.Tags
import Mathlib.Data.List.Nodup

/-!
# Proofs/TagAttributes — what a node holds of the attributes of its tag

    <numDecor length="1" digits="2"/>         length 1, digits 2
    <numDecor length="1" length="2"/>         length 1
    <numDecor length="1" digits=2/>           length 1

A node holds what is listed in its tag before a key comes again, whatever stands behind that. It
holds the last value of each name and nothing else if the keys of the tag differ; where a name comes
again with another value, its first value stays, so the condition is also necessary
(`Document.holdsLast_iff`).
-/

namespace FixedWidth.Schema

open Markup (Attribute Lists AllBlank Token Begins MarkupError bind_eq_ok expand isKey_of_isWord)

/-! ## Values of nodes -/

/-- What a node has under the name of an attribute. -/
def Node.value? (node : Node) (name : String) : Option String :=
  if name = "id" then node.id else if name = "refId" then node.refId else node.attribute? name

/-- Whether a node has the value of an attribute under its name. -/
def Node.HoldsEntry (node : Node) (entry : Attribute) : Prop :=
  ∃ value, expand entry.value = .ok value ∧
    node.value? (String.ofList entry.key) = some (String.ofList value)

/-- The last attribute with a name. -/
def lastNamed? (entries : List Attribute) (name : String) : Option Attribute :=
  entries.reverse.find? fun entry => String.ofList entry.key = name

/-- **A node with the last value of each name, and no other**, out of these attributes. -/
def Node.HoldsLast (node : Node) (entries : List Attribute) : Prop :=
  ∀ name, match lastNamed? entries name with
    | some entry => node.HoldsEntry entry
    | none => node.value? name = none

namespace Node

variable {node last : Node} {entry : Attribute} {entries : List Attribute}

@[simp]
theorem value?_ofTag (tag : String) (place : Provenance) (name : String) :
    (ofTag tag place).value? name = none := by
  rw [value?]
  split_ifs <;> rfl

theorem value?_setAttribute (node : Node) (name value other : String) :
    (node.setAttribute name value).value? other =
      if name = other then some value else node.value? other := by
  by_cases hother : name = other
  · subst hother
    rw [if_pos rfl, value?, setAttribute]
    split_ifs
    · rfl
    · rfl
    · exact NameMap.get?_insert_self _ _ _
  · rw [if_neg hother, setAttribute]
    -- The name is set in a field of its own, or the other one is read from its own, or neither.
    split_ifs with hid href
    · subst hid
      rw [value?, value?, if_neg (Ne.symm hother), if_neg (Ne.symm hother)]
      rfl
    · subst href
      rw [value?, value?, if_neg (Ne.symm hother), if_neg (Ne.symm hother)]
      rfl
    · rw [value?, value?]
      split_ifs
      · rfl
      · rfl
      · exact NameMap.get?_insert_of_ne _ hother _

theorem holdsEntry_head : node.head.HoldsEntry entry ↔ node.HoldsEntry entry := Iff.rfl

theorem holdsLast_head : node.head.HoldsLast entries ↔ node.HoldsLast entries := Iff.rfl

/-- Sets an attribute to its expanded value. -/
def setEntry (node : Node) (entry : Attribute) : Except MarkupError Node :=
  match expand entry.value with
  | .ok value => .ok (node.setAttribute (String.ofList entry.key) (String.ofList value))
  | .error cause => .error (.reference cause)

theorem foldlM_setEntry_cons : (entry :: entries).foldlM setEntry node = .ok last ↔
    ∃ next, node.setEntry entry = .ok next ∧ entries.foldlM setEntry next = .ok last := by
  rw [List.foldlM_cons, bind_eq_ok]

theorem of_setEntry (h : node.setEntry entry = .ok last) :
    last.HoldsEntry entry ∧
      ∀ name, String.ofList entry.key ≠ name → last.value? name = node.value? name := by
  rw [setEntry] at h
  split at h <;> cases h
  rename_i value hvalue
  refine ⟨⟨value, hvalue, ?_⟩, fun name hname => ?_⟩
  · rw [value?_setAttribute, if_pos rfl]
  · rw [value?_setAttribute, if_neg hname]

/-- Attributes with other names do not change a value. -/
theorem value?_foldlM (h : entries.foldlM setEntry node = .ok last) {name : String}
    (hname : ∀ entry ∈ entries, String.ofList entry.key ≠ name) :
    last.value? name = node.value? name := by
  induction entries generalizing node with
  | nil =>
    cases h
    rfl
  | cons entry entries ih =>
    obtain ⟨next, hnext, hrest⟩ := foldlM_setEntry_cons.1 h
    rw [List.forall_mem_cons] at hname
    rw [ih hrest hname.2, (of_setEntry hnext).2 name hname.1]

/-- **Attributes whose keys differ are all held.** -/
theorem holdsEntry_of_foldlM (h : entries.foldlM setEntry node = .ok last)
    (hdistinct : (entries.map (·.key)).Nodup) : ∀ entry ∈ entries, last.HoldsEntry entry := by
  induction entries generalizing node with
  | nil => exact List.forall_mem_nil _
  | cons entry entries ih =>
    obtain ⟨next, hnext, hrest⟩ := foldlM_setEntry_cons.1 h
    rw [List.map_cons, List.nodup_cons] at hdistinct
    refine List.forall_mem_cons.2 ⟨?_, ih hrest hdistinct.2⟩
    obtain ⟨value, hvalue, hheld⟩ := (of_setEntry hnext).1
    refine ⟨value, hvalue, (value?_foldlM hrest fun other hother heq => ?_).trans hheld⟩
    exact hdistinct.1 (List.mem_map.2 ⟨other, hother, String.ofList_inj.1 heq⟩)

end Node

/-! ## Repetitions -/

/-- Whether a key that comes again does so with another value. -/
def RepeatsDiffer (entries : List Attribute) : Prop :=
  entries.Pairwise fun first again =>
    first.key = again.key → expand first.value ≠ expand again.value

/-- Attributes have different keys up to the first one whose key comes again. -/
theorem exists_first_repetition {entries : List Attribute}
    (h : ¬(entries.map (·.key)).Nodup) :
    ∃ front entry back, entries = front ++ entry :: back ∧ (front.map (·.key)).Nodup ∧
      ∃ first ∈ front, first.key = entry.key := by
  induction entries using List.reverseRecOn with
  | nil => exact absurd List.nodup_nil h
  | append_singleton entries entry ih =>
    by_cases hfront : (entries.map (·.key)).Nodup
    · refine ⟨entries, entry, [], rfl, hfront, ?_⟩
      by_contra hnew
      refine h ?_
      rw [List.map_append, List.map_singleton, List.nodup_append_comm]
      exact List.nodup_cons.2 ⟨fun hmem => hnew (List.mem_map.1 hmem), hfront⟩
    · obtain ⟨front, again, back, rfl, hfront, hagain⟩ := ih hfront
      exact ⟨front, again, back ++ [entry], by simp, hfront, hagain⟩

theorem lastNamed?_eq_none {entries : List Attribute} {name : String}
    (h : lastNamed? entries name = none) : ∀ entry ∈ entries, String.ofList entry.key ≠ name := by
  simpa [lastNamed?] using h

/-- A name that comes again has its last value behind the first one. -/
theorem exists_lastNamed?_eq (front : List Attribute) (entry : Attribute) (back : List Attribute) :
    ∃ last, lastNamed? (front ++ entry :: back) (String.ofList entry.key) = some last ∧
      last ∈ entry :: back ∧ last.key = entry.key := by
  have hfound : ((entry :: back).reverse.find? fun other =>
      String.ofList other.key = String.ofList entry.key).isSome := by
    simp
  obtain ⟨last, hlast⟩ := Option.isSome_iff_exists.1 hfound
  refine ⟨last, ?_, List.mem_reverse.1 (List.mem_of_find?_eq_some hlast),
    String.ofList_inj.1 (by simpa using List.find?_some hlast)⟩
  rw [lastNamed?, List.reverse_append, List.find?_append, hlast]
  rfl

/-- The attribute that is held under a name is the only one. -/
theorem Node.HoldsEntry.expand_eq {node : Node} {entry other : Attribute}
    (h : node.HoldsEntry entry) (h' : node.HoldsEntry other) (hkey : entry.key = other.key) :
    expand entry.value = expand other.value := by
  obtain ⟨value, hvalue, hheld⟩ := h
  obtain ⟨value', hvalue', hheld'⟩ := h'
  rw [hkey, hheld', Option.some_inj, String.ofList_inj] at hheld
  rw [hvalue, hvalue', hheld]

/-! ## Start tags -/

namespace Elements

variable {place : Provenance} {content listed others : List Char} {node : Node}
  {entries : List Attribute}

/-- **What is listed before a key comes again is held**, whatever stands behind it. -/
theorem holdsEntry_of_ofStartTag (h : ofStartTag place content = .ok node)
    (hcontent : Markup.dropWord content = listed ++ others) (hlists : Lists listed entries)
    (hdistinct : (entries.map (·.key)).Nodup) : ∀ entry ∈ entries, node.HoldsEntry entry := by
  have hfuel : listed.length ≤ (listed ++ others).length := by
    rw [List.length_append]
    exact Nat.le_add_right _ _
  obtain ⟨fuel, seen, hread⟩ :=
    hlists.attributesFrom_append (fun _ _ => List.not_mem_nil) hdistinct hfuel others
  have hall : Markup.tagAttributes content =
      entries ++ Markup.attributesFrom fuel seen others := by
    rw [Markup.tagAttributes, hcontent, Markup.attributes, hread]
  intro entry hmem
  refine Node.holdsEntry_of_foldlM h (Markup.nodup_attributesFrom _ _ _) entry ?_
  rw [hall]
  exact List.mem_append_left _ hmem

/-- **The last value of each name is held exactly if no key comes again**, in a tag that lists its
attributes to its end. -/
theorem holdsLast_ofStartTag_iff (h : ofStartTag place content = .ok node)
    (hcontent : Markup.dropWord content = listed ++ others) (hlists : Lists listed entries)
    (hblank : AllBlank others) (hdiffer : RepeatsDiffer entries) :
    node.HoldsLast entries ↔ (entries.map (·.key)).Nodup := by
  constructor
  · intro hlast
    by_contra hrepeats
    obtain ⟨front, entry, back, rfl, hdistinct, first, hfirst, hkey⟩ :=
      exists_first_repetition hrepeats
    obtain ⟨before, behind, rfl, hfront, -⟩ := hlists.exists_append
    rw [List.append_assoc] at hcontent
    have hheld := holdsEntry_of_ofStartTag h hcontent hfront hdistinct first hfirst
    obtain ⟨last, hentry, hmem, hsame⟩ := exists_lastNamed?_eq front entry back
    have hfound := hlast (String.ofList entry.key)
    rw [hentry] at hfound
    have hkeys : first.key = last.key := hkey.trans hsame.symm
    exact (List.pairwise_append.1 hdiffer).2.2 first hfirst last hmem hkeys
      (hheld.expand_eq hfound hkeys)
  · intro hdistinct name
    split
    · rename_i entry hentry
      exact holdsEntry_of_ofStartTag h hcontent hlists hdistinct entry
        (List.mem_reverse.1 (List.mem_of_find?_eq_some hentry))
    · rename_i hentry
      have hread : Markup.tagAttributes content = entries := by
        rw [Markup.tagAttributes, hcontent, hlists.attributes_eq hdistinct hblank]
      refine (Node.value?_foldlM h fun entry hmem => ?_).trans (Node.value?_ofTag _ _ name)
      exact lastNamed?_eq_none hentry entry (hread ▸ hmem)

end Elements

/-! ## Documents -/

/-- **What a node holds of the attributes of its tag.** In a document, take any start tag or empty
tag and its node, the one behind as many as there are start tags before it. What is listed in the
tag before a key comes again is held, whatever stands behind it. In a tag that lists its attributes
to its end, and where a key that comes again does so with another value, the node holds the last
value of each name and nothing else if and only if no key comes again. -/
theorem Document.holdsLast_iff {source : String} {text : List Char} {document : Document}
    (hparse : Document.parse source text = .ok document) {before : List Token} {tag : Token}
    {cs after content : List Char} (hbefore : Begins (dropByteOrderMark text) before cs)
    (hbegins : Begins cs [tag] after) (htag : tag.startContent? = some content) :
    ∃ path node,
      (occurrences document.roots)[before.countP Token.isStart]? = some (path, node) ∧
      node.tag = String.ofList (Markup.tagName content) ∧
      ∀ listed others entries, Markup.dropWord content = listed ++ others → Lists listed entries →
        ((entries.map (·.key)).Nodup → ∀ entry ∈ entries, node.HoldsEntry entry) ∧
        (AllBlank others → RepeatsDiffer entries →
          (node.HoldsLast entries ↔ (entries.map (·.key)).Nodup)) := by
  obtain ⟨path, node, hnode, hhead⟩ := exists_node_of_begins hparse hbefore hbegins htag
  refine ⟨path, node, hnode, (Elements.of_ofStartTag hhead).1,
    fun listed others entries hcontent hlists => ⟨fun hdistinct => ?_, fun hblank hdiffer => ?_⟩⟩
  · exact fun entry hmem => Node.holdsEntry_head.1
      (Elements.holdsEntry_of_ofStartTag hhead hcontent hlists hdistinct entry hmem)
  · exact Node.holdsLast_head.symm.trans
      (Elements.holdsLast_ofStartTag_iff hhead hcontent hlists hblank hdiffer)

/-- A record with a decorator in it. -/
def decorated : List Char := "<record><numDecor length=\"1\" id='N'/></record>".toList

/-- The document of the record. -/
def decoratedDocument : Document :=
  .ofRoots "d.xml" [{ Node.ofTag "record" ⟨"d.xml", 1⟩ with
    children := [{ Node.ofTag "numDecor" ⟨"d.xml", 1⟩ with
      id := some "N", attributes := [("length", "1")] }] }]

/-- The decorator has what its tag lists. -/
theorem decorated_holdsLast :
    Document.parse "d.xml" decorated = .ok decoratedDocument ∧
      ∃ path node, (occurrences decoratedDocument.roots)[1]? = some (path, node) ∧
        node.tag = "numDecor" ∧
        node.HoldsLast [⟨"length".toList, "1".toList⟩, ⟨"id".toList, "N".toList⟩] := by
  have hparse : Document.parse "d.xml" decorated = .ok decoratedDocument := by rfl
  have hbefore : Begins (dropByteOrderMark decorated) [.startTag "record".toList]
      "<numDecor length=\"1\" id='N'/></record>".toList := .cons rfl .nil
  have hbegins : Begins "<numDecor length=\"1\" id='N'/></record>".toList
      [.emptyTag "numDecor length=\"1\" id='N'".toList] "</record>".toList := .cons rfl .nil
  have hlists : Lists (" length=\"1\"".toList ++ (" id='N'".toList ++ []))
      [⟨"length".toList, "1".toList⟩, ⟨"id".toList, "N".toList⟩] :=
    .cons (.plain (isKey_of_isWord (by decide)) (.inl rfl) (by decide))
      (.cons (.plain (isKey_of_isWord (by decide)) (.inr rfl) (by decide)) .nil)
  obtain ⟨path, node, hnode, htag, hholds⟩ := Document.holdsLast_iff hparse hbefore hbegins rfl
  have hiff := (hholds _ [] _ rfl hlists).2 (List.forall_mem_nil _) (by simp [RepeatsDiffer])
  exact ⟨hparse, path, node, hnode, htag, hiff.2 (by decide)⟩

/-- The attributes of a decorator with two lengths. -/
def twoLengths : List Attribute :=
  [⟨"length".toList, "1".toList⟩, ⟨"length".toList, "2".toList⟩]

/-- **The last of two lengths is lost, and so is a length without quotes**, and both documents are
read. -/
theorem second_length_lost :
    Document.parse "d.xml" "<delimDecor length=\"1\" length=\"2\"/>".toList =
        .ok (.ofRoots "d.xml" [{ Node.ofTag "delimDecor" ⟨"d.xml", 1⟩ with
          attributes := [("length", "1")] }]) ∧
      Lists " length=\"1\" length=\"2\"".toList twoLengths ∧
      ¬Node.HoldsLast { Node.ofTag "delimDecor" ⟨"d.xml", 1⟩ with
        attributes := [("length", "1")] } twoLengths ∧
      Document.parse "d.xml" "<delimDecor length=3/>".toList =
        .ok (.ofRoots "d.xml" [Node.ofTag "delimDecor" ⟨"d.xml", 1⟩]) := by
  refine ⟨by rfl, ?_, fun h => ?_, by rfl⟩
  · have hfirst : Attribute.Spelled ⟨"length".toList, "1".toList⟩ " length=\"1\"".toList :=
      .plain (isKey_of_isWord (by decide)) (.inl rfl) (by decide)
    have hsecond : Attribute.Spelled ⟨"length".toList, "2".toList⟩ " length=\"2\"".toList :=
      .plain (isKey_of_isWord (by decide)) (.inl rfl) (by decide)
    exact .cons hfirst (.cons hsecond .nil)
  · have hlast : lastNamed? twoLengths "length" = some ⟨"length".toList, "2".toList⟩ := by decide
    have hlength := h "length"
    rw [hlast] at hlength
    obtain ⟨value, hvalue, hheld⟩ := hlength
    have htwo : expand "2".toList = .ok "2".toList := by rfl
    cases hvalue.symm.trans htwo
    exact absurd hheld (by decide)

end FixedWidth.Schema
