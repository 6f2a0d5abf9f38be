import FixedWidth.Proofs.DocumentOrder

/-!
# Proofs/Additions — a document that nothing refers to

    registry ──a further document──▸ registry with more roots, some identifiers passed on

A document that is added behind others can take their identifiers over, also those of nodes that a
table was made from. It leaves the table of a root as it is, if neither the root nor a reference of
the forest that was there names one of its identifiers (`compile_registerDocument`): paths lead to
the nodes they led to, and an identifier that the document does not have names what it named.
-/

namespace FixedWidth.Schema

variable {registry : Registry} {document : Document} {id : String}

theorem Document.lookup?_eq_none (h : id ∉ document.identifiers) : document.lookup? id = none := by
  cases hl : document.lookup? id with
  | none => rfl
  | some node => exact absurd (mem_identifiers_of_lookup? hl) h

/-- An identifier that a document does not have names the same node when it is registered. -/
theorem Registry.lookup?_registerDocument_of_notMem (h : registry.index.Follows registry.roots)
    (h' : document.index.Follows document.roots) (hid : id ∉ document.identifiers) :
    registry.lookup? id = (registry.registerDocument document).lookup? id := by
  rw [lookup?_registerDocument h h', Document.lookup?_eq_none hid, Option.none_or]

end FixedWidth.Schema

namespace FixedWidth.Table

open Schema (Document Node Registry)

/-- **A further document does not disturb a table that refers to nothing in it.** If it has neither
the identifier of the root nor one that a reference of the registered documents names, the root has
the table that it had, whatever other identifiers the document takes over. -/
theorem compile_registerDocument {documents : List Document} {document : Document}
    (hparse : ∀ document ∈ documents, ∃ source text, Document.parse source text = .ok document)
    (hdocument : ∃ source text, Document.parse source text = .ok document) {id : String}
    (hroot : id ∉ document.identifiers)
    (hreferences : ∀ reference, (Registry.ofDocuments documents).Refers reference →
      reference ∉ document.identifiers) :
    compile ((Registry.ofDocuments documents).registerDocument document) id =
      compile (Registry.ofDocuments documents) id := by
  obtain ⟨source, text, htext⟩ := hdocument
  have hfollows := Registry.follows_ofDocuments hparse
  have hfollows' := Document.follows_ofRoots source document.roots
  rw [← Document.eq_ofRoots_of_parse htext] at hfollows'
  have htargets : (Registry.ofDocuments documents).SameTargets
      ((Registry.ofDocuments documents).registerDocument document) := fun reference hrefers =>
    Registry.lookup?_registerDocument_of_notMem hfollows hfollows' (hreferences reference hrefers)
  exact (compile_eq_of_sameTargets htargets
    (Registry.lookup?_registerDocument_of_notMem hfollows hfollows' hroot)).symm

/-- An order with one line, which refers to a price that is nowhere, and with a reference to
itself. -/
def order : Node :=
  { Node.ofTag "fmtDef" ⟨"o.xml", 1⟩ with
    id := some "O"
    children := [
      { Node.ofTag "record" ⟨"o.xml", 1⟩ with
        id := some "X"
        attributes := [("dataName", "R")]
        children := [{ Node.ofTag "refFmt" ⟨"o.xml", 1⟩ with refId := some "L" }] },
      { Node.ofTag "refFmt" ⟨"o.xml", 1⟩ with refId := some "O" }] }

/-- The document of an order. -/
def orders : List Document := [.ofRoots "o.xml" [order]]

/-- A definition that takes over the identifier of the line. -/
def takeover : Document :=
  .ofRoots "x.xml" [{ Node.ofTag "fmtDef" ⟨"x.xml", 1⟩ with
    id := some "X"
    children := [{ Node.ofTag "refFmt" ⟨"x.xml", 1⟩ with refId := some "O" }] }]

/-- The order keeps its table, with a reference that leads nowhere and a cycle, though its line
loses its identifier. -/
theorem orders_compile_registerDocument :
    (∀ document ∈ orders, ∃ source text, Document.parse source text = .ok document) ∧
      (∃ source text, Document.parse source text = .ok takeover) ∧
      "O" ∉ takeover.identifiers ∧
      (∀ reference, (Registry.ofDocuments orders).Refers reference →
        reference ∉ takeover.identifiers) ∧
      ((Registry.ofDocuments orders).registerDocument takeover).overrides =
        [⟨"X", ⟨0, [0]⟩, ⟨1, []⟩⟩] ∧
      (compile (Registry.ofDocuments orders) "O").types.map (fun type => (type.name, type.steps)) =
        [("O", [.nested 0, .cycle "O"]), ("R", [.unresolved "L"])] ∧
      compile ((Registry.ofDocuments orders).registerDocument takeover) "O" =
        compile (Registry.ofDocuments orders) "O" := by
  have hparse : ∀ document ∈ orders, ∃ source text, Document.parse source text = .ok document := by
    rw [orders, List.forall_mem_singleton]
    exact ⟨"o.xml", ("<fmtDef id=\"O\"><record id=\"X\" dataName=\"R\">" ++
      "<refFmt refId=\"L\"/></record><refFmt refId=\"O\"/></fmtDef>").toList, by rfl⟩
  have hdocument : ∃ source text, Document.parse source text = .ok takeover :=
    ⟨"x.xml", "<fmtDef id=\"X\"><refFmt refId=\"O\"/></fmtDef>".toList, by rfl⟩
  have hidentifiers : takeover.identifiers = ["X"] := rfl
  have honly : ∀ entry ∈ Schema.occurrences (Registry.ofDocuments orders).roots,
      entry.2.kind = .reference → entry.2.refId ≠ some "X" := by decide +kernel
  have hreferences : ∀ reference, (Registry.ofDocuments orders).Refers reference →
      reference ∉ takeover.identifiers := by
    rintro reference ⟨node, ⟨path, hpath⟩, hkind, href⟩
    rw [hidentifiers, List.mem_singleton]
    rintro rfl
    exact honly _ (Schema.mem_occurrences hpath) hkind href
  have hroot : "O" ∉ takeover.identifiers := by simp [hidentifiers]
  exact ⟨hparse, hdocument, hroot, hreferences, by decide +kernel, by decide +kernel,
    compile_registerDocument hparse hdocument hroot hreferences⟩

end FixedWidth.Table
