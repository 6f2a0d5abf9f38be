import FixedWidth.Proofs.Identifiers
import FixedWidth.Proofs.Inlining

/-!
# Proofs/Replacement — one reference of a forest, written out in place

`Registry.replace` puts a node in the place of another one and leaves the index as it is. Paths lead
to the nodes that they led to, up to what is below (`Registry.resolve?_replace`), except for the
path of the replaced node itself; a node without an identifier is not looked for there. So a
reference can be written out without any change to the table (`compile_replace`).
-/

namespace FixedWidth.Schema

/-! ## Replacing a node -/

/-- The node with another one at the end of child indices. -/
def Node.replaceAt : Node → List Nat → Node → Node
  | _, [], new => new
  | node, index :: rest, new =>
    node.withChildren (node.children.modify index fun child => child.replaceAt rest new)

/-- The path of a child. -/
def Path.child (path : Path) (index : Nat) : Path :=
  { path with children := path.children ++ [index] }

/-- The registry with another node at a path. -/
def Registry.replace (registry : Registry) (path : Path) (new : Node) : Registry :=
  { registry with
    roots := registry.roots.modify path.root fun root => root.replaceAt path.children new }

/-- A list is related to one with a changed item if its items are related to themselves and the
item to what it becomes. -/
theorem forall₂_modify {α : Type} {R : α → α → Prop} {list : List α} {index : Nat} {f : α → α}
    (hsame : ∀ a, R a a) (h : ∀ a, list[index]? = some a → R a (f a)) :
    List.Forall₂ R list (list.modify index f) := by
  refine List.forall₂_iff_get.2 ⟨by simp, fun i hi hi' => ?_⟩
  rw [List.get_eq_getElem, List.get_eq_getElem, List.getElem_modify]
  split
  · rename_i heq
    subst heq
    exact h _ (List.getElem?_eq_getElem hi)
  · exact hsame _

theorem Alike.kind {registry : Registry} {node node' : Node} (h : Alike registry node node') :
    node'.kind = node.kind := by
  obtain ⟨children, rfl, -, -⟩ := h
  rfl

section Replaced

variable {registry : Registry} {above : List Nat} {index : Nat}
  {node parent child new target : Node} {path : Path}

/-- **Replacing a node changes the nodes around it below only.** -/
theorem Node.alike_replaceAt (hparent : node.descend? above = some parent)
    (hchild : parent.children[index]? = some child) (hnamed : ¬ parent.IsNamedList)
    (hnew : Inlined registry child new) :
    Alike registry node (node.replaceAt (above ++ [index]) new) := by
  induction above generalizing node with
  | nil =>
    obtain rfl : node = parent := Option.some.inj hparent
    refine ⟨_, rfl, forall₂_modify .same fun other hother => ?_, fun h => absurd h hnamed⟩
    cases hchild.symm.trans hother
    exact hnew
  | cons first rest ih =>
    obtain ⟨next, hnext, hdown⟩ := Option.bind_eq_some_iff.1 hparent
    have hbelow : ∀ other, node.children[first]? = some other →
        Alike registry other (other.replaceAt (rest ++ [index]) new) := by
      intro other hother
      cases hnext.symm.trans hother
      exact ih hdown
    exact ⟨_, rfl, forall₂_modify .same fun other hother => (hbelow other hother).inlined,
      fun _ => forall₂_modify (fun _ => rfl) fun other hother => (hbelow other hother).kind⟩

theorem Node.descend?_replaceAt_self (node : Node) (index : Nat) (more rest : List Nat)
    (new : Node) :
    (node.replaceAt (index :: more) new).descend? (index :: rest) =
      (node.children[index]?).bind fun child => (child.replaceAt more new).descend? rest := by
  rw [replaceAt, descend?, children_withChildren, List.getElem?_modify_eq]
  cases node.children[index]? <;> rfl

theorem Node.descend?_replaceAt_of_ne {first : Nat} (h : first ≠ index) (node : Node)
    (more rest : List Nat) (new : Node) :
    (node.replaceAt (index :: more) new).descend? (first :: rest) =
      node.descend? (first :: rest) := by
  rw [replaceAt, descend?, descend?, children_withChildren, List.getElem?_modify_ne _ _ h.symm]

/-- **Child indices lead to the same node**, up to what is below it, unless they lead to the one
that is replaced. -/
theorem Node.descend?_replaceAt (hparent : node.descend? above = some parent)
    (hchild : parent.children[index]? = some child) (hnamed : ¬ parent.IsNamedList)
    (hnew : Inlined registry child new) (hleaf : child.children = []) {indices : List Nat}
    (htarget : node.descend? indices = some target) (hne : indices ≠ above ++ [index]) :
    ∃ target', (node.replaceAt (above ++ [index]) new).descend? indices = some target' ∧
      Alike registry target target' := by
  induction indices generalizing node above with
  | nil =>
    obtain rfl : node = target := Option.some.inj htarget
    exact ⟨_, rfl, alike_replaceAt hparent hchild hnamed hnew⟩
  | cons first rest ih =>
    obtain ⟨next, hnext, hdown⟩ := Option.bind_eq_some_iff.1 htarget
    cases above with
    | nil =>
      obtain rfl : node = parent := Option.some.inj hparent
      by_cases hfirst : first = index
      · -- nothing stands below the node that is replaced
        subst hfirst
        cases hchild.symm.trans hnext
        cases rest with
        | nil => exact absurd rfl hne
        | cons => simp [descend?, hleaf] at hdown
      · rw [List.nil_append, descend?_replaceAt_of_ne hfirst]
        exact ⟨target, htarget, .refl registry target⟩
    | cons top above =>
      by_cases hfirst : first = top
      · subst hfirst
        obtain ⟨next', hnext', hparent'⟩ := Option.bind_eq_some_iff.1 hparent
        cases hnext.symm.trans hnext'
        rw [List.cons_append, descend?_replaceAt_self, hnext]
        exact ih hparent' hdown fun heq => hne (by rw [heq, List.cons_append])
      · rw [List.cons_append, descend?_replaceAt_of_ne hfirst]
        exact ⟨target, htarget, .refl registry target⟩

/-- **Paths lead to the same nodes**, up to what is below them, except for the path of the node that
is replaced. -/
theorem Registry.resolve?_replace (hparent : registry.resolve? path = some parent)
    (hchild : parent.children[index]? = some child) (hnamed : ¬ parent.IsNamedList)
    (hnew : Inlined registry child new) (hleaf : child.children = []) {other : Path}
    (htarget : registry.resolve? other = some target) (hne : other ≠ path.child index) :
    ∃ target', (registry.replace (path.child index) new).resolve? other = some target' ∧
      Alike registry target target' := by
  obtain ⟨root, hroot, hdown⟩ := Option.bind_eq_some_iff.1 hparent
  obtain ⟨root', hroot', hdown'⟩ := Option.bind_eq_some_iff.1 htarget
  rw [resolve?, Path.resolve?, replace, Path.child]
  by_cases hsame : other.root = path.root
  · rw [hsame] at hroot' ⊢
    cases hroot.symm.trans hroot'
    rw [List.getElem?_modify_eq, hroot]
    refine Node.descend?_replaceAt hdown hchild hnamed hnew hleaf hdown' fun heq => hne ?_
    rw [Path.child, ← heq, ← hsame]
  · rw [List.getElem?_modify_ne _ _ (Ne.symm hsame), hroot']
    exact ⟨target, hdown', .refl registry target⟩

/-- The path of a child leads to the child. -/
theorem Registry.resolve?_child (hparent : registry.resolve? path = some parent)
    (hchild : parent.children[index]? = some child) :
    registry.resolve? (path.child index) = some child := by
  obtain ⟨root, hroot, hdown⟩ := Option.bind_eq_some_iff.1 hparent
  rw [resolve?, Path.resolve?, Path.child, hroot, Option.bind_some, Node.descend?_append, hdown]
  exact hchild

/-- **Replacing a node without an identifier** leaves what identifiers name, up to what is below. -/
theorem Registry.inlines_replace (hfollows : registry.index.Follows registry.roots)
    (hparent : registry.resolve? path = some parent)
    (hchild : parent.children[index]? = some child) (hnamed : ¬ parent.IsNamedList)
    (hnew : Inlined registry child new) (hleaf : child.children = []) (hid : child.id = none) :
    registry.Inlines (registry.replace (path.child index) new) := by
  have hfound : ∀ reference other, NameMap.get? registry.index.ids reference = some other →
      ∃ target target', registry.lookup? reference = some target ∧
        (registry.replace (path.child index) new).lookup? reference = some target' ∧
        Alike registry target target' := by
    intro reference other hother
    obtain ⟨target, htarget, hcarries⟩ := hfollows.exists_of_get? hother
    have hne : other ≠ path.child index := by
      rintro rfl
      cases (resolve?_child hparent hchild).symm.trans htarget
      rw [hid] at hcarries
      cases hcarries
    obtain ⟨target', htarget', halike⟩ :=
      resolve?_replace hparent hchild hnamed hnew hleaf htarget hne
    refine ⟨target, target', ?_, ?_, halike⟩
    · rw [lookup?, hother, Option.bind_some, htarget]
    · rw [lookup?, replace, hother, Option.bind_some]
      exact htarget'
  refine ⟨fun reference hmissing => ?_, fun reference target hl => ?_⟩
  · cases hget : NameMap.get? registry.index.ids reference with
    | none => rw [lookup?, replace, hget, Option.bind_none]
    | some other =>
      obtain ⟨target, -, hl, -⟩ := hfound reference other hget
      cases hmissing.symm.trans hl
  · obtain ⟨other, hget, -⟩ := Option.bind_eq_some_iff.1 hl
    obtain ⟨target, target', hl', hnew', halike⟩ := hfound reference other hget
    cases hl.symm.trans hl'
    exact ⟨target', hnew', halike⟩

end Replaced

end FixedWidth.Schema

namespace FixedWidth.Table

open Schema (Document Node Path Registry)

/-- **A reference stands for the children of what it names.** Written out in place, as a transparent
node with those children and that repetition, it leaves the table as it is: of documents that were
read, from every root without a reference into itself. -/
theorem compile_replace {documents : List Document}
    (hparse : ∀ document ∈ documents, ∃ source text, Document.parse source text = .ok document)
    {id : String}
    (hacyclic : ∀ reference inType place, .referenceCycle reference inType place ∉
      (compile (Registry.ofDocuments documents) id).diagnostics)
    {path : Path} {index : Nat} {parent node target copy : Node} {reference : String}
    (hparent : (Registry.ofDocuments documents).resolve? path = some parent)
    (hnode : parent.children[index]? = some node)
    (hnamed : ¬ parent.IsNamedList) (hkind : node.kind = .reference) (hid : node.id = none)
    (hleaf : node.children = []) (href : node.refId = some reference)
    (hfound : (Registry.ofDocuments documents).lookup? reference = some target)
    (hcopy : target.CopyOf node.place copy) :
    compile ((Registry.ofDocuments documents).replace (path.child index) copy) id =
      compile (Registry.ofDocuments documents) id := by
  have hfollows := Registry.follows_ofDocuments hparse
  have hinlined := Schema.Inlined.copy hkind href hfound hcopy
  exact compile_eq_of_inlines
    (Registry.inlines_replace hfollows hparent hnode hnamed hinlined hleaf hid) hacyclic

/-- The lines of a receipt, three times the record inside. -/
def receiptLines : Node :=
  { Node.ofTag "any" ⟨"r.xml", 1⟩ with
    id := some "L"
    attributes := [("times", "3")]
    children := [{ Node.ofTag "record" ⟨"r.xml", 1⟩ with
      attributes := [("dataName", "R")]
      children := [
        { Node.ofTag "fString" ⟨"r.xml", 1⟩ with attributes := [("dataName", "F")] },
        { Node.ofTag "Decor" ⟨"r.xml", 1⟩ with attributes := [("length", "4")] }] }] }

/-- A receipt, which refers to its lines. -/
def receipt : Node :=
  { Node.ofTag "fmtDef" ⟨"r.xml", 1⟩ with
    id := some "O"
    children := [{ Node.ofTag "refFmt" ⟨"r.xml", 1⟩ with refId := some "L" }] }

/-- The lines, written out in place of the reference. -/
def writtenOut : Node :=
  { Node.ofTag "any" ⟨"r.xml", 1⟩ with
    attributes := [("times", "3")]
    children := receiptLines.children }

/-- The documents of a receipt and of its lines. -/
def receipts : List Document :=
  [.ofRoots "r.xml" [receipt], .ofRoots "r.xml" [receiptLines]]

/-- A receipt has a list of three records, whether they are referred to or written out. -/
theorem receipt_compile_replace :
    (∀ document ∈ receipts, ∃ source text, Document.parse source text = .ok document) ∧
      (compile (Registry.ofDocuments receipts) "O").types.map (fun type =>
          (type.name, type.properties.map fun property => (property.name, property.kind))) =
        [("O", [("R", .list (.record 1) (.fixed 3))]), ("R", [("F", .text (some (.text 4)))])] ∧
      receiptLines.CopyOf ⟨"r.xml", 1⟩ writtenOut ∧
      compile ((Registry.ofDocuments receipts).replace ((⟨0, []⟩ : Path).child 0) writtenOut) "O" =
        compile (Registry.ofDocuments receipts) "O" := by
  have hparse : ∀ document ∈ receipts, ∃ source text,
      Document.parse source text = .ok document := by
    rw [receipts, List.forall_mem_cons, List.forall_mem_singleton]
    exact ⟨⟨"r.xml", "<fmtDef id=\"O\"><refFmt refId=\"L\"/></fmtDef>".toList, by rfl⟩,
      "r.xml", ("<any id=\"L\" times=\"3\"><record dataName=\"R\">" ++
        "<fString dataName=\"F\"/><Decor length=\"4\"/></record></any>").toList, by rfl⟩
  have hdiagnostics : (compile (Registry.ofDocuments receipts) "O").diagnostics = [] := by
    decide +kernel
  have hcopy : receiptLines.CopyOf ⟨"r.xml", 1⟩ writtenOut := ⟨by decide, rfl, rfl, rfl⟩
  have hnamed : ¬ receipt.IsNamedList := fun h => absurd h.1 (by decide)
  have hparent : (Registry.ofDocuments receipts).resolve? ⟨0, []⟩ = some receipt := rfl
  have hfound : (Registry.ofDocuments receipts).lookup? "L" = some receiptLines := rfl
  refine ⟨hparse, by decide +kernel, hcopy, ?_⟩
  exact compile_replace hparse (by simp [hdiagnostics]) hparent rfl hnamed (by decide) rfl rfl rfl
    hfound hcopy

end FixedWidth.Table
