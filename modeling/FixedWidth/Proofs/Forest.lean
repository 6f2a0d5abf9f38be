import FixedWidth.Schema.Registry

/-!
# Proofs/Forest — the nodes of a registry

A registry holds the nodes that its paths lead to (`Registry.Holds`). Children and the nodes found
by an identifier are among them, and `occurrences` lists every one, so that its length bounds what
is made once for each node.
-/

namespace FixedWidth.Schema

/-! ## Paths and the list of occurrences -/

/-- Going down one more level at the end of a path. -/
theorem Node.descend?_append (node : Node) (path : List Nat) (index : Nat) :
    node.descend? (path ++ [index]) = (node.descend? path).bind (·.children[index]?) := by
  induction path generalizing node with
  | nil => cases h : node.children[index]? <;> simp [descend?, h]
  | cons first rest ih =>
    rw [List.cons_append, descend?, descend?]
    cases node.children[first]? with
    | none => rfl
    | some child => exact ih child

/-- What stands below a child stands below its siblings' list, under the child's index. -/
theorem Node.mem_descendantsFrom {children : List Node} {index : Nat} {child target : Node}
    {path : List Nat} (hc : children[index]? = some child)
    (ht : (path, target) ∈ child.descendants) (start : Nat) :
    ((start + index) :: path, target) ∈ descendants.descendantsFrom start children := by
  induction children generalizing start index with
  | nil => simp at hc
  | cons first rest ih =>
    rw [descendants.descendantsFrom, List.mem_append]
    cases index with
    | zero =>
      obtain rfl : first = child := by simpa using hc
      exact Or.inl (List.mem_map.2 ⟨(path, target), ht, by simp⟩)
    | succ index =>
      have hrest := ih (by simpa using hc) (start + 1)
      rw [show start + 1 + index = start + (index + 1) by omega] at hrest
      exact Or.inr hrest

/-- **A node that child indices lead to is listed with them.** -/
theorem Node.mem_descendants {node target : Node} {path : List Nat}
    (h : node.descend? path = some target) : (path, target) ∈ node.descendants := by
  induction path generalizing node with
  | nil =>
    obtain rfl : node = target := by simpa [descend?] using h
    cases node
    simp [descendants]
  | cons index rest ih =>
    rw [descend?, Option.bind_eq_some_iff] at h
    obtain ⟨child, hchild, hrest⟩ := h
    have hmem := mem_descendantsFrom hchild (ih hrest) 0
    cases node
    rw [Nat.zero_add] at hmem
    exact List.mem_cons_of_mem _ hmem

theorem mem_occurrencesFrom {roots : List Node} {path : Path} {node : Node}
    (h : path.resolve? roots = some node) (start : Nat) :
    (path.offset start, node) ∈ occurrencesFrom start roots := by
  obtain ⟨root, children⟩ := path
  induction roots generalizing start root with
  | nil => simp [Path.resolve?] at h
  | cons first rest ih =>
    rw [occurrencesFrom, List.mem_append]
    cases root with
    | zero =>
      have hfirst : first.descend? children = some node := by simpa [Path.resolve?] using h
      refine Or.inl (List.mem_map.2 ⟨(children, node), Node.mem_descendants hfirst, ?_⟩)
      simp [Path.offset]
    | succ root =>
      have hrest := ih (start + 1) root (by simpa [Path.resolve?] using h)
      rw [Path.offset, show root + (start + 1) = root + 1 + start by omega] at hrest
      exact Or.inr hrest

/-- **Every node that a path leads to is listed with that path.** -/
theorem mem_occurrences {roots : List Node} {path : Path} {node : Node}
    (h : path.resolve? roots = some node) : (path, node) ∈ occurrences roots :=
  mem_occurrencesFrom h 0

/-! ## The nodes of a registry -/

namespace Registry

variable {registry : Registry} {node : Node}

/-- Some path of the registry leads to the node. -/
def Holds (registry : Registry) (node : Node) : Prop :=
  ∃ path, registry.resolve? path = some node

theorem Holds.mem_occurrences (h : registry.Holds node) :
    node ∈ (occurrences registry.roots).map Prod.snd := by
  obtain ⟨path, hp⟩ := h
  exact List.mem_map.2 ⟨(path, node), Schema.mem_occurrences hp, rfl⟩

theorem Holds.child {child : Node} (h : registry.Holds node) (hc : child ∈ node.children) :
    registry.Holds child := by
  obtain ⟨path, hp⟩ := h
  obtain ⟨index, hi⟩ := List.mem_iff_getElem?.1 hc
  refine ⟨⟨path.root, path.children ++ [index]⟩, ?_⟩
  rw [resolve?, Path.resolve?, Option.bind_eq_some_iff] at hp ⊢
  obtain ⟨root, hroot, hdown⟩ := hp
  exact ⟨root, hroot, by rw [Node.descend?_append, hdown]; exact hi⟩

theorem holds_of_lookup? {id : String} (h : registry.lookup? id = some node) :
    registry.Holds node := by
  obtain ⟨path, -, hp⟩ := Option.bind_eq_some_iff.1 h
  exact ⟨path, hp⟩

theorem mem_identifiers_of_lookup? {id : String} (h : registry.lookup? id = some node) :
    id ∈ registry.identifiers := by
  obtain ⟨path, hp, -⟩ := Option.bind_eq_some_iff.1 h
  exact NameMap.mem_names_of_get? hp

end Registry

end FixedWidth.Schema
