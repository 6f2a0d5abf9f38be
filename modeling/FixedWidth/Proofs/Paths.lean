import FixedWidth.Proofs.Forest
import Mathlib.Data.List.Nodup

/-!
# Proofs/Paths — a forest as a list of nodes with their paths

`occurrences` lists exactly the nodes that paths lead to (`mem_occurrences_iff`), each path once
(`nodup_occurrences`). A forest that gets more roots behind its own lists the nodes that it had and
then the new ones, whose paths begin where the old roots end (`occurrences_append`).
-/

namespace FixedWidth.Schema

variable {roots more : List Node} {path : Path} {node : Node}

/-! ## Below one node -/

/-- What a list of siblings lists stands below one of them, under its index. -/
theorem Node.exists_of_mem_descendantsFrom {children : List Node} {start : Nat} {target : Node}
    {indices : List Nat} (h : (indices, target) ∈ descendants.descendantsFrom start children) :
    ∃ index child rest, indices = (start + index) :: rest ∧ children[index]? = some child ∧
      (rest, target) ∈ child.descendants := by
  induction children generalizing start with
  | nil => simp [descendants.descendantsFrom] at h
  | cons first more ih =>
    rw [descendants.descendantsFrom, List.mem_append] at h
    rcases h with hfirst | hmore
    · obtain ⟨⟨rest, below⟩, hmem, heq⟩ := List.mem_map.1 hfirst
      cases heq
      exact ⟨0, first, rest, rfl, rfl, hmem⟩
    · obtain ⟨index, child, rest, rfl, hchild, hmem⟩ := ih hmore
      exact ⟨index + 1, child, rest, by rw [Nat.add_right_comm, Nat.add_assoc], hchild, hmem⟩

/-- **A node that is listed with child indices is the one that they lead to.** -/
theorem Node.descend?_of_mem_descendants {target : Node} {indices : List Nat}
    (h : (indices, target) ∈ node.descendants) : node.descend? indices = some target := by
  induction indices generalizing node with
  | nil =>
    cases node
    rw [descendants, List.mem_cons] at h
    rcases h with heq | hbelow
    · cases heq
      rfl
    · obtain ⟨_, _, _, heq, -⟩ := exists_of_mem_descendantsFrom hbelow
      cases heq
  | cons first rest ih =>
    cases node
    rw [descendants, List.mem_cons] at h
    rcases h with heq | hbelow
    · cases heq
    · obtain ⟨index, child, rest', heq, hchild, hmem⟩ := exists_of_mem_descendantsFrom hbelow
      rw [Nat.zero_add] at heq
      cases heq
      rw [descend?, hchild]
      exact ih hmem

mutual

/-- Below a node no child indices are listed twice. -/
theorem Node.nodup_descendants : ∀ node : Node, (node.descendants.map Prod.fst).Nodup
  | ⟨tag, id, refId, attributes, text, children, place⟩ => by
    rw [descendants, List.map_cons, List.nodup_cons]
    refine ⟨fun hmem => ?_, nodup_descendantsFrom 0 children⟩
    obtain ⟨⟨indices, target⟩, hbelow, rfl⟩ := List.mem_map.1 hmem
    obtain ⟨_, _, _, heq, -⟩ := exists_of_mem_descendantsFrom hbelow
    cases heq

theorem Node.nodup_descendantsFrom : ∀ (start : Nat) (children : List Node),
    ((descendants.descendantsFrom start children).map Prod.fst).Nodup
  | _, [] => List.nodup_nil
  | start, child :: rest => by
    rw [descendants.descendantsFrom, List.map_append, List.map_map, List.nodup_append']
    refine ⟨?_, nodup_descendantsFrom (start + 1) rest, ?_⟩
    · have := (nodup_descendants child).map (List.cons_injective (a := start))
      rwa [List.map_map] at this
    · intro indices hchild hrest
      obtain ⟨⟨below, target⟩, -, rfl⟩ := List.mem_map.1 hchild
      obtain ⟨⟨indices, target'⟩, hmem, heq⟩ := List.mem_map.1 hrest
      obtain ⟨index, _, _, rfl, -⟩ := exists_of_mem_descendantsFrom hmem
      have hhead := (List.cons.inj heq).1
      omega

end

/-! ## A whole forest -/

theorem exists_of_mem_occurrencesFrom {start : Nat}
    (h : (path, node) ∈ occurrencesFrom start roots) :
    ∃ index, path.root = start + index ∧
      (roots[index]?).bind (·.descend? path.children) = some node := by
  induction roots generalizing start with
  | nil => simp [occurrencesFrom] at h
  | cons first rest ih =>
    rw [occurrencesFrom, List.mem_append] at h
    rcases h with hfirst | hrest
    · obtain ⟨⟨indices, target⟩, hmem, heq⟩ := List.mem_map.1 hfirst
      cases heq
      exact ⟨0, rfl, Node.descend?_of_mem_descendants hmem⟩
    · obtain ⟨index, hroot, hdown⟩ := ih hrest
      exact ⟨index + 1, by omega, hdown⟩

/-- **The nodes that are listed are those that paths lead to.** -/
theorem mem_occurrences_iff :
    (path, node) ∈ occurrences roots ↔ path.resolve? roots = some node := by
  refine ⟨fun h => ?_, mem_occurrences⟩
  obtain ⟨index, hroot, hdown⟩ := exists_of_mem_occurrencesFrom h
  rw [Nat.zero_add] at hroot
  rw [Path.resolve?, hroot, hdown]

theorem nodup_occurrencesFrom (start : Nat) (roots : List Node) :
    ((occurrencesFrom start roots).map Prod.fst).Nodup := by
  induction roots generalizing start with
  | nil => exact List.nodup_nil
  | cons first rest ih =>
    rw [occurrencesFrom, List.map_append, List.map_map, List.nodup_append']
    refine ⟨?_, ih (start + 1), ?_⟩
    · have hinj : Function.Injective (Path.mk start) := fun _ _ h => (Path.mk.inj h).2
      have := (Node.nodup_descendants first).map hinj
      rwa [List.map_map] at this
    · intro path hfirst hrest
      obtain ⟨⟨indices, target⟩, -, rfl⟩ := List.mem_map.1 hfirst
      obtain ⟨⟨path, target'⟩, hmem, heq⟩ := List.mem_map.1 hrest
      obtain ⟨index, hroot, -⟩ := exists_of_mem_occurrencesFrom hmem
      have hstart : path.root = start := congrArg Path.root heq
      omega

/-- **No path is listed twice.** -/
theorem nodup_occurrences (roots : List Node) : ((occurrences roots).map Prod.fst).Nodup :=
  nodup_occurrencesFrom 0 roots

/-! ## More roots -/

theorem occurrencesFrom_append (start : Nat) (roots more : List Node) :
    occurrencesFrom start (roots ++ more) =
      occurrencesFrom start roots ++ occurrencesFrom (start + roots.length) more := by
  induction roots generalizing start with
  | nil => rfl
  | cons first rest ih =>
    rw [List.cons_append, occurrencesFrom, occurrencesFrom, ih, List.append_assoc,
      List.length_cons, Nat.add_right_comm, Nat.add_assoc start]

theorem occurrencesFrom_add (start offset : Nat) (roots : List Node) :
    occurrencesFrom (start + offset) roots =
      (occurrencesFrom start roots).map fun entry => (entry.1.offset offset, entry.2) := by
  induction roots generalizing start with
  | nil => rfl
  | cons first rest ih =>
    rw [occurrencesFrom, occurrencesFrom, List.map_append, List.map_map, ← ih,
      Nat.add_right_comm start offset]
    rfl

/-- **A forest with more roots** lists its nodes and then the new ones. -/
theorem occurrences_append (roots more : List Node) :
    occurrences (roots ++ more) = occurrences roots ++
      (occurrences more).map fun entry => (entry.1.offset roots.length, entry.2) := by
  rw [occurrences, occurrencesFrom_append, occurrencesFrom_add]
  rfl

/-- **A path leads to the same node when roots are added.** -/
theorem Path.resolve?_append (h : path.resolve? roots = some node) (more : List Node) :
    path.resolve? (roots ++ more) = some node := by
  rw [resolve?, Option.bind_eq_some_iff] at h ⊢
  obtain ⟨root, hroot, hdown⟩ := h
  have hlt := (List.getElem?_eq_some_iff.1 hroot).1
  exact ⟨root, by rwa [List.getElem?_append_left hlt], hdown⟩

end FixedWidth.Schema
