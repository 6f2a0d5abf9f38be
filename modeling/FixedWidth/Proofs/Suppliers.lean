import FixedWidth.Schema.Width
import Mathlib.Logic.Relation

/-!
# Proofs/Suppliers — which decorator gives a field its width

    field   trim   constant   decor 3   field   decor 5   decor 7
      └────────────────────────▸           └───────▸

A field or constant takes its width from the first node behind it that decides: a decorator with a
length supplies it, and a structural node leaves it without one (`widthDecorator?_eq_find?`). A
field is structural itself, so the decorators that supply two fields stand in the order of the
fields (`Supplies.lt_of_lt`). Nothing else plays a part: an edit of the nodes in front, of those
behind the one that decides, or of those between that do not decide changes no width
(`Edit.decider_eq`).
-/

namespace FixedWidth.Schema

open Relation (ReflTransGen)

/-! ## Siblings that decide -/

/-- Whether a node decides on the width of what stands before it: it declares one, or is structural
and ends the search. -/
def Node.decides (node : Node) : Bool := node.declaresWidth || node.kind.isStructural

/-- **The search ends at the first node that decides**, and succeeds if it declares a width. -/
theorem widthDecorator?_eq_find? (following : List Node) :
    widthDecorator? following = (following.find? (·.decides)).filter (·.declaresWidth) := by
  induction following with
  | nil => rfl
  | cons node rest ih =>
    rw [widthDecorator?, List.find?_cons, Node.decides]
    cases hwidth : node.declaresWidth with
    | true => simp [Option.filter_some, hwidth]
    | false => cases node.kind.isStructural <;> simp [Option.filter_some, hwidth, ih]

theorem decides_of_declaresWidth {node : Node} (h : node.declaresWidth = true) :
    node.decides = true := by
  rw [Node.decides, h, Bool.true_or]

/-- A decorator is not structural. -/
theorem declaresWidth_eq_false_of_isStructural {node : Node} (h : node.kind.isStructural = true) :
    node.declaresWidth = false := by
  rw [Node.declaresWidth]
  cases hkind : node.kind <;> simp_all [Kind.isStructural]

/-! ## Suppliers -/

/-- The layout of the field at an index among siblings. -/
def layoutAt? (siblings : List Node) (index : Nat) : Option Layout :=
  fieldLayout? (siblings.drop (index + 1))

/-- The width of the constant at an index among siblings. -/
def widthAt? (siblings : List Node) (index : Nat) : Option Nat :=
  constantWidth? (siblings.drop (index + 1))

/-- Whether there is a scalar field at an index. -/
def ScalarAt (siblings : List Node) (index : Nat) : Prop :=
  ∃ node flavour, siblings[index]? = some node ∧ node.kind = .scalarField flavour

/-- **The decorator at one index supplies the width of what is at another**: it stands behind it and
declares a width, and none of the nodes between the two decides. -/
structure Supplies (siblings : List Node) (decorator index : Nat) : Prop where
  lt : index < decorator
  declares : ∃ node, siblings[decorator]? = some node ∧ node.declaresWidth = true
  first : ∀ between node, index < between → between < decorator →
    siblings[between]? = some node → node.decides = false

variable {siblings siblings' : List Node} {index index' decorator decorator' : Nat} {node : Node}

theorem widthDecorator?_drop_eq_some_iff :
    widthDecorator? (siblings.drop (index + 1)) = some node ↔
      ∃ decorator, Supplies siblings decorator index ∧ siblings[decorator]? = some node := by
  rw [widthDecorator?_eq_find?, Option.filter_eq_some_iff, List.find?_eq_some_iff_getElem]
  constructor
  · rintro ⟨⟨-, offset, hoffset, hnode, hfirst⟩, hwidth⟩
    rw [List.getElem_drop] at hnode
    have hfound : siblings[index + 1 + offset]? = some node :=
      List.getElem?_eq_some_iff.2 ⟨_, hnode⟩
    refine ⟨index + 1 + offset, ⟨by omega, ⟨node, hfound, hwidth⟩, ?_⟩, hfound⟩
    intro between other hlt hgt hother
    obtain ⟨place, rfl⟩ : ∃ place, between = index + 1 + place := ⟨between - (index + 1), by omega⟩
    obtain ⟨_, rfl⟩ := List.getElem?_eq_some_iff.1 hother
    simpa [List.getElem_drop] using hfirst place (by omega)
  · rintro ⟨decorator, ⟨hlt, ⟨supplier, hsupplier, hwidth⟩, hfirst⟩, hnode⟩
    obtain rfl : supplier = node := Option.some.inj (hsupplier.symm.trans hnode)
    obtain ⟨offset, rfl⟩ : ∃ offset, decorator = index + 1 + offset :=
      ⟨decorator - (index + 1), by omega⟩
    obtain ⟨hbound, hfound⟩ := List.getElem?_eq_some_iff.1 hnode
    refine ⟨⟨decides_of_declaresWidth hwidth, offset, by rw [List.length_drop]; omega,
      by rwa [List.getElem_drop], fun place hplace => ?_⟩, hwidth⟩
    rw [List.getElem_drop, hfirst (index + 1 + place) _ (by omega) (by omega)
      (List.getElem?_eq_getElem _)]
    rfl

/-- What is made of a width decorator is made of the supplier. -/
theorem bind_widthDecorator?_eq_some_iff {α : Type} {f : Node → Option α} {a : α} :
    (widthDecorator? (siblings.drop (index + 1))).bind f = some a ↔
      ∃ decorator, Supplies siblings decorator index ∧ siblings[decorator]?.bind f = some a := by
  simp only [Option.bind_eq_some_iff, widthDecorator?_drop_eq_some_iff]
  constructor
  · rintro ⟨node, ⟨decorator, hsupplies, hnode⟩, ha⟩
    exact ⟨decorator, hsupplies, node, hnode, ha⟩
  · rintro ⟨decorator, hsupplies, node, hnode, ha⟩
    exact ⟨node, ⟨decorator, hsupplies, hnode⟩, ha⟩

/-- **The order of decorators is the order of the fields they supply.** -/
theorem Supplies.lt_of_lt (h : Supplies siblings decorator index)
    (h' : Supplies siblings decorator' index') (hscalar : ScalarAt siblings index')
    (hlt : index < index') : decorator < decorator' := by
  obtain ⟨field, flavour, hfield, hkind⟩ := hscalar
  have hstructural : field.kind.isStructural = true := by rw [hkind]; rfl
  refine Nat.lt_trans (Nat.lt_of_not_le fun hle => ?_) h'.lt
  obtain rfl | hbetween := Nat.eq_or_lt_of_le hle
  · obtain ⟨supplier, hsupplier, hwidth⟩ := h.declares
    rw [hfield, Option.some.injEq] at hsupplier
    subst hsupplier
    simp [declaresWidth_eq_false_of_isStructural hstructural] at hwidth
  · have := h.first index' field hlt hbetween hfield
    simp [Node.decides, hstructural] at this

theorem Supplies.not_lt (h : Supplies siblings decorator index)
    (h' : Supplies siblings decorator' index) : ¬decorator < decorator' := by
  intro hlt
  obtain ⟨supplier, hsupplier, hwidth⟩ := h.declares
  have := h'.first decorator supplier h.lt hlt hsupplier
  simp [decides_of_declaresWidth hwidth] at this

/-- **There is one supplier at most.** -/
theorem Supplies.unique (h : Supplies siblings decorator index)
    (h' : Supplies siblings decorator' index) : decorator = decorator' :=
  Nat.le_antisymm (Nat.not_lt.1 (h'.not_lt h)) (Nat.not_lt.1 (h.not_lt h'))

/-! ## Edits -/

/-- **An edit of siblings** that keeps one of them, and what decides on its width, in view: their
list and the index of the one that is kept. -/
inductive Edit : List Node × Nat → List Node × Nat → Prop
  /-- Other nodes stand in front. -/
  | before (before before' : List Node) (node : Node) (following : List Node) :
    Edit (before ++ node :: following, before.length) (before' ++ node :: following, before'.length)
  /-- Other nodes that do not decide stand right behind. -/
  | between (before : List Node) (node : Node) (between between' rest : List Node)
    (h : ∀ other ∈ between, other.decides = false)
    (h' : ∀ other ∈ between', other.decides = false) :
    Edit (before ++ node :: (between ++ rest), before.length)
      (before ++ node :: (between' ++ rest), before.length)
  /-- Other nodes stand behind one that decides. -/
  | behind (before : List Node) (node : Node) (between : List Node) (decider : Node)
    (rest rest' : List Node) (h : decider.decides = true) :
    Edit (before ++ node :: (between ++ decider :: rest), before.length)
      (before ++ node :: (between ++ decider :: rest'), before.length)

variable {place place' : List Node × Nat}

/-- **An edit leaves the first node that decides where it is.** -/
theorem Edit.decider_eq (h : Edit place place') :
    (place'.1.drop (place'.2 + 1)).find? (·.decides) =
      (place.1.drop (place.2 + 1)).find? (·.decides) := by
  have hdrop (before : List Node) (node : Node) (following : List Node) :
      (before ++ node :: following).drop (before.length + 1) = following := by
    rw [← List.drop_drop, List.drop_left, List.drop_one, List.tail_cons]
  cases h with
  | before => simp only [hdrop]
  | between before node between between' rest h h' =>
    have hnone {nodes : List Node} (h : ∀ other ∈ nodes, other.decides = false) :
        nodes.find? (·.decides) = none := by
      simpa using h
    simp only [hdrop, List.find?_append, hnone h, hnone h']
  | behind before node between decider rest rest' h =>
    simp only [hdrop, List.find?_append, List.find?_cons, h]

/-- **No edit changes the width of the node that is kept.** -/
theorem Edit.widthDecorator?_eq (h : Edit place place') :
    widthDecorator? (place'.1.drop (place'.2 + 1)) =
      widthDecorator? (place.1.drop (place.2 + 1)) := by
  rw [widthDecorator?_eq_find?, widthDecorator?_eq_find?, h.decider_eq]

/-- **Edits one after the other change no width.** -/
theorem widthDecorator?_eq_of_edits (h : ReflTransGen Edit place place') :
    widthDecorator? (place'.1.drop (place'.2 + 1)) =
      widthDecorator? (place.1.drop (place.2 + 1)) := by
  induction h with
  | refl => rfl
  | tail _ hlast ih => rw [hlast.widthDecorator?_eq, ih]

/-- **Which decorator gives which sibling its width.** A layout or width comes from the one
decorator that supplies it, and later scalar fields are supplied by later decorators. Edits before a
sibling, behind the first node that decides on its width, or of nodes between that do not decide
leave its layout and its width as they are, however many are made. -/
theorem suppliers_of_siblings (siblings : List Node) :
    (∀ index layout, layoutAt? siblings index = some layout ↔
        ∃ decorator, Supplies siblings decorator index ∧
          siblings[decorator]?.bind Node.declaredLayout? = some layout) ∧
      (∀ index width, widthAt? siblings index = some width ↔
        ∃ decorator, Supplies siblings decorator index ∧
          siblings[decorator]?.bind Node.declaredWidth? = some width) ∧
      (∀ index decorator decorator', Supplies siblings decorator index →
        Supplies siblings decorator' index → decorator = decorator') ∧
      (∀ index index' decorator decorator', ScalarAt siblings index → ScalarAt siblings index' →
        Supplies siblings decorator index → Supplies siblings decorator' index' →
          (index < index' ↔ decorator < decorator')) ∧
      ∀ index siblings' index', ReflTransGen Edit (siblings, index) (siblings', index') →
        layoutAt? siblings' index' = layoutAt? siblings index ∧
          widthAt? siblings' index' = widthAt? siblings index := by
  refine ⟨fun _ _ => bind_widthDecorator?_eq_some_iff, fun _ _ => bind_widthDecorator?_eq_some_iff,
    fun _ _ _ => Supplies.unique, fun index index' decorator decorator' hscalar hscalar' h h' => ?_,
    fun index siblings' index' hedits => ?_⟩
  · refine ⟨h.lt_of_lt h' hscalar', fun hlt => Nat.lt_of_not_le fun hge => ?_⟩
    obtain rfl | hgt := Nat.eq_or_lt_of_le hge
    · exact absurd (h.unique h') (Nat.ne_of_lt hlt)
    · exact absurd (h'.lt_of_lt h hscalar hgt) (Nat.not_lt.2 (Nat.le_of_lt hlt))
  · have hsame := widthDecorator?_eq_of_edits hedits
    exact ⟨congrArg (Option.bind · Node.declaredLayout?) hsame,
      congrArg (Option.bind · Node.declaredWidth?) hsame⟩

/-- A node without anything inside it, at some place. -/
def leaf (tag : String) (attributes : NameMap String) : Node :=
  { Node.ofTag tag ⟨"fields.xml", 1⟩ with attributes }

/-- Two fields with a supplier each, and between the first and its own what does not decide. -/
def staggered : List Node :=
  [leaf "fString" [("dataName", "A")], leaf "trimDecor" [], leaf "constant" [("value", "-")],
    leaf "numDecor" [("length", "3")], leaf "fString" [("dataName", "B")],
    leaf "delimDecor" [("length", "5")]]

/-- The first field and its supplier alone, behind filler. -/
def shortened : List Node :=
  [leaf "fixedLength" [("length", "9")], leaf "fString" [("dataName", "A")],
    leaf "numDecor" [("length", "3")]]

/-- The suppliers of the two fields stand in order, and the first field keeps its layout when all
that does not matter is gone. -/
theorem staggered_suppliers :
    (ScalarAt staggered 0 ∧ ScalarAt staggered 4 ∧ Supplies staggered 3 0 ∧
        Supplies staggered 5 4 ∧ (0 < 4 ↔ 3 < 5)) ∧
      ReflTransGen Edit (staggered, 0) (shortened, 1) ∧
      layoutAt? staggered 0 = some (.numeric 3) ∧ layoutAt? shortened 1 = some (.numeric 3) := by
  obtain ⟨hlayout, -, -, horder, hedited⟩ := suppliers_of_siblings staggered
  have hfirst : ScalarAt staggered 0 := ⟨_, .plainString, rfl, by decide⟩
  have hsecond : ScalarAt staggered 4 := ⟨_, .plainString, rfl, by decide⟩
  have hthree : Supplies staggered 3 0 := by
    refine ⟨by decide, ⟨_, rfl, by decide⟩, fun between node hlt hgt hnode => ?_⟩
    obtain rfl | rfl : between = 1 ∨ between = 2 := by omega
    all_goals cases hnode; decide
  have hfive : Supplies staggered 5 4 :=
    ⟨by decide, ⟨_, rfl, by decide⟩, fun between node hlt hgt => by omega⟩
  have hedits : ReflTransGen Edit (staggered, 0) (shortened, 1) :=
    (ReflTransGen.single (.before [] [leaf "fixedLength" [("length", "9")]] _ _)).tail
      (.between [_] _ (staggered.extract 1 3) [] (staggered.drop 3) (by decide) (by decide)) |>.tail
      (.behind [_] _ [] _ (staggered.drop 4) [] (by decide))
  have hnumeric := (hlayout 0 (.numeric 3)).2 ⟨3, hthree, by decide⟩
  exact ⟨⟨hfirst, hsecond, hthree, hfive, horder 0 4 3 5 hfirst hsecond hthree hfive⟩, hedits,
    hnumeric, (hedited 0 shortened 1 hedits).1.trans hnumeric⟩

end FixedWidth.Schema
