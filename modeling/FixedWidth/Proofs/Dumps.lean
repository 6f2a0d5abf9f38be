import FixedWidth.Proofs.JsonTexts
import FixedWidth.Schema.Dump

/-!
# Proofs/Dumps — a dump shows everything but places

    node ──▸ tag, identifiers, attributes, text, children ──▸ one object ──▸ dump, dumpPretty

The object of a node has a member for each part that is there, under a name of its own, so each part
is found in it again (`present_inj`). Two nodes have one object if and only if they agree in all
parts and their children do (`toJson_eq_iff`), and as JSON text is unambiguous, so it is for
their dumps (`dump_eq_iff`).
-/

namespace FixedWidth.Schema.Node

open Text

/-! ## Agreement -/

/-- **Nodes that differ in nothing but places.** -/
def Agrees : Node → Node → Prop
  | ⟨tag, id, refId, attributes, text, children, _⟩, other =>
    tag = other.tag ∧ id = other.id ∧ refId = other.refId ∧ attributes = other.attributes ∧
      text = other.text ∧ childrenAgree children other.children
where
  childrenAgree : List Node → List Node → Prop
    | [], [] => True
    | child :: rest, child' :: rest' => child.Agrees child' ∧ childrenAgree rest rest'
    | _, _ => False

/-! ## Members that are present -/

/-- The members of an object whose values are present. -/
def present (members : List (String × Option Json)) : List (String × Json) :=
  members.filterMap fun member => member.2.map (member.1, ·)

theorem present_cons (name : String) (value? : Option Json) (rest : List (String × Option Json)) :
    present ((name, value?) :: rest) = (value?.map (name, ·)).toList ++ present rest := by
  cases value? <;> rfl

theorem get?_present_of_notMem {members : List (String × Option Json)} {name : String}
    (h : name ∉ members.map Prod.fst) : NameMap.get? (present members) name = none := by
  induction members with
  | nil => rfl
  | cons member rest ih =>
    obtain ⟨other, value?⟩ := member
    rw [List.map_cons, List.mem_cons, not_or] at h
    rw [present_cons]
    cases value? with
    | none => exact ih h.2
    | some value =>
      refine (if_neg ?_).trans (ih h.2)
      exact Ne.symm h.1

/-- **What is present is found under its name**, if names differ. -/
theorem get?_present {members : List (String × Option Json)} {name : String} {value? : Option Json}
    (hnodup : (members.map Prod.fst).Nodup) (hmem : (name, value?) ∈ members) :
    NameMap.get? (present members) name = value? := by
  induction members with
  | nil => cases hmem
  | cons member rest ih =>
    obtain ⟨other, value'?⟩ := member
    rw [List.map_cons, List.nodup_cons] at hnodup
    rw [present_cons]
    obtain heq | hrest := List.mem_cons.1 hmem
    · cases heq
      cases value? with
      | none => exact get?_present_of_notMem hnodup.1
      | some value => exact if_pos rfl
    · have hmemNames : name ∈ rest.map Prod.fst := List.mem_map_of_mem hrest
      have hne : other ≠ name := fun heq => hnodup.1 (heq ▸ hmemNames)
      cases value'? with
      | none => exact ih hnodup.2 hrest
      | some value => exact (if_neg hne).trans (ih hnodup.2 hrest)

theorem present_inj {members members' : List (String × Option Json)}
    (hnames : members.map Prod.fst = members'.map Prod.fst) (hnodup : (members.map Prod.fst).Nodup)
    (h : present members = present members') : members = members' := by
  induction members generalizing members' with
  | nil => exact (List.map_eq_nil_iff.1 hnames.symm).symm
  | cons member rest ih =>
    obtain ⟨name, value?⟩ := member
    obtain _ | ⟨⟨name', value'?⟩, rest'⟩ := members'
    · cases hnames
    · obtain ⟨rfl, hrest⟩ := List.cons.inj hnames
      have hvalue : value? = value'? := by
        rw [← get?_present hnodup List.mem_cons_self, h]
        exact get?_present (hnames ▸ hnodup) List.mem_cons_self
      subst hvalue
      rw [present_cons, present_cons, List.append_cancel_left_eq] at h
      rw [ih hrest (List.nodup_cons.1 hnodup).2 h]

/-! ## The parts of a node -/

/-- A value that is left out if it is empty. -/
def unlessEmpty (empty : Bool) (value : Json) : Option Json := if empty then none else some value

/-- Values are told apart from one that is left out, if there is one empty value. -/
theorem unlessEmpty_eq_iff {empty empty' : Bool} {value value' : Json}
    (hempty : empty → empty' → value = value') (hvalue : value = value' → empty = empty') :
    unlessEmpty empty value = unlessEmpty empty' value' ↔ value = value' := by
  cases empty <;> cases empty' <;> simp_all [unlessEmpty]

/-- The attributes of a node as data. -/
def attributesToJson (attributes : NameMap String) : Json :=
  .object (attributes.map fun (name, value) => (name, .string value))

theorem attributesToJson_injective : Function.Injective attributesToJson := by
  intro attributes attributes' h
  refine List.map_injective_iff.2 ?_ (Json.object.inj h)
  rintro ⟨name, value⟩ ⟨name', value'⟩ heq
  obtain ⟨hname, hvalue⟩ := Prod.mk.inj heq
  exact Prod.ext hname (Json.string.inj hvalue)

/-- The parts of a node under their names. -/
def parts (node : Node) : List (String × Option Json) :=
  [("tagName", some (.string node.tag)), ("id", node.id.map .string),
    ("refId", node.refId.map .string),
    ("attributes", unlessEmpty node.attributes.isEmpty (attributesToJson node.attributes)),
    ("textContent", unlessEmpty node.text.isEmpty (.string node.text)),
    ("children", unlessEmpty node.children.isEmpty (.array (toJson.childrenToJson node.children)))]

theorem toJson_eq (node : Node) : node.toJson = .object (present node.parts) := by
  obtain ⟨tag, id, refId, attributes, text, children, place⟩ := node
  have hoptional : ∀ (name : String) (value : Option String),
      ((value.map Json.string).map (name, ·)).toList = optionalMember name value := by
    intro name value
    cases value <;> rfl
  have hunless : ∀ (name : String) (empty : Bool) (value : Json),
      ((unlessEmpty empty value).map (name, ·)).toList = if empty then [] else [(name, value)] := by
    intro name empty value
    cases empty <;> rfl
  simp only [toJson, parts, present_cons, hoptional, hunless]
  simp [present, attributesToJson]

theorem toJson_eq_iff_parts {a b : Node} : a.toJson = b.toJson ↔ a.parts = b.parts := by
  rw [toJson_eq, toJson_eq, Json.object.injEq]
  exact ⟨present_inj rfl (by simp [parts]), congrArg present⟩

theorem childrenToJson_eq_nil_iff {children : List Node} :
    toJson.childrenToJson children = [] ↔ children = [] := by
  cases children <;> simp [toJson.childrenToJson]

/-- **Nodes with one object have the same parts**, and children with the same objects. -/
theorem parts_eq_iff {a b : Node} : a.parts = b.parts ↔
    a.tag = b.tag ∧ a.id = b.id ∧ a.refId = b.refId ∧ a.attributes = b.attributes ∧
      a.text = b.text ∧ toJson.childrenToJson a.children = toJson.childrenToJson b.children := by
  have hoptional : Function.Injective (Option.map Json.string) :=
    Option.map_injective fun _ _ h => Json.string.inj h
  have hattributes := unlessEmpty_eq_iff
    (fun h h' => by rw [List.isEmpty_iff.1 h, List.isEmpty_iff.1 h'])
    (fun h => congrArg List.isEmpty (@attributesToJson_injective a.attributes b.attributes h))
  have htext := unlessEmpty_eq_iff
    (fun h h' => by rw [String.isEmpty_iff.1 h, String.isEmpty_iff.1 h'])
    (fun h => congrArg String.isEmpty (Json.string.inj h : a.text = b.text))
  have hchildren : unlessEmpty a.children.isEmpty (.array (toJson.childrenToJson a.children)) =
      unlessEmpty b.children.isEmpty (.array (toJson.childrenToJson b.children)) ↔ _ :=
    unlessEmpty_eq_iff
      (fun h h' => by rw [List.isEmpty_iff.1 h, List.isEmpty_iff.1 h'])
      (fun h => by
        rw [Bool.eq_iff_iff, List.isEmpty_iff, List.isEmpty_iff, ← childrenToJson_eq_nil_iff,
          Json.array.inj h, childrenToJson_eq_nil_iff])
  simp only [parts, List.cons.injEq, Prod.mk.injEq, true_and, and_true, Option.some.injEq,
    Json.string.injEq, Json.array.injEq, hoptional.eq_iff, attributesToJson_injective.eq_iff,
    hattributes, htext, hchildren]

/-! ## Objects of nodes -/

mutual

/-- **Nodes have one object if and only if they agree.** -/
theorem toJson_eq_iff : ∀ a b : Node, a.toJson = b.toJson ↔ a.Agrees b
  | ⟨tag, id, refId, attributes, text, children, _⟩, b => by
    rw [toJson_eq_iff_parts, parts_eq_iff, Agrees, childrenToJson_eq_iff children b.children]

theorem childrenToJson_eq_iff : ∀ children children' : List Node,
    toJson.childrenToJson children = toJson.childrenToJson children' ↔
      Agrees.childrenAgree children children'
  | [], [] => by simp [toJson.childrenToJson, Agrees.childrenAgree]
  | [], _ :: _ => by simp [toJson.childrenToJson, Agrees.childrenAgree]
  | _ :: _, [] => by simp [toJson.childrenToJson, Agrees.childrenAgree]
  | child :: rest, child' :: rest' => by
    rw [toJson.childrenToJson, toJson.childrenToJson, List.cons.injEq, Agrees.childrenAgree,
      toJson_eq_iff child child', childrenToJson_eq_iff rest rest']

end

/-! ## Dumps -/

/-- **A dump shows everything but places.** Two nodes have one dump, in one line or with one member
a line, if and only if they agree in tag, identifiers, attributes, text and children, and so do
their children; and a dump with one member a line is the one in one line, but for blanks outside of
strings. -/
theorem dump_eq_iff (a b : Node) :
    (a.dump = b.dump ↔ a.Agrees b) ∧ (a.dumpPretty = b.dumpPretty ↔ a.Agrees b) ∧
      Json.dropBlanks false a.dumpPretty.toList = a.dump.toList := by
  rw [← toJson_eq_iff a b, dump, dump, dumpPretty, dumpPretty, String.ofList_inj, String.ofList_inj,
    String.toList_ofList, String.toList_ofList]
  exact ⟨Json.compact_injective.eq_iff, Json.pretty_injective.eq_iff, Json.dropBlanks_pretty _⟩

end FixedWidth.Schema.Node
