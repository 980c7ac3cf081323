import Criteria.Node

/-! # Payloads as trees
A payload is JSON, and its tree of nodes is read off the keys of each object: `Json.text?` and
`Json.items?` read the value under a key as text and as an array, and `Json.children` are the items
under the key for children. This file gives the tree an induction principle and relates it to
`Node`, which is what a schema compiles.

* `Json.nesting`: how deep arrays and objects are nested. It bounds the number of nodes on a branch
  of the tree, and it is what recursion over the tree descends on.
* `Json.treeInduction`: what holds of a value if it holds of the children holds of every value.
* `Node.ofJson_of_items`, `Node.ofJson_of_no_items`: the node of a value has the value's children. -/

namespace Criteria

namespace Json

/-! ## Keys -/

/-- The text under a key. -/
def text? (key : String) (v : Json) : Option String := (v.member? key).bind string?

/-- The items of the array under a key. -/
def items? (key : String) (v : Json) : Option (List Json) := (v.member? key).bind array?

/-- The children of a value, none if there is no list of them. -/
def children (v : Json) : List Json := (v.items? "children").getD []

/-- Whether the value is of the type of a group. -/
def isGroup (v : Json) : Bool := v.text? "type" == some "group"

/-- Whether the value is a group or bears a name. All else means nothing among children. -/
def isMeant (v : Json) : Bool := v.isGroup || (v.text? "name").isSome

/-- The text under a key is the string that stands there. -/
theorem text?_eq_some_iff {key : String} {v : Json} {s : String} :
    v.text? key = some s ↔ v.member? key = some (.string s) := by
  simp [text?, Option.bind_eq_some_iff, string?_eq_some_iff]

/-- The items under a key are those of the array that stands there. -/
theorem items?_eq_some_iff {key : String} {v : Json} {items : List Json} :
    v.items? key = some items ↔ v.member? key = some (.array items) := by
  simp [items?, Option.bind_eq_some_iff, array?_eq_some_iff]

/-- A group is what has the type of a group. -/
theorem isGroup_iff {v : Json} : v.isGroup ↔ v.member? "type" = some (.string "group") := by
  simp [isGroup, text?_eq_some_iff]

/-- Where the children are an array, they are its items. -/
theorem children_of_items {v : Json} {items : List Json} (h : v.items? "children" = some items) :
    v.children = items := by
  simp [children, h]

/-- A member that is added is found under its key alone. -/
theorem member?_insert_of_ne {before after : List (String × Json)} {x : Json} {key other : String}
    (h : other ≠ key) :
    (object (before ++ (key, x) :: after)).member? other =
      (object (before ++ after)).member? other := by
  simp [List.lookup_append, List.lookup_cons, beq_eq_false_iff_ne.2 h]

/-! What is read under a key is the same if the member is. -/

/-- The text under a key depends on what stands there. -/
theorem text?_congr {key : String} {v v' : Json} (h : v'.member? key = v.member? key) :
    v'.text? key = v.text? key := by
  rw [text?, text?, h]

/-- The items under a key depend on what stands there. -/
theorem items?_congr {key : String} {v v' : Json} (h : v'.member? key = v.member? key) :
    v'.items? key = v.items? key := by
  rw [items?, items?, h]

/-- Whether a value is a group depends on its type. -/
theorem isGroup_congr {v v' : Json} (h : v'.member? "type" = v.member? "type") :
    v'.isGroup = v.isGroup := by
  rw [isGroup, isGroup, text?_congr h]

/-! ## Nesting -/

mutual

/-- The number of arrays and objects around the **innermost** value. -/
def nesting : Json → Nat
  | .array items => nestingOfItems items + 1
  | .object members => nestingOfMembers members + 1
  | _ => 0

/-- The nesting of the deepest item of a list. -/
def nestingOfItems : List Json → Nat
  | [] => 0
  | v :: vs => max v.nesting (nestingOfItems vs)

/-- The nesting of the deepest member of a list. -/
def nestingOfMembers : List (String × Json) → Nat
  | [] => 0
  | (_, v) :: rest => max v.nesting (nestingOfMembers rest)

end

/-- No item is nested deeper than all items together. -/
theorem nesting_le_of_mem {v : Json} {items : List Json} (h : v ∈ items) :
    v.nesting ≤ nestingOfItems items := by
  induction items with
  | nil => simp at h
  | cons w items ih =>
    rw [nestingOfItems]
    rcases List.mem_cons.1 h with rfl | h
    · exact Nat.le_max_left _ _
    · exact Nat.le_trans (ih h) (Nat.le_max_right _ _)

/-- No member is nested deeper than all members together. -/
theorem nesting_le_of_lookup {key : String} {v : Json} {members : List (String × Json)}
    (h : members.lookup key = some v) : v.nesting ≤ nestingOfMembers members := by
  induction members with
  | nil => simp at h
  | cons m members ih =>
    obtain ⟨k, w⟩ := m
    rw [nestingOfMembers]
    rw [List.lookup_cons] at h
    split at h
    · cases h
      exact Nat.le_max_left _ _
    · exact Nat.le_trans (ih h) (Nat.le_max_right _ _)

/-- A member is nested less deep than its object. -/
theorem nesting_lt_of_member? {key : String} {v w : Json} (h : v.member? key = some w) :
    w.nesting < v.nesting := by
  cases v with
  | object members =>
    rw [nesting]
    exact Nat.lt_succ_of_le (nesting_le_of_lookup h)
  | _ => simp [member?] at h

/-- A value with items under a key is nested. -/
theorem nesting_pos_of_items {key : String} {v : Json} {items : List Json}
    (h : v.items? key = some items) : 0 < v.nesting :=
  Nat.zero_lt_of_lt (nesting_lt_of_member? (items?_eq_some_iff.1 h))

/-- An item of an array under a key is nested less deep by two. -/
theorem nesting_lt_of_mem_items {key : String} {v w : Json} {items : List Json}
    (h : v.items? key = some items) (hw : w ∈ items) : w.nesting + 1 < v.nesting := by
  have harray := nesting_lt_of_member? (items?_eq_some_iff.1 h)
  have hitem := nesting_le_of_mem hw
  rw [nesting] at harray
  omega

/-- A child is nested less deep by two. -/
theorem nesting_lt_of_mem_children {v w : Json} (h : w ∈ v.children) :
    w.nesting + 1 < v.nesting := by
  cases hitems : v.items? "children" with
  | none => simp [children, hitems] at h
  | some items => exact nesting_lt_of_mem_items hitems (children_of_items hitems ▸ h)

/-- **Induction over the tree of nodes**. -/
@[elab_as_elim] theorem treeInduction {motive : Json → Prop} (v : Json)
    (step : ∀ v, (∀ w ∈ v.children, motive w) → motive v) : motive v :=
  -- Children stand in an array under a key, so they are no constructor arguments of the value.
  step v fun w _ => treeInduction w step
termination_by v.nesting
decreasing_by
  have := nesting_lt_of_mem_children ‹_›
  omega

end Json

/-! ## The node of a value -/

/-- The head of a node says whether the value is a group. -/
@[simp] theorem Head.isGroup_ofJson (v : Json) : (Head.ofJson v).isGroup = v.isGroup := rfl

/-- The head of a node has the text under `name`. -/
@[simp] theorem Head.name?_ofJson (v : Json) : (Head.ofJson v).name? = v.text? "name" := rfl

/-- The head of a node has the text under `operation`. -/
@[simp] theorem Head.operation?_ofJson (v : Json) :
    (Head.ofJson v).operation? = v.text? "operation" := rfl

/-- The head of a node has what stands under `value`. -/
@[simp] theorem Head.value?_ofJson (v : Json) : (Head.ofJson v).value? = v.member? "value" := rfl

namespace Node

/-- A value with a list of children is a branch over their nodes. -/
theorem ofJson_of_items {v : Json} {items : List Json} (h : v.items? "children" = some items) :
    ofJson v = branch (Head.ofJson v) (items.map ofJson) := by
  rw [Json.items?_eq_some_iff] at h
  simp [ofJson_eq, h, ofItems_eq, make]

/-- A value without a list of children is a leaf. -/
theorem ofJson_of_no_items {v : Json} (h : v.items? "children" = none) :
    ofJson v = leaf (Head.ofJson v) := by
  have hitems : (v.member? "children").bind ofItems = none := by
    rw [show ofItems = fun w => w.array?.map fun items => items.map ofJson from funext ofItems_eq]
    cases hm : v.member? "children" with
    | none => rfl
    | some w =>
      have hw : w.array? = none := by simpa [Json.items?, hm] using h
      simp [hw]
  rw [ofJson_eq, hitems, make]

end Node

end Criteria
