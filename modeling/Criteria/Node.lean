import Criteria.Json.Basic

/-! # Nodes
A payload is a tree of nodes: objects under the keys `type`, `name`, `operation`, `value` and
`children`. Reading a JSON value as a `Node` keeps just these keys, and of each only the type that a
node can use; a key of another type reads as a missing one. So every JSON value is a node, and one
that is no object is a node without anything.

`Node.leaf` is a node without a list of children, `Node.branch` one with a list, which may be
empty. -/

namespace Criteria

/-- What a node says **apart from its children**. -/
structure Head where
  /-- Whether the type is that of a group. -/
  isGroup : Bool := false
  /-- The name, if it is text. -/
  name? : Option String := none
  /-- The word for the operation or combinator, if it is text. -/
  operation? : Option String := none
  /-- The value, of whatever type. -/
  value? : Option Json := none

/-- The head of a JSON value. -/
def Head.ofJson (v : Json) : Head where
  isGroup := (v.member? "type").bind Json.string? == some "group"
  name? := (v.member? "name").bind Json.string?
  operation? := (v.member? "operation").bind Json.string?
  value? := v.member? "value"

/-- A **node** of a payload. -/
inductive Node where
  /-- A node without a list of children. -/
  | leaf (head : Head)
  /-- A node with a list of children. -/
  | branch (head : Head) (children : List Node)

namespace Node

/-- What the node says apart from its children. -/
def head : Node → Head
  | leaf head => head
  | branch head _ => head

/-- The node with a given head and, if there are any, the given children. -/
def make (head : Head) : Option (List Node) → Node
  | none => leaf head
  | some children => branch head children

/-- Adding children does not change the head of a node. -/
@[simp] theorem head_make (head : Head) (children? : Option (List Node)) :
    (make head children?).head = head := by cases children? <;> rfl

mutual

/-- The node that a JSON value is. -/
def ofJson : Json → Node
  | .object members => make (Head.ofJson (.object members)) (ofMembers members)
  | v => leaf (Head.ofJson v)

/-- The nodes under the key for children, if they are an array. -/
def ofMembers : List (String × Json) → Option (List Node)
  | [] => none
  | (key, v) :: rest => if "children" = key then ofItems v else ofMembers rest

/-- The nodes that the items of a value are, if it is an array. -/
def ofItems : Json → Option (List Node)
  | .array items => some (listOf items)
  | _ => none

/-- The nodes that the items of an array are. -/
def listOf : List Json → List Node
  | [] => []
  | v :: vs => ofJson v :: listOf vs

end

/-- The nodes of several values are the nodes of each. -/
theorem listOf_eq_map (vs : List Json) : listOf vs = vs.map ofJson := by
  induction vs with
  | nil => simp [listOf]
  | cons v vs ih => simp [listOf, ih]

/-- The children are the nodes of the items of an array; nothing else has any. -/
theorem ofItems_eq (v : Json) : ofItems v = v.array?.map fun items => items.map ofJson := by
  cases v <;> simp [ofItems, Json.array?, listOf_eq_map]

/-- The children of an object are under the first key that reads `children`. -/
theorem ofMembers_eq (members : List (String × Json)) :
    ofMembers members = (members.lookup "children").bind ofItems := by
  induction members with
  | nil => simp [ofMembers]
  | cons m rest ih =>
    obtain ⟨key, v⟩ := m
    by_cases h : "children" = key
    · subst h
      simp [ofMembers]
    · have hb : ("children" == key) = false := by simpa using h
      rw [ofMembers, if_neg h, ih, List.lookup_cons, hb]

/-- The node of any value, by its head and what it has under the key for children. -/
theorem ofJson_eq (v : Json) :
    ofJson v = make (Head.ofJson v) ((v.member? "children").bind ofItems) := by
  cases v <;> simp [ofJson, ofMembers_eq, Json.member?, make]

/-- The head of a node is read off the value's members. -/
@[simp] theorem head_ofJson (v : Json) : (ofJson v).head = Head.ofJson v := by
  rw [ofJson_eq, head_make]

end Node

end Criteria
