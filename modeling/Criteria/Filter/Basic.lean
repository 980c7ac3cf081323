import Criteria.Operand

/-! # Filters
A filter over objects of a type `α` is a tree of groups, rules and relations. A rule carries the
function that reads its field from the object. A relation tests a collection that belongs to the
object; what it tests the related objects with is behind its test function, and only its size and
depth are kept beside it.

* `Filter.adheres`: whether an object passes.
* `Filter.depth`: the number of levels.
* `Filter.relate`: the relation that a group over related objects makes.
* `Filter.select`, `Filter.matching`: the objects of a list that pass, and their positions.

Main statements: `Filter.adheres_group`, a group joins the answers of its children;
`Filter.adheres_relate`, a relation asks for one related object that passes the group. -/

namespace Criteria

/-- A **filter** over objects of type `α`. -/
inductive Filter (α : Type) where
  /-- Children joined by a combinator. -/
  | group (c : Combinator) (children : List (Filter α))
  /-- One comparison of the field that `read` reads. -/
  | rule (o : Operation) (v : Operand) (read : α → Reading)
  /-- A test of a related collection, with the number of children it was made of and its depth. -/
  | relation (c : Combinator) (size : Nat) (depth : Nat) (test : α → Bool)

namespace Filter

variable {α β : Type}

mutual

/-- Whether an object **passes** the filter. An empty `and` passes, an empty `or` does not. -/
def adheres : Filter α → α → Bool
  | group .and children, x => allAdhere children x
  | group .or children, x => anyAdheres children x
  | rule o v read, x => o.holds v (read x)
  | relation _ _ _ test, x => test x

/-- Whether an object passes every filter of a list; it stops at the first that fails. -/
def allAdhere : List (Filter α) → α → Bool
  | [], _ => true
  | f :: fs, x => f.adheres x && allAdhere fs x

/-- Whether an object passes a filter of a list; it stops at the first that passes. -/
def anyAdheres : List (Filter α) → α → Bool
  | [], _ => false
  | f :: fs, x => f.adheres x || anyAdheres fs x

end

mutual

/-- The number of **levels** of the filter. A rule is one level, and a group one level above its
deepest child. -/
def depth : Filter α → Nat
  | group _ children => 1 + greatestDepth children
  | rule _ _ _ => 1
  | relation _ _ depth _ => depth

/-- The depth of the deepest filter of a list, zero if there is none. -/
def greatestDepth : List (Filter α) → Nat
  | [] => 0
  | f :: fs => max f.depth (greatestDepth fs)

end

/-! ## Answers by the shape of the filter -/

/-- Whether an object passes all filters of a list, filter by filter. -/
theorem allAdhere_eq (fs : List (Filter α)) (x : α) : allAdhere fs x = fs.all (·.adheres x) := by
  induction fs with
  | nil => simp [allAdhere]
  | cons f fs ih => simp [allAdhere, ih]

/-- Whether an object passes a filter of a list, filter by filter. -/
theorem anyAdheres_eq (fs : List (Filter α)) (x : α) : anyAdheres fs x = fs.any (·.adheres x) := by
  induction fs with
  | nil => simp [anyAdheres]
  | cons f fs ih => simp [anyAdheres, ih]

/-- A group joins the answers of its children by its combinator. -/
@[simp] theorem adheres_group (c : Combinator) (fs : List (Filter α)) (x : α) :
    (group c fs).adheres x = c.join (·.adheres x) fs := by
  cases c <;> simp [adheres, allAdhere_eq, anyAdheres_eq]

/-- An object passes a rule if the operation holds of what is read of the object. -/
@[simp] theorem adheres_rule (o : Operation) (v : Operand) (read : α → Reading) (x : α) :
    (rule o v read).adheres x = o.holds v (read x) := by simp [adheres]

/-- An object passes a relation if it passes the test of the relation. -/
@[simp] theorem adheres_relation (c : Combinator) (n d : Nat) (test : α → Bool) (x : α) :
    (relation c n d test).adheres x = test x := by simp [adheres]

/-! ## Kinds, relations and selections -/

/-- Whether the filter is a group. -/
def isGroup : Filter α → Bool
  | group _ _ => true
  | _ => false

/-- Whether the filter is a rule. -/
def isRule : Filter α → Bool
  | rule _ _ _ => true
  | _ => false

/-- Whether the filter is a relation. -/
def isRelation : Filter α → Bool
  | relation _ _ _ _ => true
  | _ => false

/-- The relation that children over related objects make: it passes if at least one of the related
objects passes the children, joined by the combinator. -/
def relate (related : α → List β) (c : Combinator) (children : List (Filter β)) : Filter α :=
  let inner := group c children
  relation c children.length inner.depth fun x => (related x).any inner.adheres

/-- An object passes the relation of children if one of its related objects passes their group. -/
@[simp] theorem adheres_relate (related : α → List β) (c : Combinator) (children : List (Filter β))
    (x : α) : (relate related c children).adheres x = (related x).any (group c children).adheres := by
  simp [relate]

/-- The relation of children is as deep as their group. -/
@[simp] theorem depth_relate (related : α → List β) (c : Combinator) (children : List (Filter β)) :
    (relate related c children).depth = (group c children).depth := by
  simp [relate, depth]

/-- The objects that pass, in their order. -/
def select (f : Filter α) (xs : List α) : List α := xs.filter f.adheres

/-- The positions of the objects that pass. -/
def matching (f : Filter α) (xs : List α) : List Nat :=
  (xs.zipIdx.filter fun (x, _) => f.adheres x).map (·.2)

end Filter

end Criteria
