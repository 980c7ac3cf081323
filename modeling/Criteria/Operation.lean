import Criteria.Vocabulary

/-! # Operations, combinators and constraints
The three fixed sets of words of the payload language.

* `Operation`: how a rule compares a field with a value.
* `Combinator`: how a group or a relation joins its children.
* `Constraint`: the kind of value that a rule takes, which fixes the operations that it may offer
  (`Constraint.operations`, `Constraint.permits`).

Each is a `Vocabulary`, so it is read and written by its word; `label` is the name under which it
appears in descriptions. -/

namespace Criteria

/-- The **comparison** that a rule makes. -/
inductive Operation where
  /-- Same kind and same value. -/
  | equals
  /-- The text begins with the given one. -/
  | startsWith
  /-- Strictly smaller. -/
  | lessThan
  /-- Strictly greater. -/
  | greaterThan
  /-- Equal to a member of a list. -/
  | oneOf
deriving DecidableEq, Repr

namespace Operation

/-- Every operation, in declaration order. -/
def all : List Operation := [equals, startsWith, lessThan, greaterThan, oneOf]

/-- The word for an operation in a payload. -/
def token : Operation → String
  | equals => "equals"
  | startsWith => "starts_with"
  | lessThan => "less_than"
  | greaterThan => "greater_than"
  | oneOf => "one_of"

/-- The name of an operation in a description. -/
def label : Operation → String
  | equals => "Equals"
  | startsWith => "StartsWith"
  | lessThan => "LessThan"
  | greaterThan => "GreaterThan"
  | oneOf => "OneOf"

instance : Vocabulary Operation where
  kind := "operation"
  all := all
  token := token
  mem_all o := by cases o <;> decide
  token_inj {a b} := by cases a <;> cases b <;> decide

end Operation

/-- The **combinator** that joins the children of a group or a relation. -/
inductive Combinator where
  /-- Every child has to pass. -/
  | and
  /-- At least one child has to pass. -/
  | or
deriving DecidableEq, Repr

namespace Combinator

/-- Both combinators. -/
def all : List Combinator := [and, or]

/-- The word for a combinator in a payload. -/
def token : Combinator → String
  | and => "and"
  | or => "or"

/-- The name of a combinator in a description. -/
def label : Combinator → String
  | and => "And"
  | or => "Or"

instance : Vocabulary Combinator where
  kind := "group type"
  all := all
  token := token
  mem_all c := by cases c <;> decide
  token_inj {a b} := by cases a <;> cases b <;> decide

/-- Joins the answers that `p` gives on a list: under `and` all of them, under `or` any of them. -/
def join {α : Type} (c : Combinator) (p : α → Bool) (xs : List α) : Bool :=
  match c with
  | and => xs.all p
  | or => xs.any p

/-- Under `and` each test has to succeed. -/
@[simp] theorem join_and {α : Type} (p : α → Bool) (xs : List α) : and.join p xs = xs.all p := rfl

/-- Under `or` one test has to succeed. -/
@[simp] theorem join_or {α : Type} (p : α → Bool) (xs : List α) : or.join p xs = xs.any p := rfl

/-- To join the tests of images is to join the tests after the mapping. -/
theorem join_map {α β : Type} (c : Combinator) (p : β → Bool) (f : α → β) (xs : List α) :
    c.join p (xs.map f) = c.join (p ∘ f) xs := by
  cases c with
  | and => exact List.all_map
  | or => exact List.any_map

/-- One test joined alone is that test, under either combinator. -/
@[simp] theorem join_singleton {α : Type} (c : Combinator) (p : α → Bool) (x : α) :
    c.join p [x] = p x := by
  cases c <;> simp

/-- A part of a list counts through its own joined answer. -/
theorem join_splice {α : Type} {c : Combinator} {p : α → Bool} {part part' : List α}
    (h : c.join p part = c.join p part') (before after : List α) :
    c.join p (before ++ part ++ after) = c.join p (before ++ part' ++ after) := by
  cases c with
  | and =>
    rw [join_and, join_and] at h ⊢
    simp only [List.all_append, h]
  | or =>
    rw [join_or, join_or] at h ⊢
    simp only [List.any_append, h]

/-- Answers that stay yes stay yes when joined. -/
theorem join_mono {α : Type} {c : Combinator} {p q : α → Bool} {xs : List α}
    (h : ∀ x ∈ xs, p x → q x) (hp : c.join p xs) : c.join q xs := by
  cases c with
  | and =>
    rw [join_and, List.all_eq_true] at hp ⊢
    exact fun x hx => h x hx (hp x hx)
  | or =>
    rw [join_or, List.any_eq_true] at hp ⊢
    obtain ⟨x, hx, hpx⟩ := hp
    exact ⟨x, hx, h x hx hpx⟩

end Combinator

/-- The **constraint** of a rule: the kind of value it takes. -/
inductive Constraint where
  /-- Text. -/
  | string
  /-- A number. -/
  | number
  /-- One of a set of choices, text or number. -/
  | dropdown
deriving DecidableEq, Repr

namespace Constraint

/-- Every constraint, in declaration order. -/
def all : List Constraint := [string, number, dropdown]

/-- The word for a constraint in a declaration. -/
def token : Constraint → String
  | string => "string"
  | number => "number"
  | dropdown => "dropdown"

/-- The name of a constraint in a description. -/
def label : Constraint → String
  | string => "String"
  | number => "Number"
  | dropdown => "Dropdown"

instance : Vocabulary Constraint where
  kind := "constraint type"
  all := all
  token := token
  mem_all c := by cases c <;> decide
  token_inj {a b} := by cases a <;> cases b <;> decide

/-- The operations that a rule under this constraint may offer, in the order they are listed. -/
def operations : Constraint → List Operation
  | string => [.equals, .startsWith, .oneOf]
  | number => [.equals, .greaterThan, .lessThan, .oneOf]
  | dropdown => [.equals, .oneOf]

/-- Whether a rule under this constraint may offer the operation. -/
def permits (c : Constraint) (o : Operation) : Bool := c.operations.contains o

/-- A constraint permits exactly the operations that it lists. -/
theorem permits_iff {c : Constraint} {o : Operation} : c.permits o ↔ o ∈ c.operations := by
  simp [permits]

end Constraint

end Criteria
