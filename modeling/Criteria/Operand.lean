import Criteria.Issue
import Criteria.Operation
import Criteria.Scalar

/-! # Operands
An operand is the value that a rule compares with, after validation: one scalar, or a list of
scalars for `Operation.oneOf`.

`Constraint.operand` is the validation: it reads the operand of an operation off a raw value, or says
what is wrong with the value. `Operation.holds` is the meaning of the operations. It answers for
every pairing of operation and operand; a pairing that validation never lets through is false, as
is every comparison with an absent reading. -/

namespace Criteria

/-- The **operand** of a rule. -/
inductive Operand where
  /-- One scalar. -/
  | single (s : Scalar)
  /-- A list of scalars. -/
  | list (items : List Scalar)

namespace Operand

/-- The scalar, if there is just one. -/
def single? : Operand → Option Scalar
  | single s => some s
  | list _ => none

/-- The list, if there is one. -/
def list? : Operand → Option (List Scalar)
  | single _ => none
  | list items => some items

end Operand

/-- Whether a scalar is of the kind that a constraint asks for. -/
def Constraint.admits : Constraint → Scalar → Bool
  | string, s => s.text?.isSome
  | number, s => s.isNumber
  | dropdown, _ => true

/-- The **operand** that a raw value gives for an operation. A list takes scalars of every kind,
under each constraint, and only a list of choices has to hold something; any other operation takes
one scalar of the kind that the constraint asks for. -/
def Constraint.operand (c : Constraint) (o : Operation) (v : Json) : Except FieldIssue Operand :=
  match o with
  | .oneOf =>
    match Scalar.listOfJson? v with
    | some items =>
      if items.isEmpty ∧ c = dropdown then .error .emptyArray else .ok (.list items)
    | none => .error .invalidValue
  | _ =>
    match (Scalar.ofJson? v).filter c.admits with
    | some s => .ok (.single s)
    | none => .error .invalidValue

/-- Whether a scalar that was read passes an operation against an operand. -/
def Operation.accepts : Operation → Operand → Scalar → Bool
  | equals, .single s, a => a.equals s
  | oneOf, .list items, a => items.any a.equals
  | startsWith, .single (.text t), a => a.startsWith t
  | lessThan, .single s, a => a.compare? s == some .lt
  | greaterThan, .single s, a => a.compare? s == some .gt
  | _, _, _ => false

/-- Whether a reading passes an operation against an operand. -/
def Operation.holds (o : Operation) (v : Operand) (r : Reading) : Bool := r.any (o.accepts v)

/-- No operation holds of what is missing. -/
@[simp] theorem Operation.holds_none (o : Operation) (v : Operand) : o.holds v none = false := rfl

/-- An operation holds of what is there if it accepts it. -/
@[simp] theorem Operation.holds_some (o : Operation) (v : Operand) (a : Scalar) :
    o.holds v (some a) = o.accepts v a := rfl

end Criteria
