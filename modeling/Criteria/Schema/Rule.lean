import Criteria.BuildError
import Criteria.Operand

/-! # Rules
A rule is the entry of a schema for a scalar field: its name, its constraint, the operations that it
offers, how a comparison becomes a filter of type `F`, and possibly a check of its own. The
operations of a rule are free of duplicates and permitted by its constraint, which is part of the
type; `Rule.declare` is the way to make one.

A declaration reads the listed operations one by one (`Constraint.select`): the first that the
constraint does not permit is the error, one that is selected already is passed over, and any other
is selected behind the rest. -/

namespace Criteria

/-- A **check** of the raw value of a rule, beyond what the constraint asks. -/
abbrev Check := Json → List Complaint

/-- A **selection**: operations that a rule of a constraint can offer. -/
structure Constraint.Selection (constraint : Constraint) where
  /-- The operations, in the order in which they were selected. -/
  operations : List Operation
  /-- No operation is selected twice. -/
  nodup : operations.Nodup
  /-- The constraint permits what is selected. -/
  permitted : ∀ o ∈ operations, constraint.permits o

namespace Constraint.Selection

variable {constraint : Constraint}

/-- The selection of nothing. -/
def empty : Selection constraint := ⟨[], .nil, nofun⟩

/-- Selects an operation behind the rest, unless it is selected already. -/
def add (s : Selection constraint) (o : Operation) (h : constraint.permits o) :
    Selection constraint :=
  if ho : o ∈ s.operations then s
  else {
    operations := s.operations ++ [o]
    nodup := by
      have hfresh : ∀ a ∈ s.operations, a ≠ o := by
        rintro a ha rfl
        exact ho ha
      simpa [List.nodup_append, s.nodup] using hfresh
    permitted := by simpa [or_imp, forall_and, h] using s.permitted }

/-- **Reads one operation** of those that are listed for the rule of a name. -/
def read (name : String) (s : Selection constraint) (o : Operation) :
    Except BuildError (Selection constraint) :=
  if h : constraint.permits o then .ok (s.add o h)
  else .error (.unsupportedOperation name o constraint)

/-- An operation that is selected already changes nothing. -/
theorem operations_add_of_mem {s : Selection constraint} {o : Operation}
    {h : constraint.permits o} (ho : o ∈ s.operations) :
    (s.add o h).operations = s.operations := by
  rw [add, dif_pos ho]

/-- A new operation is selected behind the rest. -/
theorem operations_add_of_not_mem {s : Selection constraint} {o : Operation}
    {h : constraint.permits o} (ho : o ∉ s.operations) :
    (s.add o h).operations = s.operations ++ [o] := by
  rw [add, dif_neg ho]

/-- An operation that is permitted is selected. -/
theorem read_of_permits {name : String} {s : Selection constraint} {o : Operation}
    (h : constraint.permits o) : s.read name o = .ok (s.add o h) := by
  rw [read, dif_pos h]

/-- An operation that is not permitted ends the reading. -/
theorem read_of_not_permits {name : String} {s : Selection constraint} {o : Operation}
    (h : ¬ constraint.permits o) :
    s.read name o = .error (.unsupportedOperation name o constraint) := by
  rw [read, dif_neg h]

end Constraint.Selection

/-- **Reads the operations** that are listed for the rule of a name, one by one. -/
def Constraint.select (constraint : Constraint) (name : String) (operations : List Operation) :
    Except BuildError constraint.Selection :=
  operations.foldlM (Selection.read name) .empty

/-- A **rule** that makes filters of type `F`. -/
structure Rule (F : Type) where
  /-- The name of the rule and of its field in messages. -/
  name : String
  /-- The kind of value. -/
  constraint : Constraint
  /-- The operations that the rule offers. -/
  operations : List Operation
  /-- The filter that a comparison becomes. -/
  bind : Operation → Operand → F
  /-- The rule's own check, if it has one. -/
  check? : Option Check := none
  /-- No operation is offered twice. -/
  nodup : operations.Nodup
  /-- The constraint permits what is offered. -/
  permitted : ∀ o ∈ operations, constraint.permits o

namespace Rule

variable {F : Type}

/-- **Declares** a rule, which offers what is selected of the listed operations. -/
def declare (name : String) (constraint : Constraint) (operations : List Operation)
    (bind : Operation → Operand → F) : Except BuildError (Rule F) :=
  (constraint.select name operations).map fun s =>
    { name, constraint, operations := s.operations, bind, nodup := s.nodup, permitted := s.permitted }

section Declare

variable {name : String} {constraint : Constraint} {operations : List Operation}
  {bind : Operation → Operand → F}

/-- A declared rule is made of a selection. -/
theorem declare_eq_ok_iff {r : Rule F} :
    declare name constraint operations bind = .ok r ↔
      ∃ s, constraint.select name operations = .ok s ∧
        r = { name, constraint, operations := s.operations, bind, nodup := s.nodup,
              permitted := s.permitted } := by
  rw [declare]
  cases constraint.select name operations with
  | error e => simp [Except.map]
  | ok s => simp [Except.map, eq_comm]

/-- A declaration fails with the error that ends the reading. -/
theorem declare_eq_error_iff {e : BuildError} :
    declare name constraint operations bind = .error e ↔
      constraint.select name operations = .error e := by
  rw [declare]
  cases constraint.select name operations with
  | error e' => simp [Except.map]
  | ok s => simp [Except.map]

end Declare

/-- Whether the rule offers an operation. -/
def supports (r : Rule F) (o : Operation) : Bool := r.operations.contains o

/-- What the rule's own check has to say about a value. -/
def complaints (r : Rule F) (v : Json) : List Complaint :=
  match r.check? with
  | some check => check v
  | none => []

/-- A rule supports what it offers. -/
theorem supports_iff {r : Rule F} {o : Operation} : r.supports o ↔ o ∈ r.operations := by
  simp [supports]

end Rule

end Criteria
