import Criteria.Record

/-! # Conditions
A condition is the text-like form of a filter: a tree in which rules and relations carry the *names*
of what they read instead of functions. `Condition.toFilter` binds the names to a record, so the
filter of a condition has the same shape. -/

namespace Criteria

/-- A **condition** on records. -/
inductive Condition where
  /-- Children joined by a combinator. -/
  | group (c : Combinator) (children : List Condition)
  /-- A comparison of the named field. -/
  | rule (field : String) (o : Operation) (v : Operand)
  /-- A test of the records related under a name. -/
  | relation (field : String) (c : Combinator) (children : List Condition)

namespace Condition

mutual

/-- The filter over records that a condition stands for. -/
def toFilter : Condition → Filter Record
  | group c children => .group c (toFilters children)
  | rule field o v => Record.rule field o v
  | relation field c children => Record.relation field c (toFilters children)

/-- The filters of a list of conditions. -/
def toFilters : List Condition → List (Filter Record)
  | [] => []
  | c :: cs => c.toFilter :: toFilters cs

end

/-- The filters of several conditions are the filters of each. -/
theorem toFilters_eq_map (cs : List Condition) : toFilters cs = cs.map toFilter := by
  induction cs with
  | nil => simp [toFilters]
  | cons c cs ih => simp [toFilters, ih]

end Condition

end Criteria
