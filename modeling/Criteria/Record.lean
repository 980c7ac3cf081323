import Criteria.Filter.Basic

/-! # Records
A record is the object that declared schemas filter: named scalars and named collections of further
records. `Record.field` and `Record.related` read it, and never fail: what is not there reads as
nothing. `Record.ofJson` takes every member of a JSON object that can be either of the two. -/

namespace Criteria

/-- A **record**. Where a name occurs twice, the first occurrence counts. -/
inductive Record where
  /-- The fields and the related collections. -/
  | mk (fields : List (String × Scalar)) (collections : List (String × List Record))
deriving Inhabited

namespace Record

/-- The record that holds nothing. -/
def empty : Record := mk [] []

/-- The named scalars. -/
def fields : Record → List (String × Scalar)
  | mk fields _ => fields

/-- The named collections. -/
def collections : Record → List (String × List Record)
  | mk _ collections => collections

/-- The reading of a field. -/
def field (r : Record) (name : String) : Reading := r.fields.lookup name

/-- The related records under a name. -/
def related (r : Record) (name : String) : List Record := (r.collections.lookup name).getD []

/-- Sets the reading of a field. -/
def setField (r : Record) (name : String) (v : Reading) : Record :=
  let others := r.fields.filter (·.1 ≠ name)
  mk (v.toList.map (name, ·) ++ others) r.collections

/-- Sets a related collection. -/
def setRelated (r : Record) (name : String) (records : List Record) : Record :=
  mk r.fields ((name, records) :: r.collections)

/-- An empty record has no field. -/
@[simp] theorem field_empty (name : String) : empty.field name = none := rfl

/-- An empty record has no related records. -/
@[simp] theorem related_empty (name : String) : empty.related name = [] := rfl

/-- Looking up in a list without the pairs of one key finds nothing under that key, and all else as
before. -/
theorem lookup_filter_ne {β : Type} (l : List (String × β)) (name other : String) :
    (l.filter (·.1 ≠ name)).lookup other = if other = name then none else l.lookup other := by
  induction l with
  | nil => simp
  | cons m rest ih =>
    obtain ⟨key, b⟩ := m
    by_cases hkey : key = name
    · have hleft : ((key, b) :: rest).filter (·.1 ≠ name) = rest.filter (·.1 ≠ name) := by
        simp [hkey]
      rw [hleft, ih, List.lookup_cons]
      grind
    · have hkept : ((key, b) :: rest).filter (·.1 ≠ name) =
          (key, b) :: rest.filter (·.1 ≠ name) := by
        simp [hkey]
      rw [hkept, List.lookup_cons, ih, List.lookup_cons]
      grind

/-- Setting a field changes the reading of that field alone. -/
theorem field_setField (r : Record) (name : String) (v : Reading) (other : String) :
    (r.setField name v).field other = if other = name then v else r.field other := by
  show (v.toList.map (name, ·) ++ r.fields.filter (·.1 ≠ name)).lookup other = _
  rw [List.lookup_append, lookup_filter_ne]
  cases v with
  | none => by_cases hother : other = name <;> simp [hother, field]
  | some a =>
    by_cases hother : other = name
    · simp [hother]
    · simp [hother, List.lookup_cons, beq_eq_false_iff_ne.2 hother, field]

/-- Setting a collection changes what is related under that name alone. -/
theorem related_setRelated (r : Record) (name : String) (records : List Record) (other : String) :
    (r.setRelated name records).related other =
      if other = name then records else r.related other := by
  show (((name, records) :: r.collections).lookup other).getD [] = _
  rw [List.lookup_cons]
  by_cases hother : other = name
  · simp [hother]
  · rw [beq_eq_false_iff_ne.2 hother, if_neg hother]
    rfl

mutual

/-- The record that a JSON value holds. Text and numbers become fields and arrays become related
collections, item by item; members of any other kind are left out. A value that is no object gives
the empty record. -/
def ofJson : Json → Record
  | .object members => mk (fieldsOf members) (collectionsOf members)
  | _ => empty

/-- The members that are scalars. -/
def fieldsOf : List (String × Json) → List (String × Scalar)
  | [] => []
  | (name, v) :: rest => (Scalar.ofJson? v).toList.map (name, ·) ++ fieldsOf rest

/-- The members that are arrays. -/
def collectionsOf : List (String × Json) → List (String × List Record)
  | [] => []
  | (name, .array items) :: rest => (name, listOf items) :: collectionsOf rest
  | _ :: rest => collectionsOf rest

/-- The records of a list of values. -/
def listOf : List Json → List Record
  | [] => []
  | v :: vs => ofJson v :: listOf vs

end

/-- The records of several values are the records of each. -/
theorem listOf_eq_map (vs : List Json) : listOf vs = vs.map ofJson := by
  induction vs with
  | nil => simp [listOf]
  | cons v vs ih => simp [listOf, ih]

/-- Follows related collections by name and position. -/
def at? (r : Record) : List (String × Nat) → Option Record
  | [] => some r
  | (name, i) :: path => (r.related name)[i]?.bind (·.at? path)

/-- The filter that compares a field of a record. -/
def rule (name : String) (o : Operation) (v : Operand) : Filter Record := .rule o v (·.field name)

/-- The filter that tests the records related under a name. -/
def relation (name : String) (c : Combinator) (children : List (Filter Record)) : Filter Record :=
  .relate (·.related name) c children

end Record

end Criteria
