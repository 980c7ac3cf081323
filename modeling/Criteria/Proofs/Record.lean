import Criteria.Proofs.Payload
import Criteria.Record
import Mathlib.Data.List.Basic

/-! # Reading records off JSON
What a record gives back for a name is what stands under that name in the JSON value that it was
read from. `Json.first?` is the first member under a key that can be read in a given way; where the
keys of an object are distinct, as they are in JSON text that has been parsed, it is *the* member
under the key, if it can be read (`Json.first?_of_nodup`).

Main statements: `Record.field_ofJson`, a field reads the text or number under its name;
`Record.related_ofJson`, a related collection holds the records of the array under its name. -/

namespace Criteria

namespace Json

/-- The first member under a key that can be **read** in the given way. -/
def first? {α : Type} (read : Json → Option α) (key : String) (v : Json) : Option α :=
  (v.object?.getD []).findSome? fun m => if m.1 = key then read m.2 else none

/-- The text or number under a key. -/
def scalar? (key : String) (v : Json) : Option Scalar := v.first? Scalar.ofJson? key

/-- The elements of the array under a key, none if there is no array. -/
def elements (key : String) (v : Json) : List Json := (v.first? array? key).getD []

variable {α : Type} {read : Json → Option α} {key : String}

/-- Of an object the first member is read that stands under the key and can be read. -/
theorem first?_object (members : List (String × Json)) :
    (object members).first? read key =
      members.findSome? fun m => if m.1 = key then read m.2 else none := rfl

/-- Nothing is read of an object without members. -/
@[simp] theorem first?_object_nil : (object []).first? read key = none := rfl

/-- The first member is read if it can be, and else the others are. -/
theorem first?_object_cons (name : String) (w : Json) (rest : List (String × Json)) :
    (object ((name, w) :: rest)).first? read key =
      (if name = key then read w else none).or ((object rest).first? read key) := by
  rw [first?_object, first?_object, List.findSome?_cons]
  cases (if name = key then read w else none) <;> rfl

/-- Nothing is read under a key that is not there. -/
theorem first?_of_not_mem {members : List (String × Json)} (h : key ∉ members.map Prod.fst) :
    (object members).first? read key = none := by
  rw [first?_object, List.findSome?_eq_none_iff]
  intro m hm
  exact if_neg fun heq => h (List.mem_map.2 ⟨m, hm, heq⟩)

/-- Where keys are **distinct** it is the member under the key that is read. -/
theorem first?_of_nodup {members : List (String × Json)} (h : (members.map Prod.fst).Nodup) :
    (object members).first? read key = ((object members).member? key).bind read := by
  induction members with
  | nil => rfl
  | cons m rest ih =>
    obtain ⟨name, w⟩ := m
    obtain ⟨hnot, hrest⟩ := List.nodup_cons.1 h
    rw [first?_object_cons, member?_object, List.lookup_cons]
    by_cases hname : name = key
    · subst hname
      simp [first?_of_not_mem hnot]
    · rw [if_neg hname, Option.none_or, ih hrest, beq_eq_false_iff_ne.2 (Ne.symm hname)]
      rfl

end Json

namespace Record

/-- The field under a name is the first text or number that stands there. -/
theorem lookup_fieldsOf (members : List (String × Json)) (name : String) :
    (fieldsOf members).lookup name = (Json.object members).scalar? name := by
  induction members with
  | nil => simp [fieldsOf, Json.scalar?]
  | cons m rest ih =>
    obtain ⟨key, w⟩ := m
    rw [fieldsOf, List.lookup_append, ih, Json.scalar?, Json.scalar?, Json.first?_object_cons]
    congr 1
    cases Scalar.ofJson? w with
    | none => simp
    | some a =>
      by_cases hkey : key = name
      · simp [hkey]
      · simp [hkey, List.lookup_cons, beq_eq_false_iff_ne.2 (Ne.symm hkey)]

/-- The collection under a name is made of the first array that stands there. -/
theorem lookup_collectionsOf (members : List (String × Json)) (name : String) :
    (collectionsOf members).lookup name =
      ((Json.object members).first? Json.array? name).map fun items => items.map ofJson := by
  induction members with
  | nil => simp [collectionsOf]
  | cons m rest ih =>
    obtain ⟨key, w⟩ := m
    rw [Json.first?_object_cons]
    cases w with
    | array items =>
      rw [collectionsOf, List.lookup_cons, ih, listOf_eq_map]
      by_cases hkey : key = name
      · simp [hkey]
      · simp [hkey, beq_eq_false_iff_ne.2 (Ne.symm hkey)]
    | _ => simp [collectionsOf, ih, Json.array?]

/-- **A field** reads the text or number under its name. -/
@[simp] theorem field_ofJson (v : Json) (name : String) : (ofJson v).field name = v.scalar? name := by
  cases v with
  | object members =>
    rw [ofJson]
    exact lookup_fieldsOf members name
  | _ => simp [ofJson, Json.scalar?, Json.first?, Json.object?]

/-- **A related collection** holds the records of the array under its name. -/
@[simp] theorem related_ofJson (v : Json) (name : String) :
    (ofJson v).related name = (v.elements name).map ofJson := by
  cases v with
  | object members =>
    rw [ofJson, related, collections, lookup_collectionsOf, Json.elements]
    cases (Json.object members).first? Json.array? name <;> rfl
  | _ => simp [ofJson, Json.elements, Json.first?, Json.object?]

end Record

end Criteria
