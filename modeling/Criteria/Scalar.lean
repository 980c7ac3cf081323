import Criteria.Json.Basic

/-! # Scalars
A scalar is a text, an integer of 64 bits or a double: what a rule compares and what a field holds.
A **reading** is what is found under a field name, a scalar or nothing.

Two comparisons are defined. `Scalar.equals` is strict, it never crosses the border between
integers and doubles. `Scalar.compare?` is an order that does cross it, through the double nearest
to the integer, and that leaves text against number, and anything against a NaN, unordered. -/

namespace Criteria

/-- A **scalar**. -/
inductive Scalar where
  /-- Text. -/
  | text (s : String)
  /-- An integer of 64 bits. -/
  | int (n : Int64)
  /-- A double. -/
  | float (x : Float)

namespace Scalar

/-- Reads a scalar: text stands for itself, an integer literal for an integer if 64 bits hold it,
and any other number for the nearest double. -/
def ofJson? : Json → Option Scalar
  | .string s => some (text s)
  | .integer n =>
    if Int64.minValue.toInt ≤ n ∧ n ≤ Int64.maxValue.toInt then some (int (.ofInt n))
    else some (float (.ofInt n))
  | .decimal x => some (float x)
  | _ => none

/-- Reads an array of scalars; one item that is no scalar spoils it. -/
def listOfJson? (v : Json) : Option (List Scalar) := v.array?.bind fun items => items.mapM ofJson?

/-- Whether the scalar is a number. -/
def isNumber : Scalar → Bool
  | text _ => false
  | _ => true

/-- The text, if the scalar is text. -/
def text? : Scalar → Option String
  | text s => some s
  | _ => none

/-- The name of the scalar's kind. -/
def kind : Scalar → String
  | text _ => "string"
  | int _ => "int"
  | float _ => "float"

/-- **Strict equality**: same kind and same value. -/
def equals : Scalar → Scalar → Bool
  | text a, text b => a == b
  | int a, int b => a == b
  | float a, float b => a == b
  | _, _ => false

/-- The order of two doubles, if they are ordered. -/
def compareFloat? (x y : Float) : Option Ordering :=
  if x < y then some .lt else if y < x then some .gt else if x == y then some .eq else none

/-- The **order** of two scalars: texts by their characters, numbers by their size. -/
def compare? : Scalar → Scalar → Option Ordering
  | text a, text b => some (compare a b)
  | int a, int b => some (compare a b)
  | float a, float b => compareFloat? a b
  | int a, float b => compareFloat? a.toFloat b
  | float a, int b => compareFloat? a b.toFloat
  | _, _ => none

/-- Whether the scalar is text that begins with the given text. -/
def startsWith (s : Scalar) (beginning : String) : Bool :=
  match s with
  | text t => beginning.toList.isPrefixOf t.toList
  | _ => false

end Scalar

/-- A **reading** of a field: its scalar, or nothing where there is no data. -/
abbrev Reading := Option Scalar

namespace Reading

/-- The name of a reading's kind. -/
def kind : Reading → String
  | none => "none"
  | some s => s.kind

/-- Strict equality with a scalar; an absent reading equals nothing. -/
def equals (r : Reading) (s : Scalar) : Bool := r.any (·.equals s)

/-- The order relative to a scalar; an absent reading is unordered. -/
def compare? (r : Reading) (s : Scalar) : Option Ordering := r.bind (·.compare? s)

/-- A missing field equals nothing. -/
@[simp] theorem equals_none (s : Scalar) : equals none s = false := rfl

/-- A field equals what its content equals. -/
@[simp] theorem equals_some (a s : Scalar) : equals (some a) s = a.equals s := rfl

/-- A missing field stands in no order. -/
@[simp] theorem compare?_none (s : Scalar) : compare? none s = none := rfl

/-- A field is ordered as its content is. -/
@[simp] theorem compare?_some (a s : Scalar) : compare? (some a) s = a.compare? s := rfl

end Reading

end Criteria
