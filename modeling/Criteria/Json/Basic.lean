/-! # JSON values
The untyped data that payloads, records and declarations arrive in. An integer literal is kept exact
and apart from every other number: `1` and `1.0` are different values (`Json.integer`,
`Json.decimal`), because a filter compares them under different kinds.

The views `Json.member?`, `Json.string?`, `Json.array?` and `Json.object?` are what the rest of the
library reads values through. -/

namespace Criteria

/-- A **JSON value**. -/
inductive Json where
  /-- The value `null`. -/
  | null
  /-- A truth value. -/
  | bool (b : Bool)
  /-- A number written without fraction and exponent. -/
  | integer (n : Int)
  /-- Any other number. -/
  | decimal (x : Float)
  /-- Text. -/
  | string (s : String)
  /-- A list of values. -/
  | array (items : List Json)
  /-- Named values, in the order they were written. -/
  | object (members : List (String × Json))
deriving Inhabited

namespace Json

/-- The member of an object; no other value has members. -/
def member? (key : String) : Json → Option Json
  | object members => members.lookup key
  | _ => none

/-- The text, if the value is text. -/
def string? : Json → Option String
  | string s => some s
  | _ => none

/-- The truth value, if the value is one. -/
def bool? : Json → Option Bool
  | bool b => some b
  | _ => none

/-- The items, if the value is an array. -/
def array? : Json → Option (List Json)
  | array items => some items
  | _ => none

/-- The members, if the value is an object. -/
def object? : Json → Option (List (String × Json))
  | object members => some members
  | _ => none

/-- Whether the value is `null`. -/
def isNull : Json → Bool
  | null => true
  | _ => false

/-- The member of an object is looked up among its members. -/
@[simp] theorem member?_object (key : String) (members : List (String × Json)) :
    (object members).member? key = members.lookup key := rfl

/-- An array has its items. -/
@[simp] theorem array?_array (items : List Json) : (array items).array? = some items := rfl

/-- Text is itself. -/
@[simp] theorem string?_string (s : String) : (string s).string? = some s := rfl

/-- Only a string is text. -/
theorem string?_eq_some_iff {v : Json} {s : String} : v.string? = some s ↔ v = string s := by
  cases v <;> simp [string?]

/-- Only an array has items. -/
theorem array?_eq_some_iff {v : Json} {items : List Json} :
    v.array? = some items ↔ v = array items := by
  cases v <;> simp [array?]

end Json

end Criteria
