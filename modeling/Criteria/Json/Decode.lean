import Criteria.Json.Basic
import Criteria.Vocabulary

/-! # Decoding JSON
The readers that declarations and fixtures are put together from: words of a vocabulary, arrays of
one kind of item, and values with fields.

A word is written as text, or as an object with the word as its only key and `null` under it
(`Json.word?`). A value with fields is written as an object with a member for each of them, or as an
array of what they hold, in their order (`Json.fields?`). A field is required or has a default; one
with a default may be missing, and one that is there has to be of the right type. -/

namespace Criteria

namespace Json

/-! ## Words -/

/-- The **word** that a value writes: a text, or the only key of an object that holds `null`. -/
def word? : Json → Option String
  | string word => some word
  | object [(word, null)] => some word
  | _ => none

/-- A text writes itself. -/
@[simp] theorem word?_string (word : String) : (string word).word? = some word := rfl

end Json

/-- Reads the word of a vocabulary. -/
def Vocabulary.ofJson? {α : Type} [Vocabulary α] (v : Json) : Option α := v.word?.bind parse?

/-- The word of a value reads as the value. -/
@[simp] theorem Vocabulary.ofJson?_token {α : Type} [Vocabulary α] (a : α) :
    (ofJson? (.string (token a)) : Option α) = some a := by
  rw [ofJson?, Json.word?_string, Option.bind_some, parse?_token]

namespace Json

variable {α : Type}

/-! ## Arrays -/

/-- Reads an array whose items are all of one kind. -/
def listOf? (read : Json → Option α) (v : Json) : Option (List α) :=
  v.array?.bind fun items => items.mapM read

/-- A list is read if each of its items is. -/
theorem isSome_mapM (read : Json → Option α) (items : List Json) :
    (items.mapM read).isSome = items.all fun v => (read v).isSome := by
  induction items with
  | nil => rfl
  | cons v items ih =>
    rw [List.mapM_cons, List.all_cons, ← ih]
    cases read v <;> cases items.mapM read <;> rfl

/-- An array of values that are each read back is read back. -/
theorem listOf?_map {read : Json → Option α} {write : α → Json} {xs : List α}
    (h : ∀ x ∈ xs, read (write x) = some x) : (array (xs.map write)).listOf? read = some xs := by
  show (xs.map write).mapM read = some xs
  induction xs with
  | nil => rfl
  | cons x xs ih =>
    rw [List.map_cons, List.mapM_cons, h x List.mem_cons_self,
      ih fun y hy => h y (List.mem_cons_of_mem x hy)]
    rfl

/-- What stands in the **fields** of a value, by their names. -/
abbrev Fields := List (String × Json)

/-- The fields of a value, of which these are the names: the members of an object, or the items of
an array, named in order. An array has no more items than there are names. -/
def fields? (names : List String) : Json → Option Fields
  | object members => some members
  | array items => if items.length ≤ names.length then some (names.zip items) else none
  | _ => none

/-- The members of an object are its fields. -/
@[simp] theorem fields?_object (names : List String) (members : Fields) :
    (object members).fields? names = some members := rfl

/-- Reads a field that is required. -/
def required? (name : String) (read : Json → Option α) (fields : Fields) : Option α :=
  (fields.lookup name).bind read

/-- Reads a field that has a default. -/
def optional? (name : String) (default : α) (read : Json → Option α) (fields : Fields) : Option α :=
  match fields.lookup name with
  | some v => read v
  | none => some default

variable {name : String} {default : α} {read : Json → Option α} {fields : Fields}

end Json

end Criteria
