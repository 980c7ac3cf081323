/-! # Vocabularies
The words of the payload language come in small closed sets: the comparison operations, the two
combinators, the kinds of constraint, the locales. A `Vocabulary` lists the values of such a set and
gives every value its word. Reading is then the same for all of them: `Vocabulary.parse?` looks the
word up, `Vocabulary.parse` also says what was being read when the word is not known.

Main statement: `Vocabulary.parse?_eq_some_iff`, a text reads as a value exactly if it is the value's
word. -/

namespace Criteria

/-- A **vocabulary**: finitely many values, each written as one word. -/
class Vocabulary (α : Type) where
  /-- What a word of this vocabulary is called in messages. -/
  kind : String
  /-- Every value, in declaration order. -/
  all : List α
  /-- The word that stands for a value. -/
  token : α → String
  /-- The list of values is complete. -/
  mem_all : ∀ a, a ∈ all
  /-- No two values share a word. -/
  token_inj : ∀ {a b}, token a = token b → a = b

/-- A word that names nothing in the vocabulary it was read in. -/
structure UnknownToken where
  /-- What was being read. -/
  kind : String
  /-- The rejected word. -/
  token : String
deriving DecidableEq, Repr

/-- The text of the error; the word stands in it as it was given. -/
def UnknownToken.message (e : UnknownToken) : String :=
  "unknown " ++ e.kind ++ " \"" ++ e.token ++ "\""

namespace Vocabulary

variable {α : Type} [Vocabulary α]

/-- The value that a word stands for. -/
def parse? (word : String) : Option α := (all : List α).find? fun a => token a == word

/-- The value that a word stands for, or the word and what it should have been. -/
def parse (word : String) : Except UnknownToken α :=
  match (parse? word : Option α) with
  | some a => .ok a
  | none => .error ⟨kind α, word⟩

/-- A word is read only as what it is the token of. -/
theorem token_of_parse? {word : String} {a : α} (h : parse? word = some a) : token a = word := by
  simpa using List.find?_some h

/-- Every token is read back. -/
@[simp] theorem parse?_token (a : α) : parse? (token a) = some a := by
  cases h : (parse? (token a) : Option α) with
  | none => exact absurd (List.find?_eq_none.1 h a (mem_all a)) (by simp)
  | some b => rw [token_inj (token_of_parse? h)]

/-- A text reads as a value exactly if it is the value's word. -/
theorem parse?_eq_some_iff {word : String} {a : α} : parse? word = some a ↔ word = token a :=
  ⟨fun h => (token_of_parse? h).symm, fun h => h ▸ parse?_token a⟩

end Vocabulary

end Criteria
