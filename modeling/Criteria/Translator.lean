import Criteria.Issue

/-! # Translators
A translator words the issues of a payload. `Translator.english` and `Translator.dutch` are the
built-in ones, chosen by a `Locale`; any other function from issues to text will do. The name of a
field is set between apostrophes and is not escaped. -/

namespace Criteria

/-- A **translator**: the wording of every issue. -/
structure Translator where
  /-- The name under which descriptions show the translator. -/
  name : String
  /-- The text of an issue. -/
  issue : Issue → String
  /-- The text of an issue of the named field. -/
  fieldIssue : FieldIssue → String → String

namespace Translator

/-- English texts. -/
def english : Translator where
  name := "English"
  issue
    | .invalidGroup => "Invalid group"
    | .invalidConfiguration => "Invalid configuration"
    | .depthExceeded => "Filter is nested too deeply"
  fieldIssue i field :=
    match i with
    | .emptyArray => "Field '" ++ field ++ "' must contain values"
    | .emptyValue => "Value for '" ++ field ++ "' cannot be empty"
    | .emptyRelation => "A relation must contain rules"
    | .invalidRule => "Invalid rule for field '" ++ field ++ "'"
    | .invalidValue => "Invalid value for '" ++ field ++ "'"
    | .missingEntry => "Configuration doesn't contain an entry with name '" ++ field ++ "'"
    | .unsupportedOperation => "Operation is not supported for '" ++ field ++ "'"
    | .invalidOperation => "Invalid operation for '" ++ field ++ "'"

/-- Dutch texts. -/
def dutch : Translator where
  name := "Dutch"
  issue
    | .invalidGroup => "Ongeldige groep"
    | .invalidConfiguration => "Ongeldige configuratie"
    | .depthExceeded => "Het filter is te diep genest"
  fieldIssue i field :=
    match i with
    | .emptyArray => "Het veld '" ++ field ++ "' moet waarden bevatten"
    | .emptyValue => "De waarde voor '" ++ field ++ "' mag niet leeg zijn"
    | .emptyRelation => "Een relatie moet regels bevatten"
    | .invalidRule => "Ongeldige regel voor '" ++ field ++ "'"
    | .invalidValue => "Ongeldige waarde voor '" ++ field ++ "'"
    | .missingEntry => "De configuratie bevat geen regel voor '" ++ field ++ "'"
    | .unsupportedOperation => "De operatie voor '" ++ field ++ "' wordt niet ondersteund"
    | .invalidOperation => "Ongeldige operatie voor '" ++ field ++ "'"

end Translator

/-- A **locale**: one of the built-in languages. -/
inductive Locale where
  /-- English. -/
  | english
  /-- Dutch. -/
  | dutch
deriving DecidableEq, Repr, Inhabited

namespace Locale

/-- Every locale. -/
def all : List Locale := [english, dutch]

/-- The word for a locale in a declaration. -/
def token : Locale → String
  | english => "en"
  | dutch => "nl"

/-- The name of a locale in a description. -/
def label : Locale → String
  | english => "English"
  | dutch => "Dutch"

instance : Vocabulary Locale where
  kind := "locale"
  all := all
  token := token
  mem_all l := by cases l <;> decide
  token_inj {a b} := by cases a <;> cases b <;> decide

/-- The translator of a locale. -/
def translator : Locale → Translator
  | english => .english
  | dutch => .dutch

end Locale

end Criteria
