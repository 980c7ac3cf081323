import Criteria.Vocabulary

/-! # Issues
What can be wrong with a payload, without any wording. An `Issue` stands alone; a `FieldIssue`
concerns the entry of a schema that has the field's name. The wording comes from a `Translator`. -/

namespace Criteria

/-- An **issue** that concerns no particular entry. -/
inductive Issue where
  /-- Nothing was built although nothing was wrong. -/
  | invalidConfiguration
  /-- A group is malformed, or its combinator is unknown. -/
  | invalidGroup
  /-- Groups and relations are nested beyond the limit of the schema. -/
  | depthExceeded
deriving DecidableEq, Repr

namespace Issue

/-- Every issue. -/
def all : List Issue := [invalidConfiguration, invalidGroup, depthExceeded]

/-- The name of an issue. -/
def name : Issue → String
  | invalidConfiguration => "InvalidConfiguration"
  | invalidGroup => "InvalidGroup"
  | depthExceeded => "DepthExceeded"

instance : Vocabulary Issue where
  kind := "issue"
  all := all
  token := name
  mem_all i := by cases i <;> decide
  token_inj {a b} := by cases a <;> cases b <;> decide

end Issue

/-- An **issue of a field**: it concerns the entry with the field's name. -/
inductive FieldIssue where
  /-- A list of choices is empty. -/
  | emptyArray
  /-- A relation has no children. -/
  | emptyRelation
  /-- A value is `null`. -/
  | emptyValue
  /-- The operation or combinator is unknown. -/
  | invalidOperation
  /-- A required key is missing or of the wrong type. -/
  | invalidRule
  /-- A value does not have the shape that the constraint and the operation need. -/
  | invalidValue
  /-- The schema has no entry under the name. -/
  | missingEntry
  /-- The operation is known, and the entry does not offer it. -/
  | unsupportedOperation
deriving DecidableEq, Repr

namespace FieldIssue

/-- Every issue of a field. -/
def all : List FieldIssue :=
  [emptyArray, emptyRelation, emptyValue, invalidOperation, invalidRule, invalidValue,
    missingEntry, unsupportedOperation]

/-- The name of an issue of a field. -/
def name : FieldIssue → String
  | emptyArray => "EmptyArray"
  | emptyRelation => "EmptyRelation"
  | emptyValue => "EmptyValue"
  | invalidOperation => "InvalidOperation"
  | invalidRule => "InvalidRule"
  | invalidValue => "InvalidValue"
  | missingEntry => "MissingConfigurationEntry"
  | unsupportedOperation => "UnsupportedOperation"

instance : Vocabulary FieldIssue where
  kind := "field issue"
  all := all
  token := name
  mem_all i := by cases i <;> decide
  token_inj {a b} := by cases a <;> cases b <;> decide

end FieldIssue

end Criteria
