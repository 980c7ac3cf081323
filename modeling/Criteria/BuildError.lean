import Criteria.Operation
import Criteria.Report

/-! # Errors
The ways in which declaring a schema, looking up an entry or compiling a payload can fail
(`BuildError`), and the text of each (`BuildError.message`). -/

namespace Criteria

/-- What failed. -/
inductive BuildError where
  /-- The payload is not valid; the report says everything that is wrong with it. -/
  | validation (report : Report)
  /-- Nothing was built although nothing was reported. -/
  | invalidConfiguration (message : String)
  /-- A schema has no entry under the name. -/
  | missingEntry (name : String) (message : String)
  /-- A rule was declared with an operation that its constraint does not permit. -/
  | unsupportedOperation (name : String) (o : Operation) (c : Constraint)
deriving DecidableEq, Repr

namespace BuildError

/-- The text of an error. The name of a rule stands in it as it was given. -/
def message : BuildError → String
  | validation report => report.sentence
  | invalidConfiguration message => message
  | missingEntry _ message => message
  | unsupportedOperation name o c =>
    "operation \"" ++ o.token ++ "\" is not permitted for " ++ c.token ++ " rule \"" ++ name ++ "\""

/-- The messages about the payload, if the payload was not valid. -/
def validationMessages? : BuildError → Option (List String)
  | validation report => some report.toList
  | _ => none

end BuildError

end Criteria
