import Criteria.Declaration
import Criteria.Description
import Criteria.Schema.Compile

/-! # Fixtures
A fixture tests a declared schema on a payload. It either expects the payload to be refused with
exactly the given messages, or names cases: records with the answer that the filter should give on
each.

* `Fixture.run`: the results of the cases.
* `Fixture.verdict`: whether the fixture passes, and if not, why. -/

namespace Criteria

/-- A **case** of a fixture. -/
structure Case where
  /-- The name of the case. -/
  name : String
  /-- The record, as raw data. -/
  record : Json
  /-- The answer that the filter should give. -/
  expect : Bool

/-- A **fixture**. -/
structure Fixture where
  /-- The name. -/
  name : String
  /-- What is tested, in words. -/
  description : String
  /-- The schema. -/
  declaration : Declaration
  /-- The payload. -/
  payload : Json
  /-- The messages that the payload should be refused with, if it should be refused. -/
  expectErrors? : Option (List String)
  /-- The cases. -/
  cases : List Case

/-- The result of a case. -/
structure CaseResult where
  /-- The name of the case. -/
  name : String
  /-- The answer that was expected. -/
  expected : Bool
  /-- The answer that the filter gave. -/
  actual : Bool
deriving DecidableEq, Repr

/-- Whether the answer was the expected one. -/
def CaseResult.passed (r : CaseResult) : Bool := r.actual == r.expected

/-- The **verdict** on a fixture. -/
inductive Verdict where
  /-- Everything was as expected. -/
  | passed
  /-- A refusal was expected, and a filter was built. -/
  | unexpectedFilter (expected : List String) (f : Filter Record)
  /-- The messages were not the expected ones. -/
  | unexpectedErrors (expected actual : List String)
  /-- A filter was expected, and none was built. -/
  | buildFailed (e : BuildError)
  /-- A case had the wrong answer. -/
  | caseFailed (r : CaseResult)

/-- Reads the fields of a case. A record that is missing is `null`. -/
def Case.ofFields? (fields : Json.Fields) : Option Case := do
  let name ← Json.required? "name" Json.string? fields
  let record ← Json.optional? "record" .null some fields
  let expect ← Json.required? "expect" Json.bool? fields
  return { name, record, expect }

/-- Reads a case. -/
def Case.ofJson? (v : Json) : Option Case := (v.fields? ["name", "record", "expect"]).bind ofFields?

namespace Fixture

/-- Reads the expected messages; `null` stands for none expected. -/
def expectErrorsOfJson? : Json → Option (Option (List String))
  | .null => some none
  | v => (v.listOf? Json.string?).map some

/-- Reads the fields of a fixture. -/
def ofFields? (fields : Json.Fields) : Option Fixture := do
  let name ← Json.required? "name" Json.string? fields
  let description ← Json.required? "description" Json.string? fields
  let declaration ← Json.required? "schema" Declaration.ofJson? fields
  let payload ← Json.required? "payload" some fields
  let expectErrors? ← Json.optional? "expect_errors" none expectErrorsOfJson? fields
  let cases ← Json.optional? "cases" [] (Json.listOf? Case.ofJson?) fields
  return { name, description, declaration, payload, expectErrors?, cases }

/-- Reads a fixture. Unknown keys are passed over. -/
def ofJson? (v : Json) : Option Fixture :=
  (v.fields? ["name", "description", "schema", "payload", "expect_errors", "cases"]).bind ofFields?

/-- The filter that the payload compiles to under the declared schema. -/
def filter (x : Fixture) : Except BuildError (Filter Record) :=
  match x.declaration.schema with
  | .ok s => s.compile x.payload
  | .error e => .error e

/-- The result of a case under a filter. -/
def result (f : Filter Record) (c : Case) : CaseResult where
  name := c.name
  expected := c.expect
  actual := f.adheres (.ofJson c.record)

/-- Runs the cases, whatever messages are expected. -/
def run (x : Fixture) : Except BuildError (List CaseResult) :=
  x.filter.map fun f => x.cases.map (result f)

/-- The messages of an error; one that is not about the payload is a single message. -/
def messages (e : BuildError) : List String := e.validationMessages?.getD [e.message]

/-- **Judges** the fixture. Where messages are expected the cases do not count; of several failing
cases the first one decides. -/
def verdict (x : Fixture) : Verdict :=
  match x.expectErrors? with
  | some expected =>
    match x.filter with
    | .ok f => .unexpectedFilter expected f
    | .error e => if messages e = expected then .passed else .unexpectedErrors expected (messages e)
  | none =>
    match x.run with
    | .error e => .buildFailed e
    | .ok results =>
      match results.find? (!·.passed) with
      | some r => .caseFailed r
      | none => .passed

end Fixture

namespace Verdict

/-- A list of messages in a verdict. -/
def messageList (messages : List String) : String := Text.list (messages.map Text.quote)

/-- What went wrong with the named fixture, if anything did. -/
def message? (fixture : String) : Verdict → Option String
  | passed => none
  | unexpectedFilter expected f =>
    some ("Fixture '" ++ fixture ++ "' expected errors " ++ messageList expected ++
      ", got filter " ++ f.describe)
  | unexpectedErrors expected actual =>
    some ("assertion `left == right` failed: Fixture '" ++ fixture ++
      "' produced unexpected errors\n  left: " ++ messageList actual ++
      "\n right: " ++ messageList expected)
  | buildFailed e => some ("Fixture '" ++ fixture ++ "' failed to build: " ++ e.message)
  | caseFailed r =>
    some ("Fixture '" ++ fixture ++ "' case '" ++ r.name ++ "' failed: expected " ++
      toString r.expected ++ ", got " ++ toString r.actual)

end Verdict

end Criteria
