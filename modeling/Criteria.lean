import Criteria.BuildError
import Criteria.Condition
import Criteria.Decimal.Layout
import Criteria.Decimal.Shortest
import Criteria.Declaration
import Criteria.Description
import Criteria.Filter.Basic
import Criteria.Fixture
import Criteria.Issue
import Criteria.Json.Basic
import Criteria.Json.Decode
import Criteria.Node
import Criteria.Operand
import Criteria.Operation
import Criteria.Proofs.Compile.Acceptance
import Criteria.Proofs.Compile.Binding
import Criteria.Proofs.Compile.Coverage
import Criteria.Proofs.Compile.Growth
import Criteria.Proofs.Compile.Levels
import Criteria.Proofs.Compile.Objects
import Criteria.Proofs.Compile.Outline
import Criteria.Proofs.Compile.Parallel
import Criteria.Proofs.Compile.Places
import Criteria.Proofs.Compile.Problem
import Criteria.Proofs.Compile.Rejection
import Criteria.Proofs.Compile.Relations
import Criteria.Proofs.Compile.RuleNode
import Criteria.Proofs.Compile.Siblings
import Criteria.Proofs.Compile.Step
import Criteria.Proofs.Compile.Unread
import Criteria.Proofs.Compile.Wording
import Criteria.Proofs.Condition.Monotone
import Criteria.Proofs.Declaration.Lookup
import Criteria.Proofs.Declaration.Meaning
import Criteria.Proofs.Payload
import Criteria.Proofs.Record
import Criteria.Record
import Criteria.Report
import Criteria.Scalar
import Criteria.Schema.Basic
import Criteria.Schema.Checked
import Criteria.Schema.Compile
import Criteria.Schema.Rule
import Criteria.Text.Quoted
import Criteria.Text.Structured
import Criteria.Translator
import Criteria.Vocabulary
import Criteria.Proofs.Compile.Flattening
import Criteria.Proofs.Compile.Limit
import Criteria.Proofs.Compile.Checked
import Criteria.Proofs.Declaration.Failure
import Criteria.Proofs.Schema.ByteOrder
import Criteria.Proofs.Schema.Registration
import Criteria.Proofs.Operation.Agreement
import Criteria.Proofs.Translator
import Criteria.Proofs.Fixture
import Criteria.Proofs.Record.Paths
import Criteria.Proofs.Record.Strays
import Criteria.Proofs.Schema.Declaring
import Criteria.Proofs.Declaration.Shape
import Criteria.Proofs.Declaration.Decoding
