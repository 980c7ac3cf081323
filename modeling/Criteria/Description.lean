import Criteria.Decimal.Layout
import Criteria.Schema.Basic
import Criteria.Text.Quoted
import Criteria.Text.Structured

/-! # Descriptions
A text for people about scalars, operands, filters, rules, schemas and reports. What is behind a
function is left out and marked by two dots. -/

namespace Criteria

open Text

/-- Doubles are positional from `0.0001` up to sixteen digits before the point, a whole number
keeps a zero after the point, and the exponent carries a sign only if it is negative. -/
def Scalar.floatLayout : Decimal.Layout where
  positionalFrom := -4
  positionalBelow := 16
  wholeSuffix := ".0"
  exponentMark := "e"
  infinity := "inf"
  notANumber := "NaN"

/-- A scalar with its kind. -/
def Scalar.describe : Scalar → String
  | text s => application "String" [quote s]
  | int n => application "Int" [toString n.toInt]
  | float x => application "Float" [floatLayout.write x]

/-- An operand: a scalar or a list of them. -/
def Operand.describe : Operand → String
  | single s => application "Scalar" [s.describe]
  | list items => application "List" [Text.list (items.map Scalar.describe)]

namespace Filter

variable {α : Type}

mutual

/-- A filter: a group with its children, a rule with its comparison, a relation with its size. -/
def describe : Filter α → String
  | group c children => application c.label (describeAll children)
  | rule o v _ => openRecord "Rule" [("operation", o.label), ("value", v.describe)]
  | relation c size _ _ => openRecord "Relation" [("group", c.label), ("children", toString size)]

/-- The descriptions of a list of filters. -/
def describeAll : List (Filter α) → List String
  | [] => []
  | f :: fs => f.describe :: describeAll fs

end

end Filter

variable {F : Type}

/-- A rule with its name, its constraint, what it offers, and whether it has a check. -/
def Rule.describe (r : Rule F) : String :=
  openRecord "RuleEntry"
    [("name", quote r.name), ("constraint", r.constraint.label),
      ("operations", Text.list (r.operations.map Operation.label)),
      ("validation", toString r.check?.isSome)]

/-- An entry without saying which kind it is of: a rule, or a relation with its name. -/
def Entry.describePlain : Entry F → String
  | rule r => r.describe
  | relation name _ _ => openRecord "RelationEntry" [("name", quote name)]

/-- An entry with its kind. -/
def Entry.describe (e : Entry F) : String :=
  application (if e.isRule then "Rule" else "Relation") [e.describePlain]

/-- What the two descriptions of a schema have in common, after the given text for its entries. -/
def Schema.describeWith (s : Schema F) (title entries : String) : String :=
  record title
    [("entries", entries), ("strategy", s.target.name), ("translator", s.translator.name),
      ("max_depth", toString s.maxDepth.toNat)]

/-- A schema in the making, with the number of its entries. -/
def Schema.describeDraft (s : Schema F) : String :=
  s.describeWith "ConfigurationBuilder" (toString s.size)

/-- A finished schema, with the names of its entries. -/
def Schema.describe (s : Schema F) : String :=
  s.describeWith "Configuration" (Text.list (s.names.map quote))

/-- A report as the check of a field sees it. -/
def Report.describeFor (r : Report) (field : String) : String :=
  openRecord "FieldSink" [("field", quote field), ("recorded", toString r.size)]

end Criteria
