import Criteria.Json.Decode
import Criteria.Record
import Criteria.Schema.Basic

/-! # Declarations
A schema for records can be declared as data: its rules, its relations with the declarations of
their schemas, its locale and its limit. Every rule reads the field, and every relation the
collection, of its own name.

* `Declaration.ofJson?` reads a declaration. Declarations are values with fields, so each is written
  as an object or as an array. A field that is missing stands for the default, a key that is unknown
  is passed over, and a value of the wrong type is an error at any depth.
* `Declaration.schema` registers the rules in their order and then the relations in theirs. The first
  declaration that fails is the error. -/

namespace Criteria

/-- The declaration of a rule. -/
structure RuleDeclaration where
  /-- The name of the rule and of the field that it reads. -/
  name : String
  /-- The kind of value. -/
  constraint : Constraint
  /-- The operations that the rule is to offer. -/
  operations : List Operation
deriving DecidableEq, Repr

/-- The **declaration** of a schema. -/
inductive Declaration where
  /-- The rules, the named relations, the locale and the limit on nesting. -/
  | mk (rules : List RuleDeclaration) (relations : List (String × Declaration)) (locale : Locale)
      (maxDepth? : Option UInt64)
deriving Inhabited

namespace RuleDeclaration

/-- The fields of the declaration of a rule. -/
def fieldNames : List String := ["name", "type", "operations"]

/-- Reads the fields of the declaration of a rule; all three are required. -/
def ofFields? (fields : Json.Fields) : Option RuleDeclaration := do
  let name ← Json.required? "name" Json.string? fields
  let constraint ← Json.required? "type" Vocabulary.ofJson? fields
  let operations ← Json.required? "operations" (Json.listOf? Vocabulary.ofJson?) fields
  return { name, constraint, operations }

/-- Reads the declaration of a rule. -/
def ofJson? (v : Json) : Option RuleDeclaration := (v.fields? fieldNames).bind ofFields?

end RuleDeclaration

namespace Declaration

/-- The declaration that declares nothing. -/
def empty : Declaration := mk [] [] .english none

/-- Reads a limit: an integer of 64 bits without sign, or `null` for none. -/
def maxDepthOfJson? : Json → Option (Option UInt64)
  | .null => some none
  | .integer n => if 0 ≤ n ∧ n < UInt64.size then some (some n.toNat.toUInt64) else none
  | _ => none

/-- The fields of a declaration. -/
def fieldNames : List String := ["rules", "relations", "locale", "max_depth"]

/-- The fields of the declaration of a relation. -/
def relationFieldNames : List String := ["name", "schema"]

/-- Reads the fields of a declaration, each of which has a default, once the relations are read. -/
def ofFields? (fields : Json.Fields) (relations? : Option (List (String × Declaration))) :
    Option Declaration := do
  let rules ← Json.optional? "rules" [] (Json.listOf? RuleDeclaration.ofJson?) fields
  let relations ← relations?
  let locale ← Json.optional? "locale" .english Vocabulary.ofJson? fields
  let maxDepth? ← Json.optional? "max_depth" none maxDepthOfJson? fields
  return mk rules relations locale maxDepth?

/-- Reads the fields of a relation, of which the name is required, once its schema is read. -/
def relationOfFields? (fields : Json.Fields) (schema? : Option Declaration) :
    Option (String × Declaration) := do
  let name ← Json.required? "name" Json.string? fields
  let schema ← schema?
  return (name, schema)

mutual

/-- Reads a declaration. -/
def ofJson? : Json → Option Declaration
  | .object members => ofFields? members (relationsOf? members)
  | .array items =>
    if items.length ≤ fieldNames.length then
      ofFields? (fieldNames.zip items) (relationsAt? fieldNames items)
    else none
  | _ => none

/-- Reads the relations among the members of a declaration. -/
def relationsOf? : List (String × Json) → Option (List (String × Declaration))
  | [] => some []
  | (name, v) :: rest => if "relations" = name then relationArray? v else relationsOf? rest

/-- Reads the relations among the items that stand in the fields of these names. -/
def relationsAt? : List String → List Json → Option (List (String × Declaration))
  | name :: names, v :: rest =>
    if "relations" = name then relationArray? v else relationsAt? names rest
  | _, _ => some []

/-- Reads an array of relations. -/
def relationArray? : Json → Option (List (String × Declaration))
  | .array items => relationList? items
  | _ => none

/-- Reads a list of relations. -/
def relationList? : List Json → Option (List (String × Declaration))
  | [] => some []
  | v :: vs => do
    let relation ← relation? v
    let relations ← relationList? vs
    return relation :: relations

/-- Reads one relation. -/
def relation? : Json → Option (String × Declaration)
  | .object members => relationOfFields? members (schemaOf? members)
  | .array items =>
    if items.length ≤ relationFieldNames.length then
      relationOfFields? (relationFieldNames.zip items) (schemaAt? relationFieldNames items)
    else none
  | _ => none

/-- Reads the declaration of a schema among the members of a relation. -/
def schemaOf? : List (String × Json) → Option Declaration
  | [] => some empty
  | (name, v) :: rest => if "schema" = name then ofJson? v else schemaOf? rest

/-- Reads the declaration of a schema among the items that stand in the fields of these names. -/
def schemaAt? : List String → List Json → Option Declaration
  | name :: names, v :: rest => if "schema" = name then ofJson? v else schemaAt? names rest
  | _, _ => some empty

end

/-- The schema before any entry is registered. -/
def blankSchema (locale : Locale) (maxDepth? : Option UInt64) : Schema (Filter Record) :=
  let s := (Schema.empty (Filter.target Record)).withTranslator locale.translator
  match maxDepth? with
  | some maxDepth => s.withMaxDepth maxDepth
  | none => s

/-- Registers a declared rule. -/
def registerRule (s : Schema (Filter Record)) (d : RuleDeclaration) :
    Except BuildError (Schema (Filter Record)) :=
  s.registerRule d.name d.constraint d.operations (Record.rule d.name)

mutual

/-- The **schema** that a declaration declares. -/
def schema : Declaration → Except BuildError (Schema (Filter Record))
  | mk rules relations locale maxDepth? => do
    let s ← rules.foldlM registerRule (blankSchema locale maxDepth?)
    registerRelations relations s

/-- Registers declared relations, each after its own schema has been made. -/
def registerRelations : List (String × Declaration) → Schema (Filter Record) →
    Except BuildError (Schema (Filter Record))
  | [], s => .ok s
  | (name, d) :: rest, s => do
    let child ← schema d
    registerRelations rest (s.registerRelation name (Record.relation name) child)

end

end Declaration

end Criteria
