import Criteria.Node
import Criteria.Schema.Basic

/-! # Compiling payloads
A schema compiles a payload into a filter and reports everything that is wrong with it. What a node
stands for under a schema is its `Role`. Compiling walks the tree of nodes; at a relation the schema
of the relation takes over for the children, while the relation itself is still judged by the schema
it stands in.

A problem never stops the walk. A node that fails its own checks is left out, its siblings are
compiled all the same, and a group is made of whatever is left. A group or relation whose level
exceeds the limit of its schema is not looked into.

* `Schema.compileAs`: a node in a given role, and `Schema.compileAll`: the nodes of a list, each in
  its own role.
* `Schema.compileGroup`, `Schema.compileChildren`, `Schema.compileEntry`: the same for raw values.
* `Schema.compile`: a whole payload, which has to be a group and is accepted if nothing is reported.

Each takes the level of the node above, which is zero above the root, and the report so far, and
answers with the report after it. Levels are counted in 64 bits. -/

namespace Criteria

/-- What a node **stands for** under a schema. -/
inductive Role (F : Type) : Type 1 where
  /-- Nothing: it is neither a group nor named. -/
  | ignored
  /-- A group. -/
  | group
  /-- A name without an entry. -/
  | unregistered (name : String)
  /-- An entry of the schema. -/
  | entry (e : Entry F)

/-- The combinator of a well-formed group. -/
def Head.groupCombinator? (h : Head) : Option Combinator :=
  if h.isGroup then h.operation?.bind Vocabulary.parse? else none

namespace Schema

/-- The role of a node among the children of a group or relation. -/
def role {F : Type} (s : Schema F) (h : Head) : Role F :=
  if h.isGroup then .group
  else match h.name? with
    | none => .ignored
    | some name =>
      match s.find? name with
      | none => .unregistered name
      | some e => .entry e

/-- Compiles a node that stands for a rule. An operation that the rule does not offer, a complaint
of the rule's own check and a `null` are reported and do not keep the comparison from being made;
only a value without an operand does. -/
def compileRule {F : Type} (s : Schema F) (rule : Rule F) (h : Head) (r : Report) :
    Option F × Report :=
  let t := s.translator
  match h.operation?, h.value? with
  | some word, some v =>
    match (Vocabulary.parse? word : Option Operation) with
    | none => (none, r.fieldIssue t .invalidOperation rule.name)
    | some o =>
      let r := if rule.supports o then r else r.fieldIssue t .unsupportedOperation rule.name
      let r := r.complainAll t rule.name (rule.complaints v)
      let r := if v.isNull then r.fieldIssue t .emptyValue rule.name else r
      match rule.constraint.operand o v with
      | .ok operand => (some (rule.bind o operand), r)
      | .error issue => (none, r.fieldIssue t issue rule.name)
  | _, _ => (none, r.fieldIssue t .invalidRule rule.name)

mutual

/-- Compiles a node in a role. -/
def compileAs {F : Type} (s : Schema F) : Role F → Node → UInt64 → Report → Option F × Report
  | .ignored, _, _, r => (none, r)
  | .unregistered name, _, _, r => (none, r.fieldIssue s.translator .missingEntry name)
  | .entry (.rule rule), n, _, r => s.compileRule rule n.head r
  | .group, .leaf _, _, r => (none, r.issue s.translator .invalidGroup)
  | .group, .branch h children, depth, r =>
    match h.groupCombinator? with
    | none => (none, r.issue s.translator .invalidGroup)
    | some c =>
      if s.maxDepth < depth + 1 then (none, r.issue s.translator .depthExceeded)
      else
        let (fs, r) := compileAll s children (depth + 1) r
        (some (s.target.group c fs), r)
  | .entry (.relation name _ _), .leaf _, _, r =>
    (none, r.fieldIssue s.translator .invalidRule name)
  | .entry (.relation name bind child), .branch h children, depth, r =>
    match h.operation? with
    | none => (none, r.fieldIssue s.translator .invalidRule name)
    | some word =>
      match (Vocabulary.parse? word : Option Combinator) with
      | none => (none, r.fieldIssue s.translator .invalidOperation name)
      | some c =>
        if children.isEmpty then (none, r.fieldIssue s.translator .emptyRelation name)
        else if s.maxDepth < depth + 1 then (none, r.issue s.translator .depthExceeded)
        else
          let (fs, r) := compileAll child children (depth + 1) r
          (some (bind c fs), r)

/-- Compiles the nodes of a list, each in its own role; those that give no filter are left out. -/
def compileAll {F : Type} (s : Schema F) : List Node → UInt64 → Report → List F × Report
  | [], _, r => ([], r)
  | n :: ns, depth, r =>
    let (f?, r) := compileAs s (s.role n.head) n depth r
    let (fs, r) := compileAll s ns depth r
    (f?.toList ++ fs, r)

end

variable {F : Type}

/-- Compiles a value that has to be a group. -/
def compileGroup (s : Schema F) (payload : Json) (depth : UInt64) (r : Report) :
    Option F × Report :=
  s.compileAs .group (.ofJson payload) depth r

/-- Compiles the values of a list of children. -/
def compileChildren (s : Schema F) (payload : List Json) (depth : UInt64) (r : Report) :
    List F × Report :=
  s.compileAll (payload.map .ofJson) depth r

/-- Compiles a value that stands for an entry, whatever name it carries itself. -/
def compileEntry (s : Schema F) (e : Entry F) (payload : Json) (depth : UInt64) (r : Report) :
    Option F × Report :=
  s.compileAs (.entry e) (.ofJson payload) depth r

/-- **Compiles a payload.** Its root has to be a group, and it is accepted if nothing is reported. -/
def compile (s : Schema F) (payload : Json) : Except BuildError F :=
  match s.compileGroup payload 0 .empty with
  | (f?, r) =>
    if r.isEmpty then
      match f? with
      | some f => .ok f
      | none => .error (.invalidConfiguration (s.translator.issue .invalidConfiguration))
    else .error (.validation r)

end Schema

end Criteria
