import Criteria.Json.Decode
import Criteria.Proofs.Payload
import Criteria.Schema.Compile

/-! # Problems at a node
What can be wrong with a node taken by itself, before it is put into words: a `Problem` is the remark
of a rule's own check or an issue, and a translator gives it its text. The problems of a node that
stands for a rule are listed by `Rule.problems`; whether a value has the shape that the constraint
and the operation need is `Constraint.fits`, which looks only at the JSON kind of the value.

Main statement: `Schema.compileRule_ofJson`, compiling a rule gives `Rule.filter?` and appends the
texts of `Rule.problems` to the report. -/

namespace Criteria

/-! ## Reports that grow -/

namespace Report

/-- The report with messages appended. -/
def extend (r : Report) (messages : List String) : Report := ofList (r.toList ++ messages)

/-- Messages are added behind the others, in their order. -/
@[simp] theorem toList_extend (r : Report) (ms : List String) :
    (r.extend ms).toList = r.toList ++ ms := rfl

/-- Without messages to add a report stays as it is. -/
@[simp] theorem extend_nil (r : Report) : r.extend [] = r := by
  ext1
  simp

/-- Adding messages twice is adding them at once. -/
@[simp] theorem extend_extend (r : Report) (ms ns : List String) :
    (r.extend ms).extend ns = r.extend (ms ++ ns) := by
  ext1
  simp

/-- A message is added as a list of one. -/
theorem push_eq_extend (r : Report) (m : String) : r.push m = r.extend [m] := by
  ext1
  simp

/-- An issue is added as a list of one text. -/
theorem issue_eq_extend (r : Report) (t : Translator) (i : Issue) :
    r.issue t i = r.extend [t.issue i] := push_eq_extend r _

/-- An issue with a field is added as a list of one text. -/
theorem fieldIssue_eq_extend (r : Report) (t : Translator) (i : FieldIssue) (field : String) :
    r.fieldIssue t i field = r.extend [t.fieldIssue i field] := push_eq_extend r _

/-- Complaints are added as the list of their texts. -/
theorem complainAll_eq_extend (r : Report) (t : Translator) (field : String)
    (cs : List Complaint) : r.complainAll t field cs = r.extend (cs.map (·.text t field)) := by
  ext1
  simp

end Report

/-! ## Problems and their texts -/

/-- A **problem** of a node. -/
inductive Problem where
  /-- A remark of a rule's own check, recorded as it stands. -/
  | remark (text : String)
  /-- An issue that concerns no entry. -/
  | issue (i : Issue)
  /-- An issue of the entry with the field's name. -/
  | fieldIssue (i : FieldIssue) (field : String)
deriving DecidableEq, Repr

/-- The text of a problem. -/
def Problem.text (t : Translator) : Problem → String
  | remark text => text
  | issue i => t.issue i
  | fieldIssue i field => t.fieldIssue i field

/-- The problem that a complaint about a field is. -/
def Complaint.problem (field : String) : Complaint → Problem
  | message text => .remark text
  | issue i => .fieldIssue i field

/-- As a problem a complaint has the text that it has itself. -/
@[simp] theorem Complaint.text_problem (t : Translator) (field : String) (c : Complaint) :
    (c.problem field).text t = c.text t field := by
  cases c <;> rfl

/-! ## The shape of a value -/

namespace Json

/-- Whether the value is text. -/
def isText : Json → Bool
  | string _ => true
  | _ => false

/-- Whether the value is a number. -/
def isNumber : Json → Bool
  | integer _ => true
  | decimal _ => true
  | _ => false

/-- Whether the value is text or a number. -/
def isScalar (v : Json) : Bool := v.isText || v.isNumber

/-- Whether the value is an array without items. -/
def isEmptyArray (v : Json) : Bool := v.array?.any List.isEmpty

end Json

/-- The values that are read as a scalar are the scalar ones. -/
theorem Scalar.isSome_ofJson? (v : Json) : (ofJson? v).isSome = v.isScalar := by
  cases v with
  | integer n =>
    rw [ofJson?]
    split <;> rfl
  | _ => rfl

/-- A list is read exactly if each of its items is a scalar. -/
theorem Scalar.isSome_mapM_ofJson? (items : List Json) :
    (items.mapM ofJson?).isSome = items.all Json.isScalar := by
  simp only [Json.isSome_mapM, isSome_ofJson?]

namespace Constraint

/-- Whether a value is a scalar of the kind that the constraint asks for. -/
def fitsOne : Constraint → Json → Bool
  | string, v => v.isText
  | number, v => v.isNumber
  | dropdown, v => v.isScalar

/-- Whether a value **has the shape** that the constraint and an operation need. -/
def fits (c : Constraint) (o : Operation) (v : Json) : Bool :=
  match o with
  | .oneOf =>
    match v with
    | .array items => items.all Json.isScalar && !(items.isEmpty && c == dropdown)
    | _ => false
  | _ => c.fitsOne v

/-- What is wrong with the shape of a value, if anything is. -/
def valueIssue? (c : Constraint) (o : Operation) (v : Json) : Option FieldIssue :=
  if c.fits o v then none
  else if c = dropdown ∧ o = .oneOf ∧ v.isEmptyArray then some .emptyArray
  else some .invalidValue

/-- There is no issue with a value exactly if it fits. -/
@[simp] theorem valueIssue?_eq_none_iff {c : Constraint} {o : Operation} {v : Json} :
    c.valueIssue? o v = none ↔ c.fits o v := by
  rw [valueIssue?]
  split
  · simpa
  · split <;> simp_all

/-- A `null` never has the shape that is needed. -/
@[simp] theorem fits_null (c : Constraint) (o : Operation) : c.fits o .null = false := by
  cases o <;> cases c <;> rfl

/-- One scalar is read exactly if the value is of the kind asked for. -/
theorem isSome_filter_admits (c : Constraint) (v : Json) :
    ((Scalar.ofJson? v).filter c.admits).isSome = c.fitsOne v := by
  cases v with
  | integer n =>
    rw [Scalar.ofJson?]
    split <;> cases c <;> rfl
  | _ => cases c <;> rfl

/-- A list of scalars, or what keeps a value from being one. -/
theorem operand_oneOf_cases (c : Constraint) (v : Json) :
    (∃ w, c.operand .oneOf v = .ok w ∧ c.valueIssue? .oneOf v = none) ∨
      ∃ i, c.operand .oneOf v = .error i ∧ c.valueIssue? .oneOf v = some i := by
  cases v with
  | array items =>
    have hsome := Scalar.isSome_mapM_ofJson? items
    cases hread : items.mapM Scalar.ofJson? with
    | none =>
      right
      rw [hread] at hsome
      -- The empty array is read, so it is not what is wrong here, whatever the constraint.
      have hne : items ≠ [] := by
        rintro rfl
        simp at hread
      refine ⟨.invalidValue, ?_, ?_⟩
      · simp [operand, Scalar.listOfJson?, hread]
      · simp [valueIssue?, fits, ← hsome, Json.isEmptyArray, hne]
    | some scalars =>
      rw [hread] at hsome
      have hempty : scalars.isEmpty = items.isEmpty := by
        cases items with
        | nil => simp at hread; simp [hread]
        | cons v items =>
          simp [List.mapM_cons, Option.bind_eq_some_iff] at hread
          obtain ⟨_, _, _, _, rfl⟩ := hread
          rfl
      by_cases hchoice : items.isEmpty ∧ c = dropdown
      · right
        refine ⟨.emptyArray, ?_, ?_⟩
        · simp [operand, Scalar.listOfJson?, hread, hempty, hchoice.1, hchoice.2]
        · simp [valueIssue?, fits, Json.isEmptyArray, hchoice.1, hchoice.2]
      · left
        refine ⟨.list scalars, ?_, ?_⟩
        · simp only [operand, Scalar.listOfJson?, Json.array?_array, Option.bind_some, hread,
            hempty, if_neg hchoice]
        · simp only [valueIssue?_eq_none_iff, fits, ← hsome]
          by_cases hc : c = dropdown <;> simp_all
  | _ => exact .inr ⟨.invalidValue, rfl, by simp [valueIssue?, fits, Json.isEmptyArray, Json.array?]⟩

/-- The operand of a value that fits, or the issue of one that does not. -/
theorem operand_cases (c : Constraint) (o : Operation) (v : Json) :
    (∃ w, c.operand o v = .ok w ∧ c.valueIssue? o v = none) ∨
      ∃ i, c.operand o v = .error i ∧ c.valueIssue? o v = some i := by
  by_cases ho : o = .oneOf
  · exact ho ▸ operand_oneOf_cases c v
  · have hfits : c.fits o v = c.fitsOne v := by
      rw [fits]
      exact ho
    rw [operand, valueIssue?, hfits, ← isSome_filter_admits]
    · cases (Scalar.ofJson? v).filter c.admits with
      | none => exact .inr ⟨_, rfl, by simp [ho]⟩
      | some s => exact .inl ⟨_, rfl, by simp⟩
    · exact ho

end Constraint

/-! ## Rules -/

namespace Rule

variable {F : Type}

/-- The **problems** of a node that stands for a rule, in the order in which they are found. -/
def problems (rule : Rule F) (v : Json) : List Problem :=
  match v.text? "operation", v.member? "value" with
  | some word, some x =>
    match (Vocabulary.parse? word : Option Operation) with
    | none => [.fieldIssue .invalidOperation rule.name]
    | some o =>
      (if rule.supports o then [] else [.fieldIssue .unsupportedOperation rule.name]) ++
      (rule.complaints x).map (·.problem rule.name) ++
      (if x.isNull then [.fieldIssue .emptyValue rule.name] else []) ++
      (rule.constraint.valueIssue? o x).toList.map (.fieldIssue · rule.name)
  | _, _ => [.fieldIssue .invalidRule rule.name]

/-- The **filter** of a node that stands for a rule. -/
def filter? (rule : Rule F) (v : Json) : Option F :=
  match v.text? "operation", v.member? "value" with
  | some word, some x =>
    (Vocabulary.parse? word : Option Operation).bind fun o =>
      match rule.constraint.operand o x with
      | .ok operand => some (rule.bind o operand)
      | .error _ => none
  | _, _ => none

/-- A filter comes from an operation, a value and the operand that they make. -/
theorem exists_of_filter?_eq_some {rule : Rule F} {v : Json} {f : F} (h : rule.filter? v = some f) :
    ∃ o x w, v.text? "operation" = some (Vocabulary.token o) ∧ v.member? "value" = some x ∧
      rule.constraint.operand o x = .ok w ∧ f = rule.bind o w := by
  rw [filter?] at h
  split at h
  · next word x hword hx =>
    obtain ⟨o, ho, h⟩ := Option.bind_eq_some_iff.1 h
    rw [Vocabulary.parse?_eq_some_iff] at ho
    split at h
    · next w hw => exact ⟨o, x, w, ho ▸ hword, hx, hw, (Option.some.inj h).symm⟩
    · cases h
  · cases h

/-- A rule with the same constraint and the same way to be bound gives the same filter. -/
theorem filter?_congr {rule rule' : Rule F} (constraint : rule'.constraint = rule.constraint)
    (bind : rule'.bind = rule.bind) (v : Json) : rule'.filter? v = rule.filter? v := by
  rw [filter?, filter?, constraint, bind]

/-- Of a node a rule reads the operation and the value, and nothing else. -/
theorem filter?_congr_value {rule : Rule F} {v v' : Json}
    (operation : v'.text? "operation" = v.text? "operation")
    (value : v'.member? "value" = v.member? "value") : rule.filter? v' = rule.filter? v := by
  rw [filter?, filter?, operation, value]

/-- The problems of a rule depend on the operation and the value alone. -/
theorem problems_congr_value {rule : Rule F} {v v' : Json}
    (operation : v'.text? "operation" = v.text? "operation")
    (value : v'.member? "value" = v.member? "value") : rule.problems v' = rule.problems v := by
  rw [problems, problems, operation, value]

/-- A rule that gives no filter has a problem. -/
theorem problems_ne_nil_of_filter?_eq_none {rule : Rule F} {v : Json} (h : rule.filter? v = none) :
    rule.problems v ≠ [] := by
  rw [filter?] at h
  rw [problems]
  split at h
  · next word x hword hx =>
    cases ho : (Vocabulary.parse? word : Option Operation) with
    | none => simp
    | some o =>
      rcases rule.constraint.operand_cases o x with ⟨w, hw, -⟩ | ⟨i, -, hi⟩
      · simp [ho, hw] at h
      · simp [hi]
  · simp

/-- A rule node **without problems**: the rule offers the operation, the value is there, the rule's
own check has nothing to say about it, and it has the shape that is needed. -/
theorem problems_eq_nil_iff {rule : Rule F} {v : Json} :
    rule.problems v = [] ↔
      ∃ o x, v.text? "operation" = some (Vocabulary.token o) ∧ v.member? "value" = some x ∧
        o ∈ rule.operations ∧ rule.complaints x = [] ∧ rule.constraint.fits o x := by
  constructor
  · intro h
    rw [problems] at h
    split at h
    · next word x hword hx =>
      split at h
      · cases h
      · next o ho =>
        rw [Vocabulary.parse?_eq_some_iff] at ho
        simp only [List.append_eq_nil_iff, List.map_eq_nil_iff, Option.toList_eq_nil_iff,
          Constraint.valueIssue?_eq_none_iff] at h
        obtain ⟨⟨⟨hoffer, hown⟩, -⟩, hfits⟩ := h
        have hmem : o ∈ rule.operations := by
          cases hs : rule.supports o with
          | true => exact supports_iff.1 hs
          | false => simp [hs] at hoffer
        exact ⟨o, x, ho ▸ hword, hx, hmem, hown, hfits⟩
    · cases h
  · rintro ⟨o, x, hword, hx, hmem, hown, hfits⟩
    -- A `null` is reported twice, as empty and for its shape, so the shape decides.
    have hnull : x.isNull = false := by
      cases x with
      | null => rw [Constraint.fits_null] at hfits; cases hfits
      | _ => rfl
    simp [problems, hword, hx, supports_iff.2 hmem, hown, hnull,
      Constraint.valueIssue?_eq_none_iff.2 hfits]

end Rule

/-- Compiling a rule gives its filter and appends the texts of its problems. -/
theorem Schema.compileRule_ofJson {F : Type} (s : Schema F) (rule : Rule F) (v : Json)
    (r : Report) :
    s.compileRule rule (Head.ofJson v) r =
      (rule.filter? v, r.extend ((rule.problems v).map (·.text s.translator))) := by
  rw [compileRule, Rule.filter?, Rule.problems, Head.operation?_ofJson, Head.value?_ofJson]
  cases v.text? "operation" with
  | none => simp [Report.fieldIssue_eq_extend, Problem.text]
  | some word =>
    cases v.member? "value" with
    | none => simp [Report.fieldIssue_eq_extend, Problem.text]
    | some x =>
      cases ho : (Vocabulary.parse? word : Option Operation) with
      | none => simp [ho, Report.fieldIssue_eq_extend, Problem.text]
      | some o =>
        -- Every remark is there or not under one condition on both sides, so they go over one by
        -- one.
        have hoffer (r : Report) :
            (if rule.supports o then r
              else r.fieldIssue s.translator .unsupportedOperation rule.name) =
              r.extend ((if rule.supports o then []
                else [Problem.fieldIssue .unsupportedOperation rule.name]).map
                  (·.text s.translator)) := by
          split <;> simp [Report.fieldIssue_eq_extend, Problem.text]
        have hnull (r : Report) :
            (if x.isNull then r.fieldIssue s.translator .emptyValue rule.name else r) =
              r.extend ((if x.isNull then [Problem.fieldIssue .emptyValue rule.name] else []).map
                (·.text s.translator)) := by
          split <;> simp [Report.fieldIssue_eq_extend, Problem.text]
        have hown : (rule.complaints x).map (·.text s.translator rule.name) =
            ((rule.complaints x).map (·.problem rule.name)).map (·.text s.translator) := by
          simp
        simp only [ho, Option.bind_some, hoffer, hnull, Report.complainAll_eq_extend, hown]
        rcases rule.constraint.operand_cases o x with ⟨w, hw, hshape⟩ | ⟨i, hi, hshape⟩
        · simp [hw, hshape]
        · simp [hi, hshape, Report.fieldIssue_eq_extend, Problem.text]

end Criteria
