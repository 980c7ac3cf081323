import Criteria.Proofs.Compile.Binding

/-! # Nodes that stand for rules
What a schema makes of one node that stands for a rule, check by check. A node without the text of an
operation or without a value, and a node under an unknown operation, get one message and no filter.
At any other node every check is made, whatever the checks before it have found, and only the shape of
the value decides about the filter.

* `Rule.remarks`: what there is to say about an operation and a value, in the order of the checks.

Main statement: `Schema.compileEntry_rule`, the messages and the filter of a node that stands for a
rule, and what they depend on. -/

namespace Criteria

namespace Constraint

/-- A `null` has the wrong shape, and never that of an empty list of choices. -/
@[simp] theorem valueIssue?_null (c : Constraint) (o : Operation) :
    c.valueIssue? o .null = some .invalidValue := by
  simp [valueIssue?, Json.isEmptyArray, Json.array?]

end Constraint

namespace Rule

variable {F : Type} {rule : Rule F} {v x : Json} {o : Operation}

/-- The **remarks** about an operation and a value: whether the rule offers the operation, then what
the rule's own check has to say about the value, then whether there is any value, and last what is
wrong with its shape. -/
def remarks (rule : Rule F) (o : Operation) (x : Json) : List Complaint :=
  (if o ∈ rule.operations then [] else [.issue .unsupportedOperation]) ++
  rule.complaints x ++
  (if x.isNull then [Complaint.issue .emptyValue] else []) ++
  (rule.constraint.valueIssue? o x).toList.map .issue

/-- The remarks about a `null` end with two about the value. -/
theorem remarks_null (rule : Rule F) (o : Operation) :
    rule.remarks o .null =
      (if o ∈ rule.operations then [] else [.issue .unsupportedOperation]) ++
        rule.complaints .null ++ [.issue .emptyValue, .issue .invalidValue] := by
  simp [remarks, Json.isNull]

/-! ## The three kinds of nodes -/

/-- Without an operation or without a value there is one problem: the rule is invalid. -/
theorem problems_of_malformed (h : v.text? "operation" = none ∨ v.member? "value" = none) :
    rule.problems v = [.fieldIssue .invalidRule rule.name] := by
  rw [problems]
  split
  · next hword hx => simp [hword, hx] at h
  · rfl

/-- Under a word that is no operation there is one problem: the operation is invalid. -/
theorem problems_of_unknown {word : String} (hword : v.text? "operation" = some word)
    (hx : v.member? "value" = some x) (hunknown : ∀ o : Operation, word ≠ o.token) :
    rule.problems v = [.fieldIssue .invalidOperation rule.name] := by
  have hparse : (Vocabulary.parse? word : Option Operation) = none := by
    rw [Option.eq_none_iff_forall_ne_some]
    exact fun o ho => hunknown o (Vocabulary.parse?_eq_some_iff.1 ho)
  simp [problems, hword, hx, hparse]

/-- Under a known operation the problems are the remarks about it and the value. -/
theorem problems_eq_remarks (hword : v.text? "operation" = some o.token)
    (hx : v.member? "value" = some x) :
    rule.problems v = (rule.remarks o x).map (·.problem rule.name) := by
  have hparse : (Vocabulary.parse? o.token : Option Operation) = some o :=
    Vocabulary.parse?_token o
  simp only [problems, remarks, hword, hx, hparse, List.map_append, List.map_map]
  congr 2
  · congr 1
    by_cases hoffer : o ∈ rule.operations
    · simp [supports_iff.2 hoffer, hoffer]
    · simp [supports, hoffer, Complaint.problem]
  · cases x.isNull <;> rfl

/-- Without the text of an operation or a value there is no filter, nor under an unknown
operation. -/
theorem filter?_eq_none_of_forall (h : ∀ (o : Operation) x, v.text? "operation" = some o.token →
    v.member? "value" ≠ some x) : rule.filter? v = none := by
  rw [Option.eq_none_iff_forall_ne_some]
  intro f hf
  obtain ⟨o, x, w, hword, hx, -, -⟩ := exists_of_filter?_eq_some hf
  exact h o x hword hx

/-- Under a known operation there is a filter exactly if nothing is wrong with the shape of the
value. -/
theorem isSome_filter?_iff (hword : v.text? "operation" = some o.token)
    (hx : v.member? "value" = some x) :
    (rule.filter? v).isSome ↔ rule.constraint.valueIssue? o x = none := by
  have hparse : (Vocabulary.parse? o.token : Option Operation) = some o :=
    Vocabulary.parse?_token o
  rcases rule.constraint.operand_cases o x with ⟨w, hw, hshape⟩ | ⟨i, hi, hshape⟩
  · simp [filter?, hword, hx, hparse, hw, hshape]
  · simp [filter?, hword, hx, hparse, hi, hshape]

end Rule

namespace Schema

variable {F : Type}

/-- A value for a rule gives the filter of the rule and the texts of its problems. -/
theorem compileEntry_rule_eq (s : Schema F) (rule : Rule F) (v : Json) (depth : UInt64)
    (r : Report) :
    s.compileEntry (.rule rule) v depth r =
      (rule.filter? v, r.extend ((rule.problems v).map (·.text s.translator))) := by
  rw [compileEntry, compileAs, Node.head_ofJson, compileRule_ofJson]

/-- **A node that stands for a rule**, whatever the node and the rule are. Without the text of an
operation or without a value there is one message and no filter, and so under an unknown operation.
Otherwise the messages are the remarks about the operation and the value, and there is a filter
exactly if nothing is wrong with the shape of the value, bound to what the value holds; so a `null`
is never bound, and there are two messages about it beside all else. Nothing but the translator of
the schema, the operation and the value is of any influence. -/
theorem compileEntry_rule (s : Schema F) (rule : Rule F) (v : Json) (depth : UInt64) (r : Report) :
    (v.text? "operation" = none ∨ v.member? "value" = none →
      s.compileEntry (.rule rule) v depth r =
        (none, r.fieldIssue s.translator .invalidRule rule.name)) ∧
    (∀ word x, v.text? "operation" = some word → v.member? "value" = some x →
      (∀ o : Operation, word ≠ o.token) →
        s.compileEntry (.rule rule) v depth r =
          (none, r.fieldIssue s.translator .invalidOperation rule.name)) ∧
    (∀ (o : Operation) x, v.text? "operation" = some o.token → v.member? "value" = some x →
      (s.compileEntry (.rule rule) v depth r).2.toList =
          r.toList ++ (rule.remarks o x).map (·.text s.translator rule.name) ∧
        ((s.compileEntry (.rule rule) v depth r).1.isSome ↔
          rule.constraint.valueIssue? o x = none) ∧
        (∀ f, (s.compileEntry (.rule rule) v depth r).1 = some f →
          ∃ w, rule.constraint.Usable o x w ∧ f = rule.bind o w) ∧
        (x = .null → (s.compileEntry (.rule rule) v depth r).1 = none ∧
          rule.remarks o x =
            (if o ∈ rule.operations then [] else [.issue .unsupportedOperation]) ++
              rule.complaints .null ++ [.issue .emptyValue, .issue .invalidValue])) ∧
    ∀ (s' : Schema F) (v' : Json) depth', s'.translator = s.translator →
      v'.text? "operation" = v.text? "operation" → v'.member? "value" = v.member? "value" →
        s'.compileEntry (.rule rule) v' depth' r = s.compileEntry (.rule rule) v depth r := by
  rw [compileEntry_rule_eq]
  refine ⟨fun hmalformed => ?_, fun word x hword hx hunknown => ?_, fun o x hword hx => ?_,
    fun s' v' depth' htranslator hword hx => ?_⟩
  · have hnone : rule.filter? v = none := by
      refine Rule.filter?_eq_none_of_forall fun o x hword hx => ?_
      simp [hword, hx] at hmalformed
    rw [hnone, Rule.problems_of_malformed hmalformed, Report.fieldIssue_eq_extend]
    rfl
  · have hnone : rule.filter? v = none := by
      refine Rule.filter?_eq_none_of_forall fun o _ ho _ => ?_
      exact hunknown o (Option.some.inj (hword.symm.trans ho))
    rw [hnone, Rule.problems_of_unknown hword hx hunknown, Report.fieldIssue_eq_extend]
    rfl
  · have hshape : (rule.filter? v).isSome ↔ rule.constraint.valueIssue? o x = none :=
      Rule.isSome_filter?_iff hword hx
    refine ⟨?_, hshape, fun f hf => ?_, ?_⟩
    · rw [Rule.problems_eq_remarks hword hx]
      simp
    -- The filter was bound to what the node says, which is this operation and this value.
    · obtain ⟨o', x', w, hword', hx', hw, rfl⟩ := Rule.exists_of_filter?_eq_some hf
      obtain rfl : o' = o := Vocabulary.token_inj (Option.some.inj (hword'.symm.trans hword))
      obtain rfl : x' = x := Option.some.inj (hx'.symm.trans hx)
      exact ⟨w, Constraint.usable_of_operand hw, rfl⟩
    · rintro rfl
      refine ⟨?_, rule.remarks_null o⟩
      rw [← Option.not_isSome_iff_eq_none, hshape, Constraint.valueIssue?_null]
      simp
  · rw [compileEntry_rule_eq, Rule.filter?_congr_value hword hx, Rule.problems_congr_value hword hx,
      htranslator]

end Schema

/-! ## A rule with a check of its own -/

/-- Ages above a bound, where the bound has to be a whole number. -/
def Rule.wholeAge : Rule (Filter Record) where
  name := "age"
  constraint := .number
  operations := [.greaterThan]
  bind := Record.rule "age"
  check? := some fun
    | .integer _ => []
    | _ => [.message "Ages are whole numbers"]
  nodup := by decide
  permitted := by decide

/-- An age under a word that is no operation. -/
def Json.likeThirty : Json :=
  .object [("name", .string "age"), ("operation", .string "like"), ("value", .integer 30)]

/-- An age above thirty, with keys that a rule does not read. -/
def Json.olderThanThirty : Json :=
  .object [("type", .string "rule"), ("value", .integer 30), ("children", .array [.null]),
    ("operation", .string "greater_than")]

/-- A rule for whole ages at a value without anything, under a word that is no operation, with four
problems at once, and with none. -/
theorem Schema.compileEntry_wholeAge :
    ∃ s : Schema (Filter Record), s.translator = .english ∧
      (Json.null.text? "operation" = none ∧
        s.compileEntry (.rule .wholeAge) .null 0 .empty =
          (none, .ofList ["Invalid rule for field 'age'"])) ∧
      ((∀ o : Operation, "like" ≠ o.token) ∧
        s.compileEntry (.rule .wholeAge) .likeThirty 0 .empty =
          (none, .ofList ["Invalid operation for 'age'"])) ∧
      ((s.compileEntry (.rule .wholeAge) (.ruleNode "age" .lessThan .null) 0 .empty).1 = none ∧
        (s.compileEntry (.rule .wholeAge) (.ruleNode "age" .lessThan .null) 0 .empty).2.toList =
          ["Operation is not supported for 'age'", "Ages are whole numbers",
            "Value for 'age' cannot be empty", "Invalid value for 'age'"]) ∧
      (∃ f w, (s.compileEntry (.rule .wholeAge) .olderThanThirty 0 .empty).1 = some f ∧
        Constraint.number.Usable .greaterThan (.integer 30) w ∧
        f = Record.rule "age" .greaterThan w) ∧
      (s.withMaxDepth 0).compileEntry (.rule .wholeAge) .olderThanThirty 7 .empty =
        s.compileEntry (.rule .wholeAge) (.ruleNode "age" .greaterThan (.integer 30)) 0 .empty := by
  have hunknown : ∀ o : Operation, "like" ≠ o.token := by
    rintro (_ | _) <;> decide
  refine ⟨.empty (Filter.target Record), rfl, ⟨rfl, ?_⟩, ⟨hunknown, ?_⟩, ⟨?_, ?_⟩, ?_, ?_⟩
  · exact (compileEntry_rule _ .wholeAge .null 0 .empty).1 (.inl rfl)
  · exact (compileEntry_rule _ .wholeAge .likeThirty 0 .empty).2.1 _ _ rfl rfl hunknown
  · have hnull := (compileEntry_rule (.empty (Filter.target Record)) .wholeAge
      (.ruleNode "age" .lessThan .null) 0 .empty).2.2.1 .lessThan _ rfl rfl
    exact (hnull.2.2.2 rfl).1
  · exact ((compileEntry_rule _ .wholeAge (.ruleNode "age" .lessThan .null) 0 .empty).2.2.1
      .lessThan _ rfl rfl).1
  · have hbound := ((compileEntry_rule (.empty (Filter.target Record)) .wholeAge
      .olderThanThirty 0 .empty).2.2.1 .greaterThan _ rfl rfl).2.2.1 _ rfl
    obtain ⟨w, husable, hf⟩ := hbound
    exact ⟨_, w, rfl, husable, hf⟩
  · exact (compileEntry_rule _ .wholeAge _ 0 .empty).2.2.2 _ .olderThanThirty 7 rfl rfl rfl

end Criteria
