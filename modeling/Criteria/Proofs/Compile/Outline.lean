import Criteria.Condition
import Criteria.Proofs.Compile.Step
import Mathlib.Data.List.Basic

/-! # Outlines of payloads
Two things do not touch what a schema makes of a payload, only the form in which it comes out: how
nodes are bound, and how problems are worded. What is left without them is the **outline** of the
payload. In place of the filter it has a condition, the tree of what is to be bound, and in place of
each message a finding, a problem together with the schema whose translator words it. No filter and
no text stands in an outline, other than the remarks of a rule's own check.

* `Schema.outlineAs`: the outline of a value in a role.
* `Schema.bind?`: the filter that a schema makes of a condition, looking up each name.
* `Finding.text?`: the text of a finding under a schema.

Main statement: `Schema.gives_outlineAs`, the filter of a value is what the schema binds its
condition to, and the messages are the texts of its findings. -/

namespace Criteria

variable {F : Type}

/-! ## Findings -/

/-- A **finding**: a problem, and the schema that words it. -/
structure Finding where
  /-- The names of the relations that lead to the schema. -/
  owner : List String
  /-- What is wrong. -/
  problem : Problem
deriving DecidableEq, Repr

/-- A finding as it stands below relations. -/
def Finding.below (names : List String) (x : Finding) : Finding :=
  { x with owner := names ++ x.owner }

/-- The **translator** of the schema that relations lead to, if there are such relations. -/
def Schema.translatorAt? {F : Type} (s : Schema F) : List String → Option Translator
  | [] => some s.translator
  | name :: names =>
    match s.find? name with
    | some (.relation _ _ child) => translatorAt? child names
    | _ => none

/-- The **text** of a finding, in the words of its owner. -/
def Finding.text? (s : Schema F) (x : Finding) : Option String :=
  (s.translatorAt? x.owner).map fun t => x.problem.text t

/-- A finding below no relation has the text that the schema itself gives it. -/
theorem Finding.text?_mk_nil (s : Schema F) (problem : Problem) :
    (mk [] problem).text? s = some (problem.text s.translator) := rfl

/-- A finding below a relation has the text that the schema of the relation gives it. -/
theorem Finding.text?_below_relation {G : Type} {s : Schema F} {name : String}
    {bind : Combinator → List G → F} {child : Schema G}
    (h : s.find? name = some (.relation name bind child)) (x : Finding) :
    (x.below [name]).text? s = x.text? child := by
  simp [text?, below, Schema.translatorAt?, h]

/-! ## Binding -/

namespace Schema

mutual

/-- **Binds** a condition: the filter that a schema makes of it, if each name in it stands for an
entry of the right kind. -/
def bind? {F : Type} (s : Schema F) : Condition → Option F
  | .group c children => (bindAll? s children).map (s.target.group c)
  | .rule name o w =>
    match s.find? name with
    | some (.rule rule) => some (rule.bind o w)
    | _ => none
  | .relation name c children =>
    match s.find? name with
    | some (.relation _ bind child) => (bindAll? child children).map (bind c)
    | _ => none

/-- Binds a list of conditions. -/
def bindAll? {F : Type} (s : Schema F) : List Condition → Option (List F)
  | [] => some []
  | c :: cs => (bind? s c).bind fun f => (bindAll? s cs).map (f :: ·)

end

end Schema

/-! ## Outlines -/

/-- The **outline** of a payload, or of a part of it. -/
structure Outline where
  /-- What is bound, if anything is. -/
  condition? : Option Condition
  /-- What is wrong. -/
  findings : List Finding

/-- The rule with another way to be bound. -/
def Rule.rebind {G : Type} (rule : Rule F) (bind : Operation → Operand → G) : Rule G :=
  { rule with bind }

/-- Rules with one constraint give filters for the same nodes, out of the same comparisons. -/
theorem Rule.map_filter? {G H : Type} {rule : Rule F} {rule' : Rule G} {g : F → H} {g' : G → H}
    (constraint : rule'.constraint = rule.constraint)
    (bind : ∀ o w, g (rule.bind o w) = g' (rule'.bind o w)) (v : Json) :
    (rule.filter? v).map g = (rule'.filter? v).map g' := by
  rw [filter?, filter?, constraint]
  split
  · next word x _ _ =>
    cases (Vocabulary.parse? word : Option Operation) with
    | none => rfl
    | some o =>
      cases h : rule.constraint.operand o x with
      | error i => simp [h]
      | ok w => simp [h, bind]
  · rfl

namespace Role

/-- The condition of a value that is settled in a role: the comparison of a rule. -/
def comparison? : Role F → Json → Option Condition
  | .entry (.rule rule), v => (rule.rebind (.rule rule.name)).filter? v
  | _, _ => none

/-- The condition that a value in a role makes of those of its children. -/
def junction? (v : Json) (children : List Condition) : Role F → Option Condition
  | .group => v.groupShape?.map fun (c, _) => .group c children
  | .entry (.relation name _ _) =>
    v.relationShape.toOption.map fun (c, _) => .relation name c children
  | _ => none

/-- The names of the relations between a value in a role and its children. -/
def passage : Role F → List String
  | .entry (.relation name _ _) => [name]
  | _ => []

end Role

namespace Schema

/-- The **outline** of a value in a role. -/
def outlineAs {F : Type} (s : Schema F) (role : Role F) (v : Json) (depth : UInt64) : Outline :=
  match h : s.step v (depth + 1) role with
  | .settled _ problems => ⟨role.comparison? v, problems.map (.mk [])⟩
  | .descend below items _ =>
    let parts := items.attach.map fun ⟨w, _⟩ => below.outlineAs (below.roleOf w) w (depth + 1)
    ⟨role.junction? v (parts.filterMap (·.condition?)),
      parts.flatMap (·.findings.map (.below role.passage))⟩
termination_by v.nesting
decreasing_by
  have := Json.nesting_lt_of_mem_children (mem_children_of_descend h ‹_›)
  omega

/-- The outline of a value among children. -/
def outlineOf (s : Schema F) (v : Json) (depth : UInt64) : Outline :=
  s.outlineAs (s.roleOf v) v depth

end Schema

/-- The outline that a step makes of a value in a role. -/
def Step.outline (role : Role F) (v : Json) (level : UInt64) : Step F → Outline
  | settled _ problems => ⟨role.comparison? v, problems.map (.mk [])⟩
  | descend below items _ =>
    ⟨role.junction? v (items.filterMap fun w => (below.outlineOf w level).condition?),
      items.flatMap fun w => (below.outlineOf w level).findings.map (.below role.passage)⟩

/-- The outline of a value is that of the step taken at it. -/
theorem Schema.outlineAs_eq {s : Schema F} {role : Role F} {v : Json} {depth : UInt64} :
    s.outlineAs role v depth =
      (s.step v (depth + 1) role).outline role v (depth + 1) := by
  rw [outlineAs]
  split
  · next h => rw [h, Step.outline]
  · next G below items bind h =>
    have hparts : (items.attach.map fun ⟨w, _⟩ => below.outlineAs (below.roleOf w) w (depth + 1)) =
        items.map (below.outlineOf · (depth + 1)) :=
      @List.attach_map_val _ _ items (below.outlineOf · (depth + 1))
    simp [h, Step.outline, hparts, List.filterMap_map, List.flatMap_map]

/-! ## What comes of an outline -/

/-- A filter and messages that an outline **gives** under a schema, which binds the condition and
words the findings. -/
structure Outline.Gives (o : Outline) (s : Schema F) (f? : Option F) (messages : List String) :
    Prop where
  /-- The filter is what the condition is bound to. -/
  bound : f?.map some = o.condition?.map s.bind?
  /-- The messages are the texts of the findings. -/
  worded : messages.map some = o.findings.map (·.text? s)

namespace Outline.Gives

variable {o : Outline} {s : Schema F} {f? : Option F} {messages : List String}

/-- There is a filter exactly if there is a condition. -/
theorem isSome_eq (h : o.Gives s f? messages) : f?.isSome = o.condition?.isSome := by
  simpa using congrArg Option.isSome h.bound

/-- There are as many messages as findings. -/
theorem length_eq (h : o.Gives s f? messages) : messages.length = o.findings.length := by
  simpa using congrArg List.length h.worded

end Outline.Gives

namespace Schema

variable {s : Schema F}

/-- If each item gives what its condition is bound to, the list of conditions is bound. -/
theorem bindAll?_filterMap {items : List Json} {condition? : Json → Option Condition}
    {filter? : Json → Option F}
    (each : ∀ w ∈ items, (filter? w).map some = (condition? w).map s.bind?) :
    s.bindAll? (items.filterMap condition?) = some (items.filterMap filter?) := by
  induction items with
  | nil => rfl
  | cons w items ih =>
    obtain ⟨hw, hitems⟩ := List.forall_mem_cons.1 each
    have hrest := ih hitems
    cases hc : condition? w with
    | none =>
      rw [hc, Option.map_none, Option.map_eq_none_iff] at hw
      rw [List.filterMap_cons_none hc, List.filterMap_cons_none hw, hrest]
    | some c =>
      rw [hc, Option.map_some, Option.map_eq_some_iff] at hw
      obtain ⟨f, hf, hbind⟩ := hw
      rw [List.filterMap_cons_some hc, List.filterMap_cons_some hf, bindAll?, ← hbind, hrest]
      rfl

/-- A value that is settled without a filter gives the texts of its problems. -/
theorem gives_of_settled_none (problems : List Problem) :
    Outline.Gives ⟨none, problems.map (.mk [])⟩ s none (problems.map (·.text s.translator)) := by
  refine ⟨rfl, ?_⟩
  simp [Finding.text?_mk_nil]

/-- A rule gives the filter that its comparison is bound to. -/
theorem gives_of_rule {rule : Rule F} (h : s.find? rule.name = some (.rule rule)) (v : Json) :
    Outline.Gives ⟨(Role.entry (.rule rule)).comparison? v, (rule.problems v).map (.mk [])⟩ s
      (rule.filter? v) ((rule.problems v).map (·.text s.translator)) := by
  have hbound : (rule.filter? v).map some =
      ((rule.rebind (.rule rule.name)).filter? v).map s.bind? := by
    apply Rule.map_filter?
    case constraint => rfl
    case bind => simp [bind?, Rule.rebind, h]
  exact ⟨hbound, (gives_of_settled_none _).worded⟩

/-- Where the children are descended to, the outlines of the children give what is made of them. -/
theorem gives_of_descend {G : Type} {below : Schema G} {role : Role F} {v : Json}
    {items : List Json} {bind : List G → F} {t : Translator} {level : UInt64}
    (junction : ∀ cs fs, below.bindAll? cs = some fs →
      (role.junction? v cs).map s.bind? = some (some (bind fs)))
    (passage : ∀ x : Finding, (x.below role.passage).text? s = x.text? below)
    (each : ∀ w ∈ items, (below.outlineOf w level).Gives below (below.filterOf w level)
      (below.messagesOf w level)) :
    ((Step.descend below items bind).outline role v level).Gives s
      ((Step.descend below items bind).filter? level)
      ((Step.descend below items bind).messages t level) := by
  constructor
  · exact (junction _ _ (bindAll?_filterMap fun w hw => (each w hw).bound)).symm
  · simp only [Step.messages, Step.outline, List.map_flatMap, List.map_map, Function.comp_def,
      passage]
    exact List.flatMap_congr fun w hw => (each w hw).worded

/-- **What a schema makes of a value, it makes of its outline**: the filter is what the schema binds
the condition to, and the messages are the texts of the findings. -/
theorem gives_outlineAs (s : Schema F) {role : Role F} (hrole : role.StandsIn s) (v : Json)
    (depth : UInt64) :
    (s.outlineAs role v depth).Gives s (s.filterAs role v depth) (s.messagesAs role v depth) := by
  -- The type of filters varies in the induction: a relation may build others below it.
  induction v using Json.treeInduction generalizing F depth with
  | step v ih =>
    have each {G : Type} {below : Schema G} {items : List Json} (hitems : v.children = items) :
        ∀ w ∈ items, (below.outlineOf w (depth + 1)).Gives below (below.filterOf w (depth + 1))
          (below.messagesOf w (depth + 1)) :=
      fun w hw => ih w (hitems ▸ hw) below (below.standsIn_roleOf w) _
    rw [outlineAs_eq, filterAs_eq, messagesAs_eq]
    -- A group hands its own schema down and a relation that of the relation; all else is settled.
    fun_cases step s v (depth + 1) role with
    | case4 c items hshape _ =>
      refine gives_of_descend (fun cs fs hfs => ?_) (fun x => rfl)
        (each (Json.children_of_groupShape? hshape))
      simp [Role.junction?, hshape, bind?, hfs]
    | case6 rule => exact gives_of_rule (hrole _ rfl) v
    | case9 G name bind child c items hshape _ =>
      have hfind : s.find? name = some (.relation name bind child) := hrole _ rfl
      refine gives_of_descend (fun cs fs hfs => ?_) (Finding.text?_below_relation hfind)
        (each (Json.children_of_relationShape hshape))
      simp [Role.junction?, hshape, bind?, hfind, hfs, Except.toOption]
    | _ => exact gives_of_settled_none _

/-- The outline of a payload gives the filter and the messages of the payload. -/
theorem gives_outlineAs_group (s : Schema F) (payload : Json) (depth : UInt64) :
    (s.outlineAs .group payload depth).Gives s (s.filterAs .group payload depth)
      (s.messagesAs .group payload depth) :=
  s.gives_outlineAs (Role.standsIn_group s) payload depth

end Schema

end Criteria
