import Criteria.Declaration
import Criteria.Proofs.Compile.Problem

/-! # Compiling node by node
What a schema does with a value is said in one place, `Schema.step`: either the value is **settled**,
with the filter and the problems that it has by itself, or the schema **descends** to the children,
under a schema of theirs, and binds what becomes of them. Statements about whole payloads follow from
this case split by induction over the tree.

Compiling is threaded through a report, and the report never matters to what is done. So each value
has a filter and messages of its own (`Schema.filterAs`, `Schema.messagesAs` in a given role,
`Schema.filterOf`, `Schema.messagesOf` among children), read off from an empty report.

Main statements: `Schema.compileAs_ofJson`, compiling takes the step; `Schema.compileAs_eq` and
`Schema.compileChildren_eq`, compiling gives the filters of the values and appends their messages. -/

namespace Criteria

/-! ## The shape of groups and relations -/

namespace Json

/-- The combinator and the children of a well-formed group. -/
def groupShape? (v : Json) : Option (Combinator × List Json) :=
  match (v.text? "operation").bind Vocabulary.parse?, v.items? "children" with
  | some c, some items => if v.isGroup then some (c, items) else none
  | _, _ => none

/-- The combinator and the children of a well-formed relation, or what is wrong with it. -/
def relationShape (v : Json) : Except FieldIssue (Combinator × List Json) :=
  match v.text? "operation", v.items? "children" with
  | some word, some items =>
    match (Vocabulary.parse? word : Option Combinator) with
    | none => .error .invalidOperation
    | some c => if items.isEmpty then .error .emptyRelation else .ok (c, items)
  | _, _ => .error .invalidRule

/-- A well-formed group has the type of a group, a combinator and children. -/
theorem groupShape?_eq_some_iff {v : Json} {c : Combinator} {items : List Json} :
    v.groupShape? = some (c, items) ↔
      v.isGroup ∧ v.text? "operation" = some (Vocabulary.token c) ∧
        v.items? "children" = some items := by
  rw [groupShape?]
  constructor
  · intro h
    split at h
    · next c' items' hc hitems =>
      obtain ⟨word, hword, hc⟩ := Option.bind_eq_some_iff.1 hc
      rw [Vocabulary.parse?_eq_some_iff] at hc
      split at h
      · next hgroup =>
        cases h
        exact ⟨hgroup, hc ▸ hword, hitems⟩
      · cases h
    · cases h
  · rintro ⟨hgroup, hword, hitems⟩
    simp [hword, hitems, hgroup]

/-- A well-formed relation has a combinator and children, at least one. -/
theorem relationShape_eq_ok_iff {v : Json} {c : Combinator} {items : List Json} :
    v.relationShape = .ok (c, items) ↔
      v.text? "operation" = some (Vocabulary.token c) ∧ v.items? "children" = some items ∧
        items ≠ [] := by
  rw [relationShape]
  constructor
  · intro h
    split at h
    · next word items' hword hitems =>
      split at h
      · cases h
      · next c' hc =>
        rw [Vocabulary.parse?_eq_some_iff] at hc
        split at h
        · cases h
        · next hne =>
          cases h
          exact ⟨hc ▸ hword, hitems, by simpa using hne⟩
    · cases h
  · rintro ⟨hword, hitems, hne⟩
    simp [hword, hitems, hne]

/-- The children of a well-formed group are those of the value. -/
theorem children_of_groupShape? {v : Json} {c : Combinator} {items : List Json}
    (h : v.groupShape? = some (c, items)) : v.children = items :=
  children_of_items (groupShape?_eq_some_iff.1 h).2.2

/-- The children of a well-formed relation are those of the value. -/
theorem children_of_relationShape {v : Json} {c : Combinator} {items : List Json}
    (h : v.relationShape = .ok (c, items)) : v.children = items :=
  children_of_items (relationShape_eq_ok_iff.1 h).2.1

end Json

/-! ## Levels -/

/-- Where 64 bits hold the next level, it is one more. -/
theorem toNat_level {depth : UInt64} (h : depth.toNat + 1 < UInt64.size) :
    (depth + 1).toNat = depth.toNat + 1 := by
  rw [UInt64.toNat_add]
  exact Nat.mod_eq_of_lt h

/-! ## Steps -/

/-- What is done with a value **before its children**, for filters of type `F`. -/
inductive Step (F : Type) : Type 1 where
  /-- The value is settled: its filter, if it has one, and its problems. -/
  | settled (f? : Option F) (problems : List Problem)
  /-- The children are compiled under a schema of theirs, and their filters are bound. -/
  | descend {G : Type} (below : Schema G) (items : List Json) (bind : List G → F)

variable {F : Type}

namespace Schema

/-- The **step** that a schema takes at a value that stands for something on a level. -/
def step (s : Schema F) (v : Json) (level : UInt64) : Role F → Step F
  | .ignored => .settled none []
  | .group =>
    match v.groupShape? with
    | none => .settled none [.issue .invalidGroup]
    | some (c, items) =>
      if s.maxDepth < level then .settled none [.issue .depthExceeded]
      else .descend s items (s.target.group c)
  | .unregistered name => .settled none [.fieldIssue .missingEntry name]
  | .entry (.rule rule) => .settled (rule.filter? v) (rule.problems v)
  | .entry (.relation name bind child) =>
    match v.relationShape with
    | .error i => .settled none [.fieldIssue i name]
    | .ok (c, items) =>
      if s.maxDepth < level then .settled none [.issue .depthExceeded]
      else .descend child items (bind c)

/-- What a value stands for among the children under a schema. -/
def roleOf (s : Schema F) (v : Json) : Role F := s.role (Head.ofJson v)

/-- A value of the type of a group stands for a group, whatever its name. -/
theorem roleOf_of_isGroup {s : Schema F} {v : Json} (h : v.isGroup) : s.roleOf v = .group := by
  simp [roleOf, role, h]

/-- A value that is neither a group nor named stands for nothing. -/
theorem roleOf_of_no_name {s : Schema F} {v : Json} (h : ¬ v.isGroup) (hn : v.text? "name" = none) :
    s.roleOf v = .ignored := by
  simp [roleOf, role, h, hn]

/-- A name without an entry stands for an unregistered one. -/
theorem roleOf_of_find?_eq_none {s : Schema F} {v : Json} {name : String} (h : ¬ v.isGroup)
    (hn : v.text? "name" = some name) (he : s.find? name = none) :
    s.roleOf v = .unregistered name := by
  simp [roleOf, role, h, hn, he]

/-- A name with an entry stands for the entry. -/
theorem roleOf_of_find? {s : Schema F} {v : Json} {name : String} {e : Entry F} (h : ¬ v.isGroup)
    (hn : v.text? "name" = some name) (he : s.find? name = some e) : s.roleOf v = .entry e := by
  simp [roleOf, role, h, hn, he]

/-- Only what is of the type of a group stands for a group. -/
theorem isGroup_of_roleOf {s : Schema F} {v : Json} (h : s.roleOf v = .group) : v.isGroup := by
  by_cases hgroup : v.isGroup
  · exact hgroup
  · rw [roleOf, role, Head.isGroup_ofJson, if_neg hgroup] at h
    split at h
    · cases h
    · split at h <;> cases h

/-- A value means nothing among children exactly if it is neither a group nor named. -/
theorem roleOf_eq_ignored_iff {s : Schema F} {v : Json} : s.roleOf v = .ignored ↔ ¬ v.isMeant := by
  by_cases h : v.isGroup
  · simp [roleOf_of_isGroup h, Json.isMeant, h]
  · cases hn : v.text? "name" with
    | none => simp [roleOf_of_no_name h hn, Json.isMeant, h, hn]
    | some name =>
      cases he : s.find? name with
      | none => simp [roleOf_of_find?_eq_none h hn he, Json.isMeant, hn]
      | some e => simp [roleOf_of_find? h hn he, Json.isMeant, hn]

/-- What a value stands for depends on its being a group, and on its name if it is none. -/
theorem roleOf_congr (s : Schema F) {v v' : Json} (hgroup : v'.isGroup = v.isGroup)
    (hname : ¬ v.isGroup → v'.text? "name" = v.text? "name") : s.roleOf v' = s.roleOf v := by
  by_cases h : v.isGroup
  · rw [roleOf_of_isGroup h, roleOf_of_isGroup (hgroup.trans h)]
  · unfold roleOf role
    rw [Head.isGroup_ofJson, Head.isGroup_ofJson, Head.name?_ofJson, Head.name?_ofJson, hgroup,
      hname h]

/-- A value that stands for an entry bears the name of the entry. -/
theorem name_of_roleOf_entry {s : Schema F} {v : Json} {e : Entry F} (h : s.roleOf v = .entry e) :
    ¬ v.isGroup ∧ ∃ name, v.text? "name" = some name ∧ s.find? name = some e := by
  by_cases hgroup : v.isGroup
  · rw [roleOf_of_isGroup hgroup] at h
    cases h
  refine ⟨hgroup, ?_⟩
  cases hn : v.text? "name" with
  | none =>
    rw [roleOf_of_no_name hgroup hn] at h
    cases h
  | some name =>
    cases he : s.find? name with
    | none =>
      rw [roleOf_of_find?_eq_none hgroup hn he] at h
      cases h
    | some e' =>
      rw [roleOf_of_find? hgroup hn he] at h
      cases h
      exact ⟨name, rfl, he⟩

end Schema

/-- A role that **stands in** a schema: if it is that of an entry, the schema has the entry under
the entry's name. -/
def Role.StandsIn (s : Schema F) (role : Role F) : Prop :=
  ∀ e, role = .entry e → s.find? e.name = some e

/-- The role of a group stands in every schema. -/
theorem Role.standsIn_group (s : Schema F) : (Role.group : Role F).StandsIn s := by
  intro e h
  cases h

namespace Schema

/-- What a value stands for among the children under a schema stands in the schema. -/
theorem standsIn_roleOf (s : Schema F) (v : Json) : (s.roleOf v).StandsIn s := by
  intro e hrole
  obtain ⟨-, name, -, he⟩ := name_of_roleOf_entry hrole
  rw [Registry.name_of_find? he]
  exact he

/-- A schema descends to all the children of a value, and to nothing else. -/
theorem items_of_descend {G : Type} {s : Schema F} {v : Json} {level : UInt64} {role : Role F}
    {below : Schema G} {items : List Json} {bind : List G → F}
    (h : s.step v level role = .descend below items bind) : v.items? "children" = some items := by
  revert h
  -- Only a group and a relation that pass their checks are descended into.
  fun_cases step s v level role with
  | case4 c nodes hshape _ =>
    rintro ⟨⟩
    exact (Json.groupShape?_eq_some_iff.1 hshape).2.2
  | case9 name H bind' child c nodes hshape _ =>
    rintro ⟨⟩
    exact (Json.relationShape_eq_ok_iff.1 hshape).2.1
  | _ => rintro ⟨⟩

/-- A schema descends only on a level that its limit admits. -/
theorem not_maxDepth_lt_of_descend {G : Type} {s : Schema F} {v : Json} {level : UInt64}
    {role : Role F} {below : Schema G} {items : List Json} {bind : List G → F}
    (h : s.step v level role = .descend below items bind) : ¬ s.maxDepth < level := by
  revert h
  fun_cases step s v level role with
  | case4 c nodes _ hlevel | case9 name H bind' child c nodes _ hlevel => exact fun _ => hlevel
  | _ => rintro ⟨⟩

/-- A schema descends only where the operation is a combinator. -/
theorem exists_combinator_of_descend {G : Type} {s : Schema F} {v : Json} {level : UInt64}
    {role : Role F} {below : Schema G} {items : List Json} {bind : List G → F}
    (h : s.step v level role = .descend below items bind) :
    ∃ c : Combinator, v.text? "operation" = some (Vocabulary.token c) := by
  revert h
  fun_cases step s v level role with
  | case4 c nodes hshape _ => exact fun _ => ⟨c, (Json.groupShape?_eq_some_iff.1 hshape).2.1⟩
  | case9 name H bind' child c nodes hshape _ =>
    exact fun _ => ⟨c, (Json.relationShape_eq_ok_iff.1 hshape).1⟩
  | _ => rintro ⟨⟩

/-- Only a rule is settled with a filter, and the filter is what the rule binds. -/
theorem exists_rule_of_settled_some {s : Schema F} {v : Json} {level : UInt64} {role : Role F}
    {f : F} {problems : List Problem} (h : s.step v level role = .settled (some f) problems) :
    ∃ rule o w, role = .entry (.rule rule) ∧ f = rule.bind o w := by
  revert h
  fun_cases step s v level role with
  | case6 rule =>
    intro h
    injection h with hfilter _
    obtain ⟨o, x, w, -, -, -, rfl⟩ := Rule.exists_of_filter?_eq_some hfilter
    exact ⟨rule, o, w, rfl, rfl⟩
  | _ => rintro ⟨⟩

/-- A value that is settled without a filter has a problem, unless it means nothing. -/
theorem problems_ne_nil_of_settled_none {s : Schema F} {v : Json} {level : UInt64} {role : Role F}
    {problems : List Problem} (hrole : role ≠ .ignored)
    (h : s.step v level role = .settled none problems) : problems ≠ [] := by
  revert h
  fun_cases step s v level role with
  | case1 => exact absurd rfl hrole
  -- A rule, which is settled with a filter or with problems of its own.
  | case6 rule =>
    intro h
    injection h with hnone hproblems
    exact hproblems ▸ Rule.problems_ne_nil_of_filter?_eq_none hnone
  | _ => rintro ⟨⟩ <;> simp

/-- What a schema descends to is a child of the value. -/
theorem mem_children_of_descend {G : Type} {s : Schema F} {v w : Json} {level : UInt64}
    {role : Role F} {below : Schema G} {items : List Json} {bind : List G → F}
    (h : s.step v level role = .descend below items bind) (hw : w ∈ items) : w ∈ v.children :=
  Json.children_of_items (items_of_descend h) ▸ hw

end Schema

/-- Takes a step, with the texts of a translator, from the report so far. -/
def Step.run (t : Translator) (level : UInt64) (r : Report) : Step F → Option F × Report
  | settled f? problems => (f?, r.extend (problems.map (·.text t)))
  | descend below items bind =>
    let (fs, r) := below.compileChildren items level r
    (some (bind fs), r)

namespace Schema

/-- Compiling a group takes the step at it. -/
theorem compileAs_group (s : Schema F) (v : Json) (depth : UInt64) (r : Report) :
    s.compileAs .group (.ofJson v) depth r =
      (s.step v (depth + 1) .group).run s.translator (depth + 1) r := by
  rw [step]
  -- Without a list of children the node is a leaf, which fails the first check on both sides.
  cases hitems : v.items? "children" with
  | none =>
    rw [Node.ofJson_of_no_items hitems, compileAs]
    simp [Json.groupShape?, hitems, Step.run, Report.issue_eq_extend, Problem.text]
  | some items =>
    rw [Node.ofJson_of_items hitems, compileAs, Head.groupCombinator?, Head.isGroup_ofJson,
      Head.operation?_ofJson]
    cases hc : ((v.text? "operation").bind Vocabulary.parse? : Option Combinator) with
    | none => simp [Json.groupShape?, hc, Step.run, Report.issue_eq_extend, Problem.text]
    | some c =>
      by_cases hgroup : v.isGroup
      · simp only [Json.groupShape?, hc, hitems, if_pos hgroup]
        split
        · simp [Step.run, Report.issue_eq_extend, Problem.text]
        · rfl
      · simp [Json.groupShape?, hc, hitems, hgroup, Step.run, Report.issue_eq_extend,
          Problem.text]

/-- Compiling a relation takes the step at it. -/
theorem compileAs_relation {G : Type} (s : Schema F) (name : String)
    (bind : Combinator → List G → F) (child : Schema G) (v : Json) (depth : UInt64) (r : Report) :
    s.compileAs (.entry (.relation name bind child)) (.ofJson v) depth r =
      (s.step v (depth + 1) (.entry (.relation name bind child))).run s.translator (depth + 1)
        r := by
  rw [step]
  cases hitems : v.items? "children" with
  | none =>
    rw [Node.ofJson_of_no_items hitems, compileAs]
    simp [Json.relationShape, hitems, Step.run, Report.fieldIssue_eq_extend, Problem.text]
  | some items =>
    rw [Node.ofJson_of_items hitems, compileAs, Head.operation?_ofJson]
    -- The checks come in one order on both sides: the operation, the combinator, the children.
    cases hword : v.text? "operation" with
    | none => simp [Json.relationShape, hword, Step.run, Report.fieldIssue_eq_extend, Problem.text]
    | some word =>
      cases hc : (Vocabulary.parse? word : Option Combinator) with
      | none =>
        simp [Json.relationShape, hword, hitems, hc, Step.run, Report.fieldIssue_eq_extend,
          Problem.text]
      | some c =>
        by_cases hempty : items.isEmpty
        · simp [Json.relationShape, hword, hitems, hc, hempty, Step.run,
            Report.fieldIssue_eq_extend, Problem.text]
        · simp only [Json.relationShape, hword, hitems, hc, List.isEmpty_map, if_neg hempty]
          split
          · simp [Step.run, Report.issue_eq_extend, Problem.text]
          · rfl

/-- **Compiling takes the step**. -/
theorem compileAs_ofJson (s : Schema F) (role : Role F) (v : Json) (depth : UInt64) (r : Report) :
    s.compileAs role (.ofJson v) depth r =
      (s.step v (depth + 1) role).run s.translator (depth + 1) r := by
  cases role with
  | ignored => simp [compileAs, step, Step.run]
  | group => exact s.compileAs_group v depth r
  | unregistered name =>
    simp [compileAs, step, Step.run, Report.fieldIssue_eq_extend, Problem.text]
  | entry e =>
    cases e with
    | rule rule => rw [compileAs, Node.head_ofJson, compileRule_ofJson, step, Step.run]
    | relation name bind child => exact s.compileAs_relation name bind child v depth r

/-! ## The filter and the messages of a value -/

/-- The **filter** that a value gives in a role. -/
def filterAs (s : Schema F) (role : Role F) (v : Json) (depth : UInt64) : Option F :=
  (s.compileAs role (.ofJson v) depth .empty).1

/-- The **messages** about a value in a role. -/
def messagesAs (s : Schema F) (role : Role F) (v : Json) (depth : UInt64) : List String :=
  (s.compileAs role (.ofJson v) depth .empty).2.toList

/-- The filter that a value gives among children. -/
def filterOf (s : Schema F) (v : Json) (depth : UInt64) : Option F :=
  s.filterAs (s.roleOf v) v depth

/-- The messages about a value among children. -/
def messagesOf (s : Schema F) (v : Json) (depth : UInt64) : List String :=
  s.messagesAs (s.roleOf v) v depth

/-- The first of a list is compiled in its role, and the report goes on to the others. -/
theorem compileChildren_cons (s : Schema F) (v : Json) (vs : List Json) (depth : UInt64)
    (r : Report) :
    s.compileChildren (v :: vs) depth r =
      let (f?, r) := s.compileAs (s.roleOf v) (.ofJson v) depth r
      let (fs, r) := s.compileChildren vs depth r
      (f?.toList ++ fs, r) := by
  rw [compileChildren, List.map_cons, compileAll, Node.head_ofJson]
  rfl

/-- The children of a list do not interfere if none of them looks at the report. -/
theorem compileChildren_of_forall {s : Schema F} {vs : List Json} {depth : UInt64}
    (each : ∀ v ∈ vs, ∀ r, s.compileAs (s.roleOf v) (.ofJson v) depth r =
      (s.filterOf v depth, r.extend (s.messagesOf v depth))) (r : Report) :
    s.compileChildren vs depth r =
      (vs.filterMap (s.filterOf · depth), r.extend (vs.flatMap (s.messagesOf · depth))) := by
  induction vs generalizing r with
  | nil => simp [compileChildren, compileAll]
  | cons v vs ih =>
    rw [compileChildren_cons, each v (by simp)]
    have hrest := ih (fun w hw => each w (List.mem_cons_of_mem v hw))
      (r.extend (s.messagesOf v depth))
    simp only [hrest, List.flatMap_cons, Report.extend_extend]
    cases hf : s.filterOf v depth <;> simp [hf]

/-- **The report does not matter**: compiling a value gives its filter and appends its messages. -/
theorem compileAs_eq (s : Schema F) (role : Role F) (v : Json) (depth : UInt64) (r : Report) :
    s.compileAs role (.ofJson v) depth r =
      (s.filterAs role v depth, r.extend (s.messagesAs role v depth)) := by
  -- The type of filters varies in the induction: a relation may build others below it.
  induction v using Json.treeInduction generalizing F depth r with
  | step v ih =>
    rw [filterAs, messagesAs, compileAs_ofJson, compileAs_ofJson]
    cases hstep : s.step v (depth + 1) role with
    | settled f? problems => simp [Step.run]
    | descend below items bind =>
      have each (r : Report) :
          below.compileChildren items (depth + 1) r =
            (items.filterMap (below.filterOf · (depth + 1)),
              r.extend (items.flatMap (below.messagesOf · (depth + 1)))) :=
        compileChildren_of_forall
          (fun w hw r => ih w (mem_children_of_descend hstep hw) below (below.roleOf w) _ r) r
      simp [Step.run, each]

/-- Compiling a list gives the filters of its items and appends their messages. -/
theorem compileChildren_eq (s : Schema F) (vs : List Json) (depth : UInt64) (r : Report) :
    s.compileChildren vs depth r =
      (vs.filterMap (s.filterOf · depth), r.extend (vs.flatMap (s.messagesOf · depth))) :=
  compileChildren_of_forall (fun v _ r => s.compileAs_eq (s.roleOf v) v depth r) r

/-- Compiling a group gives its filter and appends its messages. -/
theorem compileGroup_eq (s : Schema F) (payload : Json) (depth : UInt64) (r : Report) :
    s.compileGroup payload depth r =
      (s.filterAs .group payload depth, r.extend (s.messagesAs .group payload depth)) :=
  s.compileAs_eq .group payload depth r

/-- Compiling a value for an entry gives its filter and appends its messages. -/
theorem compileEntry_eq (s : Schema F) (e : Entry F) (payload : Json) (depth : UInt64)
    (r : Report) :
    s.compileEntry e payload depth r =
      (s.filterAs (.entry e) payload depth, r.extend (s.messagesAs (.entry e) payload depth)) :=
  s.compileAs_eq (.entry e) payload depth r

/-- What gives the same filter and the same messages as a group is compiled alike. -/
theorem compileGroup_congr {s : Schema F} {payload payload' : Json} {depth : UInt64}
    (h : s.filterAs .group payload' depth = s.filterAs .group payload depth ∧
      s.messagesAs .group payload' depth = s.messagesAs .group payload depth) (r : Report) :
    s.compileGroup payload' depth r = s.compileGroup payload depth r := by
  rw [compileGroup_eq, compileGroup_eq, h.1, h.2]

/-- What is the same in its role, and stands in the same role among children, is the same among
children. -/
theorem compileOf_congr {s : Schema F} {v v' : Json} {depth : UInt64}
    (hrole : s.roleOf v' = s.roleOf v)
    (h : s.filterAs (s.roleOf v) v' depth = s.filterAs (s.roleOf v) v depth ∧
      s.messagesAs (s.roleOf v) v' depth = s.messagesAs (s.roleOf v) v depth) :
    s.filterOf v' depth = s.filterOf v depth ∧ s.messagesOf v' depth = s.messagesOf v depth := by
  unfold filterOf messagesOf
  rw [hrole]
  exact h

/-! ## What a step makes of a value -/

end Schema

/-- The filter that a step makes. -/
def Step.filter? (level : UInt64) : Step F → Option F
  | settled f? _ => f?
  | descend below items bind => some (bind (items.filterMap (below.filterOf · level)))

/-- The messages that a step makes with the texts of a translator. -/
def Step.messages (t : Translator) (level : UInt64) : Step F → List String
  | settled _ problems => problems.map (·.text t)
  | descend below items _ => items.flatMap (below.messagesOf · level)

namespace Schema

variable {s : Schema F} {role : Role F} {v : Json} {depth : UInt64}

/-- The filter of a value is the one that its step makes. -/
theorem filterAs_eq : s.filterAs role v depth = (s.step v (depth + 1) role).filter? (depth + 1) := by
  rw [filterAs, compileAs_ofJson]
  cases s.step v (depth + 1) role with
  | settled f? problems => rfl
  | descend below items bind => simp [Step.run, Step.filter?, compileChildren_eq]

/-- The messages about a value are those that its step makes. -/
theorem messagesAs_eq :
    s.messagesAs role v depth = (s.step v (depth + 1) role).messages s.translator (depth + 1) := by
  rw [messagesAs, compileAs_ofJson]
  cases s.step v (depth + 1) role with
  | settled f? problems => simp [Step.run, Step.messages]
  | descend below items bind => simp [Step.run, Step.messages, compileChildren_eq]

/-- **No filter, then a message**: a value that means something gives a filter or is reported. -/
theorem messagesAs_ne_nil_of_filterAs_eq_none (hrole : role ≠ .ignored)
    (h : s.filterAs role v depth = none) : s.messagesAs role v depth ≠ [] := by
  rw [filterAs_eq] at h
  rw [messagesAs_eq]
  cases hstep : s.step v (depth + 1) role with
  | settled f? problems =>
    rw [hstep] at h
    cases h
    simpa [Step.messages] using problems_ne_nil_of_settled_none hrole hstep
  | descend below items bind => simp [hstep, Step.filter?] at h

/-! ## Payloads -/

/-- The result for a payload, from the filter and the messages of its root. -/
theorem compile_eq (s : Schema F) (payload : Json) :
    s.compile payload =
      match s.messagesAs .group payload 0, s.filterAs .group payload 0 with
      | [], some f => .ok f
      | [], none => .error (.invalidConfiguration (s.translator.issue .invalidConfiguration))
      | m :: ms, _ => .error (.validation (.ofList (m :: ms))) := by
  rw [compile, compileGroup_eq]
  cases s.messagesAs .group payload 0 with
  | nil => cases s.filterAs .group payload 0 <;> rfl
  | cons m ms => rfl

/-- A payload is accepted if no message concerns it, and its filter is that of the root. -/
theorem compile_eq_ok_iff {payload : Json} {f : F} :
    s.compile payload = .ok f ↔
      s.messagesAs .group payload 0 = [] ∧ s.filterAs .group payload 0 = some f := by
  rw [compile_eq]
  cases s.messagesAs .group payload 0 with
  | nil => cases s.filterAs .group payload 0 <;> simp
  | cons m ms => simp

end Schema

/-! ## Owners and pets
A declared schema and payloads for it, on which the statements about payloads are tried. -/

/-- A node for a group. -/
def Json.groupNode (c : Combinator) (children : List Json) : Json :=
  .object [("type", .string "group"), ("operation", .string c.token), ("children", .array children)]

/-- A node that names a rule. -/
def Json.ruleNode (name : String) (o : Operation) (x : Json) : Json :=
  .object [("name", .string name), ("operation", .string o.token), ("value", x)]

/-- A node that names a relation. -/
def Json.relationNode (name : String) (c : Combinator) (children : List Json) : Json :=
  .object [("name", .string name), ("operation", .string c.token), ("children", .array children)]

/-- Owners have an age, and pets that have a species. Messages about pets are in Dutch. -/
def Declaration.owners : Declaration :=
  .mk [⟨"age", .number, [.greaterThan, .oneOf]⟩]
    [("pets", .mk [⟨"species", .dropdown, [.equals, .oneOf]⟩] [] .dutch none)] .english (some 3)

/-- Owners older than thirty with a cat or a dog. -/
def Json.olderWithPets : Json :=
  groupNode .and [.integer 7, ruleNode "age" .greaterThan (.integer 30),
    relationNode "pets" .or [ruleNode "species" .oneOf (.array [.string "cat", .string "dog"])]]

/-- The data of an owner who is older than thirty and has a bird and a cat. -/
def Json.ownerOfBirdAndCat : Json :=
  .object [("age", .integer 42), ("pets", .array [.object [("species", .string "bird")],
    .object [("species", .string "cat")]])]

/-- A payload with a problem on each level, and one that is nested too deep. -/
def Json.faultyOwners : Json :=
  groupNode .and [ruleNode "age" .equals (.integer 30),
    relationNode "pets" .or [ruleNode "species" .oneOf (.array []), groupNode .and [],
      .object [("type", .string "group")]],
    groupNode .or [groupNode .or [groupNode .or [ruleNode "age" .equals (.integer 30)]]],
    ruleNode "height" .equals (.integer 2)]

end Criteria
