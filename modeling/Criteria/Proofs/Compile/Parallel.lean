import Criteria.Proofs.Compile.Outline
import Criteria.Proofs.Declaration.Lookup

/-! # Schemas that bind in other ways
Two schemas are **parallel** if they ask for the same things under the same names, with the same
limits, at every nesting. What they build may differ altogether: the types of filters, the functions
that bind rules and relations, and the targets of groups. Their translators stand in a relation that
is left open, so that they may be asked to be the same or not. Parallel schemas make one outline of a
payload, and so they differ only in how its condition is bound and its findings are worded.

* `Entry.Parallel`, `Schema.Parallel`: the relation, at every nesting.

Main statements: `Schema.Parallel.outlineAs_eq`, parallel schemas make one outline of a value;
`Schema.compileGroup_of_parallel`, with the same translators they append the same messages, and
their filters come of one condition. -/

namespace Criteria

/-! ## The relation -/

mutual

/-- An entry **parallel** to another of its kind. -/
inductive Entry.Parallel (texts : Translator → Translator → Prop) :
    {F F' : Type} → Entry F → Entry F' → Prop where
  /-- A rule that asks for the same and offers the same. -/
  | rule {F F' : Type} {rule : Rule F} {rule' : Rule F'} (name : rule'.name = rule.name)
      (constraint : rule'.constraint = rule.constraint)
      (operations : rule'.operations = rule.operations)
      (complaints : ∀ x, rule'.complaints x = rule.complaints x) :
      Entry.Parallel texts (.rule rule) (.rule rule')
  /-- A relation whose schema is parallel to that of the other. -/
  | relation {F F' G G' : Type} {name : String} {bind : Combinator → List G → F}
      {bind' : Combinator → List G' → F'} {child : Schema G} {child' : Schema G'}
      (below : Schema.Parallel texts child child') :
      Entry.Parallel texts (.relation name bind child) (.relation name bind' child')

/-- A schema **parallel** to another, with translators in a given relation. -/
inductive Schema.Parallel (texts : Translator → Translator → Prop) :
    {F F' : Type} → Schema F → Schema F' → Prop where
  /-- The same limit, related translators, and under each name parallel entries or none. -/
  | mk {F F' : Type} {s : Schema F} {s' : Schema F'} (maxDepth : s'.maxDepth = s.maxDepth)
      (translator : texts s.translator s'.translator)
      (registered : ∀ name, (s'.find? name).isSome = (s.find? name).isSome)
      (entries : ∀ name e e', s.find? name = some e → s'.find? name = some e' →
        Entry.Parallel texts e e') : Schema.Parallel texts s s'

end

/-- Two options are related if both or neither have a value, and the values are related. -/
theorem optionRel_iff {α β : Type _} {R : α → β → Prop} {a? : Option α} {b? : Option β} :
    Option.Rel R a? b? ↔
      b?.isSome = a?.isSome ∧ ∀ a b, a? = some a → b? = some b → R a b := by
  constructor
  · intro h
    cases h with
    | none => exact ⟨rfl, fun a b ha => nomatch ha⟩
    | some h =>
      refine ⟨rfl, ?_⟩
      rintro a b ⟨⟩ ⟨⟩
      exact h
  · rintro ⟨hsome, h⟩
    match a?, b? with
    | none, none => exact .none
    | some a, some b => exact .some (h a b rfl rfl)

variable {F F' : Type} {s : Schema F} {s' : Schema F'} {texts : Translator → Translator → Prop}

/-- Parallel entries have the same name. -/
theorem Entry.Parallel.name_eq {e : Entry F} {e' : Entry F'} (h : e.Parallel texts e') :
    e'.name = e.name := by
  cases h with
  | rule name => exact name
  | relation => rfl

namespace Schema.Parallel

/-- Parallel schemas have the same limit. -/
theorem maxDepth_eq (h : s.Parallel texts s') : s'.maxDepth = s.maxDepth := by
  cases h with
  | mk maxDepth => exact maxDepth

/-- The translators of parallel schemas are related. -/
theorem translator_rel (h : s.Parallel texts s') : texts s.translator s'.translator := by
  cases h with
  | mk _ translator => exact translator

/-- A name stands for parallel entries or for none. -/
theorem find?_rel (h : s.Parallel texts s') (name : String) :
    Option.Rel (Entry.Parallel texts) (s.find? name) (s'.find? name) := by
  cases h with
  | mk _ _ registered entries => exact optionRel_iff.2 ⟨registered name, entries name⟩

/-- Schemas with the same limit and related translators are parallel if each name stands for
parallel entries or for none. -/
theorem of_find?_rel (maxDepth : s'.maxDepth = s.maxDepth)
    (translator : texts s.translator s'.translator)
    (h : ∀ name, Option.Rel (Entry.Parallel texts) (s.find? name) (s'.find? name)) :
    s.Parallel texts s' :=
  .mk maxDepth translator (fun name => (optionRel_iff.1 (h name)).1)
    fun name => (optionRel_iff.1 (h name)).2

end Schema.Parallel

/-! ## One outline -/

/-- A role **parallel** to another: nothing, a group, a name without an entry, or parallel
entries. -/
inductive Role.Parallel (texts : Translator → Translator → Prop) {F F' : Type} :
    Role F → Role F' → Prop where
  /-- Nothing. -/
  | ignored : Parallel texts .ignored .ignored
  /-- A group. -/
  | group : Parallel texts .group .group
  /-- A name without an entry. -/
  | unregistered (name : String) : Parallel texts (.unregistered name) (.unregistered name)
  /-- Parallel entries. -/
  | entry {e : Entry F} {e' : Entry F'} (h : e.Parallel texts e') :
      Parallel texts (.entry e) (.entry e')

/-- A step **parallel** to another: one settles the value with the same problems, or both descend to
the same children under parallel schemas. -/
inductive Step.Parallel (texts : Translator → Translator → Prop) {F F' : Type} :
    Step F → Step F' → Prop where
  /-- The value is settled with the same problems. -/
  | settled {f? : Option F} {f?' : Option F'} (problems : List Problem) :
      Parallel texts (.settled f? problems) (.settled f?' problems)
  /-- The children are compiled under parallel schemas. -/
  | descend {G G' : Type} {below : Schema G} {below' : Schema G'} {items : List Json}
      {bind : List G → F} {bind' : List G' → F'} (h : below.Parallel texts below') :
      Parallel texts (.descend below items bind) (.descend below' items bind')

/-- Rules that ask for the same find the same problems. -/
theorem Rule.problems_congr {rule : Rule F} {rule' : Rule F'} (name : rule'.name = rule.name)
    (constraint : rule'.constraint = rule.constraint)
    (operations : rule'.operations = rule.operations)
    (complaints : ∀ x, rule'.complaints x = rule.complaints x) (v : Json) :
    rule'.problems v = rule.problems v := by
  rw [problems, problems]
  simp only [supports, name, constraint, operations, complaints]
  rfl

namespace Role.Parallel

variable {role : Role F} {role' : Role F'} {v : Json}

/-- In parallel roles the same comparison is made. -/
theorem comparison?_eq (h : role.Parallel texts role') :
    role'.comparison? v = role.comparison? v := by
  cases h with
  | entry hentry =>
    cases hentry with
    | @rule _ _ rule rule' name constraint =>
      have hbind : Condition.rule rule'.name = Condition.rule rule.name := by rw [name]
      exact Rule.filter?_congr constraint hbind v
    | relation => rfl
  | _ => rfl

/-- In parallel roles the conditions of the children make the same condition. -/
theorem junction?_eq (h : role.Parallel texts role') (children : List Condition) :
    role'.junction? v children = role.junction? v children := by
  cases h with
  | entry hentry => cases hentry <;> rfl
  | _ => rfl

/-- Parallel roles have the same relations before the children. -/
theorem passage_eq (h : role.Parallel texts role') : role'.passage = role.passage := by
  cases h with
  | entry hentry => cases hentry <;> rfl
  | _ => rfl

end Role.Parallel

namespace Schema.Parallel

/-- Under parallel schemas a child stands in parallel roles. -/
theorem roleOf (h : s.Parallel texts s') (v : Json) :
    (s.roleOf v).Parallel texts (s'.roleOf v) := by
  by_cases hgroup : v.isGroup
  · rw [roleOf_of_isGroup hgroup, roleOf_of_isGroup hgroup]
    exact .group
  cases hn : v.text? "name" with
  | none =>
    rw [roleOf_of_no_name hgroup hn, roleOf_of_no_name hgroup hn]
    exact .ignored
  | some name =>
    have hrel := h.find?_rel name
    generalize he : s.find? name = e? at hrel
    generalize he' : s'.find? name = e?' at hrel
    cases hrel with
    | none =>
      rw [roleOf_of_find?_eq_none hgroup hn he, roleOf_of_find?_eq_none hgroup hn he']
      exact .unregistered name
    | some hentry =>
      rw [roleOf_of_find? hgroup hn he, roleOf_of_find? hgroup hn he']
      exact .entry hentry

/-- Parallel schemas take parallel steps. -/
theorem step (h : s.Parallel texts s') {role : Role F} {role' : Role F'}
    (hrole : role.Parallel texts role') (v : Json) (level : UInt64) :
    (s.step v level role).Parallel texts (s'.step v level role') := by
  cases hrole with
  | ignored | unregistered => exact .settled _
  | group =>
    -- Whether the shape is right is for the node to say, and the limit is the same.
    unfold Schema.step
    rw [h.maxDepth_eq]
    cases v.groupShape? with
    | none => exact .settled _
    | some shape =>
      by_cases hlevel : s.maxDepth < level
      · simp only [if_pos hlevel]
        exact .settled _
      · simp only [if_neg hlevel]
        exact .descend h
  | entry hentry =>
    cases hentry with
    | @rule _ _ rule rule' name constraint operations complaints =>
      show (Step.settled (rule.filter? v) (rule.problems v)).Parallel texts
        (.settled (rule'.filter? v) (rule'.problems v))
      rw [Rule.problems_congr name constraint operations complaints]
      exact .settled _
    | relation below =>
      unfold Schema.step
      rw [h.maxDepth_eq]
      cases v.relationShape with
      | error i => exact .settled _
      | ok shape =>
        by_cases hlevel : s.maxDepth < level
        · simp only [if_pos hlevel]
          exact .settled _
        · simp only [if_neg hlevel]
          exact .descend below

/-- **One outline**: parallel schemas make the same outline of a value. -/
theorem outlineAs_eq (h : s.Parallel texts s') {role : Role F} {role' : Role F'}
    (hrole : role.Parallel texts role') (v : Json) (depth : UInt64) :
    s'.outlineAs role' v depth = s.outlineAs role v depth := by
  -- Both types of filters vary in the induction, each below the relations of its own schema.
  induction v using Json.treeInduction generalizing F F' depth with
  | step v ih =>
    rw [Schema.outlineAs_eq, Schema.outlineAs_eq]
    have hstep := h.step hrole v (depth + 1)
    generalize hfirst : s.step v (depth + 1) role = step at hstep ⊢
    generalize s'.step v (depth + 1) role' = step' at hstep ⊢
    cases hstep with
    | settled problems => rw [Step.outline, Step.outline, hrole.comparison?_eq]
    | @descend G G' below below' items bind bind' hbelow =>
      have hchild : ∀ w ∈ items,
          below'.outlineOf w (depth + 1) = below.outlineOf w (depth + 1) :=
        fun w hw => ih w (mem_children_of_descend hfirst hw) hbelow (hbelow.roleOf w) _
      have hconditions := List.filterMap_congr fun w hw =>
        congrArg Outline.condition? (hchild w hw)
      have hfindings := List.flatMap_congr fun w hw =>
        congrArg (fun o => o.findings.map (Finding.below role.passage)) (hchild w hw)
      rw [Step.outline, Step.outline, hrole.junction?_eq, hrole.passage_eq, hconditions, hfindings]

/-- The outline of a payload gives what a parallel schema makes of the payload. -/
theorem gives_outlineAs_group (h : s.Parallel texts s') (payload : Json) (depth : UInt64) :
    (s.outlineAs .group payload depth).Gives s' (s'.filterAs .group payload depth)
      (s'.messagesAs .group payload depth) :=
  h.outlineAs_eq .group payload depth ▸ s'.gives_outlineAs_group payload depth

/-- With the same translators, the same translator stands at the end of each way of relations. -/
theorem translatorAt?_eq (h : s.Parallel (· = ·) s') (names : List String) :
    s'.translatorAt? names = s.translatorAt? names := by
  induction names generalizing F F' with
  | nil => rw [translatorAt?, translatorAt?, h.translator_rel]
  | cons name names ih =>
    rw [translatorAt?, translatorAt?]
    have hrel := h.find?_rel name
    generalize s.find? name = e? at hrel ⊢
    generalize s'.find? name = e?' at hrel ⊢
    cases hrel with
    | none => rfl
    | some hentry =>
      cases hentry with
      | rule => rfl
      | relation below => exact ih below

end Schema.Parallel

/-! ## Binding in another way -/

namespace Schema

/-- **How nodes are bound does not matter**. Under parallel schemas with the same translators a
payload gets the same messages; it gives a filter under both or under neither; and both filters are
what the one condition of the payload is bound to. -/
theorem compileGroup_of_parallel (h : s.Parallel (· = ·) s') (payload : Json) (depth : UInt64)
    (r : Report) :
    (s'.compileGroup payload depth r).2 = (s.compileGroup payload depth r).2 ∧
      (s'.compileGroup payload depth r).1.isSome = (s.compileGroup payload depth r).1.isSome ∧
      (s.compileGroup payload depth r).1.map some =
        (s.outlineAs .group payload depth).condition?.map s.bind? ∧
      (s'.compileGroup payload depth r).1.map some =
        (s.outlineAs .group payload depth).condition?.map s'.bind? := by
  have hgives := s.gives_outlineAs_group payload depth
  have hgives' := h.gives_outlineAs_group payload depth
  have htext (x : Finding) : x.text? s' = x.text? s := by
    rw [Finding.text?, Finding.text?, h.translatorAt?_eq]
  have hmessages : (s'.messagesAs .group payload depth).map some =
      (s.messagesAs .group payload depth).map some := by
    rw [hgives.worded, hgives'.worded, funext htext]
  have hsame := List.map_injective_iff.2 (fun _ _ => Option.some.inj) hmessages
  rw [compileGroup_eq, compileGroup_eq]
  exact ⟨congrArg r.extend hsame, hgives'.isSome_eq.trans hgives.isSome_eq.symm, hgives.bound,
    hgives'.bound⟩

end Schema

/-! ## Ways to be parallel -/

/-- Registering related entries of one name keeps what names stand for related. -/
theorem Schema.find?_rel_register {R : Entry F → Entry F' → Prop}
    (h : ∀ name, Option.Rel R (s.find? name) (s'.find? name)) {e : Entry F} {e' : Entry F'}
    (hname : e'.name = e.name) (he : R e e') (name : String) :
    Option.Rel R ((s.register e).find? name) ((s'.register e').find? name) := by
  rw [find?_register, find?_register, hname]
  split
  · exact .some he
  · exact h name

namespace Schema.Parallel

/-- Registering parallel entries keeps schemas parallel. -/
theorem register (h : s.Parallel texts s') {e : Entry F} {e' : Entry F'}
    (he : e.Parallel texts e') : (s.register e).Parallel texts (s'.register e') :=
  of_find?_rel h.maxDepth_eq h.translator_rel (find?_rel_register h.find?_rel he.name_eq he)

/-- Schemas without entries are parallel if their limits and translators agree. -/
theorem of_find?_eq_none (maxDepth : s'.maxDepth = s.maxDepth)
    (translator : texts s.translator s'.translator) (hnone : ∀ name, s.find? name = none)
    (hnone' : ∀ name, s'.find? name = none) : s.Parallel texts s' := by
  refine of_find?_rel maxDepth translator fun name => ?_
  rw [hnone, hnone']
  exact .none

end Schema.Parallel

/-- The target that leaves conditions as they are. -/
def Condition.target : Target Condition := ⟨"Condition", .group⟩

/-- Owners and pets, with the conditions themselves in place of filters over records. -/
def Schema.ownersAsConditions : Except BuildError (Schema Condition) := do
  let pets ← ((empty Condition.target).withTranslator .dutch).registerRule "species" .dropdown
    [.equals, .oneOf] (.rule "species")
  let owners ← ((empty Condition.target).withMaxDepth 3).registerRule "age" .number
    [.greaterThan, .oneOf] (.rule "age")
  return owners.registerRelation "pets" (.relation "pets") pets

/-- The schema of owners over filters is parallel to that over conditions. -/
theorem Schema.parallel_ownersAsConditions {s : Schema (Filter Record)} {s' : Schema Condition}
    (hs : Declaration.owners.schema = .ok s) (hs' : ownersAsConditions = .ok s') :
    s.Parallel (· = ·) s' := by
  cases hs
  cases hs'
  apply Parallel.register
  case h =>
    apply Parallel.register
    · exact .of_find?_eq_none rfl rfl (fun _ => rfl) fun _ => rfl
    · exact .rule rfl rfl rfl fun _ => rfl
  case he =>
    apply Entry.Parallel.relation
    apply Parallel.register
    · exact .of_find?_eq_none rfl rfl (fun _ => rfl) fun _ => rfl
    · exact .rule rfl rfl rfl fun _ => rfl

/-- Over filters and over conditions, the faulty payload for owners gets the same messages and is
bound along one condition. -/
theorem Schema.compileGroup_ownersAsConditions :
    ∃ s s' c, Declaration.owners.schema = .ok s ∧ ownersAsConditions = .ok s' ∧
      s.Parallel (· = ·) s' ∧
      (s'.compileGroup .faultyOwners 0 .empty).1 = some c ∧
      (s'.compileGroup .faultyOwners 0 .empty).2 = (s.compileGroup .faultyOwners 0 .empty).2 ∧
      (s'.compileGroup .faultyOwners 0 .empty).1.isSome =
        (s.compileGroup .faultyOwners 0 .empty).1.isSome ∧
      (s.compileGroup .faultyOwners 0 .empty).1.map some =
        (s.outlineAs .group .faultyOwners 0).condition?.map s.bind? ∧
      (s'.compileGroup .faultyOwners 0 .empty).1.map some =
        (s.outlineAs .group .faultyOwners 0).condition?.map s'.bind? := by
  have hparallel := @parallel_ownersAsConditions _ _ rfl rfl
  exact ⟨_, _, _, rfl, rfl, hparallel, rfl, compileGroup_of_parallel hparallel _ _ _⟩

end Criteria
