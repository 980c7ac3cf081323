import Criteria.Proofs.Compile.Step
import Criteria.Proofs.Declaration.Lookup

/-! # Schemas over objects
A schema may build filters of any type, by any functions. It is **over objects** if what it builds
are filters over objects and nothing else is done with them than the library does: groups stay
groups, and a relation is bound by `Filter.relate` to a collection of the object, below which the
schema of the relation is over objects again. How a rule is bound is left open; `Rule.ReadsField`
says that it becomes one comparison of a field of the object, made with what the rule is handed.

Main statements: `Schema.OverObjects.step`, a schema over objects descends only to schemas over
objects; `Declaration.overObjects_of_schema`, declared schemas are over objects. -/

namespace Criteria

/-- A rule that becomes **one comparison of a field** that it reads from the object. -/
def Rule.ReadsField ⦃α : Type⦄ (rule : Rule (Filter α)) : Prop :=
  ∃ read : α → Reading, rule.bind = fun o w => .rule o w read

mutual

/-- An entry **over objects** of type `α`, with a property of the rules at every nesting. -/
inductive Entry.OverObjects (p : ⦃α : Type⦄ → Rule (Filter α) → Prop) :
    {α : Type} → Entry (Filter α) → Prop where
  /-- A rule with the property. -/
  | rule {α : Type} {rule : Rule (Filter α)} (property : p rule) :
      Entry.OverObjects p (.rule rule)
  /-- A relation that is bound to a collection of the object. -/
  | relation {α β : Type} {name : String} {related : α → List β} {child : Schema (Filter β)}
      (below : Schema.OverObjects p child) :
      Entry.OverObjects p (.relation name (Filter.relate related) child)

/-- A schema **over objects** of type `α`, with a property of the rules at every nesting. -/
inductive Schema.OverObjects (p : ⦃α : Type⦄ → Rule (Filter α) → Prop) :
    {α : Type} → Schema (Filter α) → Prop where
  /-- Groups stay groups, and each name stands for an entry over objects. -/
  | mk {α : Type} {s : Schema (Filter α)} (group : s.target.group = .group)
      (entries : ∀ name e, s.find? name = some e → Entry.OverObjects p e) :
      Schema.OverObjects p s

end

variable {α : Type} {p : ⦃α : Type⦄ → Rule (Filter α) → Prop} {s : Schema (Filter α)}

/-- A role **over objects**: if it is that of an entry, the entry is over objects. -/
def Role.OverObjects (p : ⦃α : Type⦄ → Rule (Filter α) → Prop) (role : Role (Filter α)) : Prop :=
  ∀ e, role = .entry e → e.OverObjects p

/-- The role of a group is over objects, since no entry is involved. -/
theorem Role.overObjects_group : (Role.group : Role (Filter α)).OverObjects p := by
  intro e h
  cases h

namespace Schema.OverObjects

/-- Over objects a group is made as a group of filters. -/
theorem group_eq (h : s.OverObjects p) : s.target.group = .group := by
  cases h with
  | mk group _ => exact group

/-- Over objects each entry that a name finds is over objects. -/
theorem entry (h : s.OverObjects p) {name : String} {e : Entry (Filter α)}
    (he : s.find? name = some e) : e.OverObjects p := by
  cases h with
  | mk _ entries => exact entries name e he

/-- Among the children under a schema over objects every role is over objects. -/
theorem roleOf (h : s.OverObjects p) (v : Json) : (s.roleOf v).OverObjects p := by
  intro e hrole
  obtain ⟨-, name, -, he⟩ := name_of_roleOf_entry hrole
  exact h.entry he

end Schema.OverObjects

mutual

/-- An entry stays over objects when less is asked of the rules. -/
theorem Entry.OverObjects.mono {p q : ⦃α : Type⦄ → Rule (Filter α) → Prop}
    (hpq : ∀ ⦃α : Type⦄ (rule : Rule (Filter α)), p rule → q rule) {α : Type}
    {e : Entry (Filter α)} : e.OverObjects p → e.OverObjects q
  | .rule property => .rule (hpq _ property)
  | .relation below => .relation (below.mono hpq)

/-- A schema stays over objects when less is asked of the rules. -/
theorem Schema.OverObjects.mono {p q : ⦃α : Type⦄ → Rule (Filter α) → Prop}
    (hpq : ∀ ⦃α : Type⦄ (rule : Rule (Filter α)), p rule → q rule) {α : Type}
    {s : Schema (Filter α)} : s.OverObjects p → s.OverObjects q
  | .mk group entries => .mk group fun name e he => (entries name e he).mono hpq

end

/-! ## Steps -/

/-- A step **over objects**: one to the children binds their filters to a group or a relation. -/
inductive Step.OverObjects (p : ⦃α : Type⦄ → Rule (Filter α) → Prop) :
    {α : Type} → Step (Filter α) → Prop where
  /-- The value is settled. -/
  | settled {α : Type} {f? : Option (Filter α)} {problems : List Problem} :
      OverObjects p (.settled f? problems)
  /-- The children make a group. -/
  | group {α : Type} {s : Schema (Filter α)} {items : List Json} {c : Combinator}
      (below : s.OverObjects p) : OverObjects p (.descend s items (.group c))
  /-- The children make a relation to a collection of the object. -/
  | relate {α β : Type} {child : Schema (Filter β)} {items : List Json} {c : Combinator}
      {related : α → List β} (below : child.OverObjects p) :
      OverObjects p (.descend child items (Filter.relate related c))

/-- A schema over objects takes steps over objects. -/
theorem Schema.OverObjects.step (h : s.OverObjects p) {role : Role (Filter α)}
    (hrole : role.OverObjects p) (v : Json) (level : UInt64) :
    (s.step v level role).OverObjects p := by
  fun_cases Schema.step s v level role with
  | case4 c items hshape _ =>
    rw [h.group_eq]
    exact .group h
  | case9 name G bind child c items hshape _ =>
    cases hrole _ rfl with
    | relation below => exact .relate below
  | _ => exact .settled

/-! ## Schemas that are declared -/

namespace Schema.OverObjects

/-- Registering an entry over objects keeps a schema over objects. -/
theorem register (h : s.OverObjects p) {e : Entry (Filter α)} (he : e.OverObjects p) :
    (s.register e).OverObjects p := by
  refine .mk h.group_eq fun name e' hfind => ?_
  rw [find?_register] at hfind
  by_cases hname : e.name = name
  · rw [if_pos hname] at hfind
    cases hfind
    exact he
  · rw [if_neg hname] at hfind
    exact h.entry hfind

end Schema.OverObjects

namespace Declaration

/-- A schema without entries is over objects. -/
theorem overObjects_blankSchema (locale : Locale) (maxDepth? : Option UInt64) :
    (blankSchema locale maxDepth?).OverObjects Rule.ReadsField := by
  refine .mk ?_ fun name e h => ?_
  · rw [target_blankSchema, Filter.target]
  · rw [find?_blankSchema] at h
    cases h

/-- Registering declared rules keeps a schema over objects. -/
theorem overObjects_of_registerRules {rules : List RuleDeclaration} {s s' : Schema (Filter Record)}
    (hs : s.OverObjects Rule.ReadsField) (h : rules.foldlM registerRule s = .ok s') :
    s'.OverObjects Rule.ReadsField := by
  induction rules generalizing s with
  | nil =>
    cases h
    exact hs
  | cons d rules ih =>
    rw [List.foldlM_cons] at h
    obtain ⟨t, ht, h⟩ := exists_of_bind_eq_ok h
    obtain ⟨r, -, hbind, rfl⟩ := Schema.exists_of_registerRule ht
    have hreads : r.ReadsField := ⟨_, hbind⟩
    exact ih (hs.register (.rule hreads)) h

mutual

/-- **A declared schema is over objects**: its rules read fields of records, and its relations are
bound to collections of records. -/
theorem overObjects_of_schema {d : Declaration} {s : Schema (Filter Record)}
    (h : d.schema = .ok s) : s.OverObjects Rule.ReadsField := by
  cases d with
  | mk rules relations locale maxDepth? =>
    rw [schema] at h
    obtain ⟨t, hrules, hrelations⟩ := exists_of_bind_eq_ok h
    have ht := overObjects_of_registerRules (overObjects_blankSchema locale maxDepth?) hrules
    exact overObjects_of_registerRelations ht hrelations
termination_by sizeOf d

/-- Registering declared relations keeps a schema over objects. -/
theorem overObjects_of_registerRelations {relations : List (String × Declaration)}
    {s s' : Schema (Filter Record)} (hs : s.OverObjects Rule.ReadsField)
    (h : registerRelations relations s = .ok s') : s'.OverObjects Rule.ReadsField := by
  match relations with
  | [] =>
    rw [registerRelations] at h
    cases h
    exact hs
  | (name, d) :: rest =>
    rw [registerRelations] at h
    obtain ⟨child, hchild, h⟩ := exists_of_bind_eq_ok h
    have hentry : (Entry.relation name (Record.relation name) child).OverObjects Rule.ReadsField :=
      .relation (overObjects_of_schema hchild)
    exact overObjects_of_registerRelations (hs.register hentry) h
termination_by sizeOf relations

end

end Declaration

end Criteria
