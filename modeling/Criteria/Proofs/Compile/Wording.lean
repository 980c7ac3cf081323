import Criteria.Proofs.Compile.Parallel

/-! # Schemas in other words
A schema is **reworded** if at any nesting, in one place or in many, the translator is another one.
Nothing else changes, and so nothing but the texts of messages does: the same filter is bound, and the
same problems are found in the same order, each for the translator of the same schema to word.

* `Entry.Reworded`, `Schema.Reworded`: the relation, at every nesting.

Main statement: `Schema.compileGroup_of_reworded`, a schema and a reworded one give the same filter,
and the messages under each are its translations of one list of findings. -/

namespace Criteria

/-! ## The relation -/

mutual

/-- An entry **reworded**: the same rule, or a relation that is bound in the same way, with a
reworded schema. -/
inductive Entry.Reworded : {F : Type} → Entry F → Entry F → Prop where
  /-- The same rule. -/
  | rule {F : Type} (rule : Rule F) : Entry.Reworded (.rule rule) (.rule rule)
  /-- The same relation but for the words of its schema. -/
  | relation {F G : Type} {name : String} {bind : Combinator → List G → F} {child child' : Schema G}
      (below : Schema.Reworded child child') :
      Entry.Reworded (.relation name bind child) (.relation name bind child')

/-- A schema **reworded**: it has any translator, and all else is the same at every nesting. -/
inductive Schema.Reworded : {F : Type} → Schema F → Schema F → Prop where
  /-- The same target, the same limit, and under each name the same entry but for its words. -/
  | mk {F : Type} {s s' : Schema F} (target : s'.target = s.target)
      (maxDepth : s'.maxDepth = s.maxDepth)
      (registered : ∀ name, (s'.find? name).isSome = (s.find? name).isSome)
      (entries : ∀ name e e', s.find? name = some e → s'.find? name = some e' →
        Entry.Reworded e e') : Schema.Reworded s s'

end

mutual

/-- A reworded entry is parallel. -/
theorem Entry.Reworded.parallel {F : Type} {e e' : Entry F} :
    e.Reworded e' → e.Parallel (fun _ _ => True) e'
  | .rule _ => .rule rfl rfl rfl fun _ => rfl
  | .relation below => .relation below.parallel

/-- A reworded schema is parallel. -/
theorem Schema.Reworded.parallel {F : Type} {s s' : Schema F} :
    s.Reworded s' → s.Parallel (fun _ _ => True) s'
  | .mk _ maxDepth registered entries =>
    .mk maxDepth trivial registered fun name e e' he he' => (entries name e e' he he').parallel

end

namespace Schema.Reworded

variable {F : Type} {s s' : Schema F}

/-- A schema in other words makes groups alike. -/
theorem target_eq (h : s.Reworded s') : s'.target = s.target := by
  cases h with
  | mk target => exact target

/-- A name stands for an entry and the same in other words, or for none. -/
theorem find?_rel (h : s.Reworded s') (name : String) :
    Option.Rel Entry.Reworded (s.find? name) (s'.find? name) := by
  cases h with
  | mk _ _ registered entries => exact optionRel_iff.2 ⟨registered name, entries name⟩

/-- Schemas that make groups alike under one limit are the same but for their words if each name
stands for an entry and the same in other words, or for none. -/
theorem of_find?_rel (target : s'.target = s.target) (maxDepth : s'.maxDepth = s.maxDepth)
    (h : ∀ name, Option.Rel Entry.Reworded (s.find? name) (s'.find? name)) : s.Reworded s' :=
  .mk target maxDepth (fun name => (optionRel_iff.1 (h name)).1)
    fun name => (optionRel_iff.1 (h name)).2

/-! ## The same binding -/

mutual

/-- A reworded schema binds a condition to the same filter. -/
theorem bind?_eq {F : Type} {s s' : Schema F} (h : s.Reworded s') (c : Condition) :
    s'.bind? c = s.bind? c := by
  -- The recursion is on the condition; the schemas are others below a relation.
  match c with
  | .group c children => rw [Schema.bind?, Schema.bind?, h.bindAll?_eq children, h.target_eq]
  | .rule name o w =>
    rw [Schema.bind?, Schema.bind?]
    have hrel := h.find?_rel name
    generalize s.find? name = e? at hrel ⊢
    generalize s'.find? name = e?' at hrel ⊢
    cases hrel with
    | none => rfl
    | some hentry => cases hentry <;> rfl
  | .relation name c children =>
    rw [Schema.bind?, Schema.bind?]
    have hrel := h.find?_rel name
    generalize s.find? name = e? at hrel ⊢
    generalize s'.find? name = e?' at hrel ⊢
    cases hrel with
    | none => rfl
    | some hentry =>
      cases hentry with
      | rule => rfl
      | @relation _ G _ bind child child' below =>
        exact congrArg (Option.map (bind c)) (below.bindAll?_eq children)

/-- A reworded schema binds a list of conditions to the same filters. -/
theorem bindAll?_eq {F : Type} {s s' : Schema F} (h : s.Reworded s') (cs : List Condition) :
    s'.bindAll? cs = s.bindAll? cs := by
  match cs with
  | [] => rfl
  | c :: cs => rw [Schema.bindAll?, Schema.bindAll?, h.bind?_eq c, h.bindAll?_eq cs]

end

end Schema.Reworded

/-! ## The same findings in other words -/

namespace Schema

variable {F : Type} {s s' : Schema F}

/-- A reworded schema gives the same filter. -/
theorem Reworded.filterAs_eq (h : s.Reworded s') (payload : Json) (depth : UInt64) :
    s'.filterAs .group payload depth = s.filterAs .group payload depth := by
  have hsame : (s'.filterAs .group payload depth).map some =
      (s.filterAs .group payload depth).map some := by
    rw [(h.parallel.gives_outlineAs_group payload depth).bound, funext h.bind?_eq,
      (s.gives_outlineAs_group payload depth).bound]
  exact Option.map_injective (fun _ _ => Option.some.inj) hsame

/-- **Rewording changes only texts**. Under a schema and the same schema in other words a payload
gives the same filter or none, and it is accepted under both or under neither; and there is one list
of findings such that what each schema appends to a report are the texts that the owners of the
findings have for them under that schema. -/
theorem compileGroup_of_reworded (h : s.Reworded s') (payload : Json) (depth : UInt64)
    (r : Report) :
    (s'.compileGroup payload depth r).1 = (s.compileGroup payload depth r).1 ∧
      (∀ f, s'.compile payload = .ok f ↔ s.compile payload = .ok f) ∧
      (s'.compileGroup payload depth r).2.size = (s.compileGroup payload depth r).2.size ∧
      (s.compileGroup payload depth r).2.toList.map some =
        r.toList.map some ++ (s.outlineAs .group payload depth).findings.map (·.text? s) ∧
      (s'.compileGroup payload depth r).2.toList.map some =
        r.toList.map some ++ (s.outlineAs .group payload depth).findings.map (·.text? s') := by
  -- Both schemas give what one outline says, each in its own words.
  have hgives := s.gives_outlineAs_group payload
  have hgives' := h.parallel.gives_outlineAs_group payload
  have hlength (depth : UInt64) : (s'.messagesAs .group payload depth).length =
      (s.messagesAs .group payload depth).length :=
    (hgives' depth).length_eq.trans (hgives depth).length_eq.symm
  rw [compileGroup_eq, compileGroup_eq]
  refine ⟨h.filterAs_eq payload depth, fun f => ?_, ?_, ?_, ?_⟩
  · rw [compile_eq_ok_iff, compile_eq_ok_iff, h.filterAs_eq, ← List.length_eq_zero_iff, hlength,
      List.length_eq_zero_iff]
  · rw [← Report.length_toList, ← Report.length_toList, Report.toList_extend,
      Report.toList_extend, List.length_append, List.length_append, hlength]
  · rw [Report.toList_extend, List.map_append, (hgives depth).worded]
  · rw [Report.toList_extend, List.map_append, (hgives' depth).worded]

end Schema

/-! ## Owners in other words -/

namespace Schema.Reworded

variable {F : Type} {s s' : Schema F}

/-- Registering an entry, and the same in other words, keeps a schema reworded. -/
theorem register (h : s.Reworded s') {e e' : Entry F} (he : e.Reworded e') :
    (s.register e).Reworded (s'.register e') :=
  of_find?_rel h.target_eq h.parallel.maxDepth_eq
    (find?_rel_register h.find?_rel he.parallel.name_eq he)

end Schema.Reworded

/-- Blank schemas with one limit are the same but for their words. -/
theorem Declaration.blankSchema_reworded (locale locale' : Locale) (maxDepth? : Option UInt64) :
    (blankSchema locale maxDepth?).Reworded (blankSchema locale' maxDepth?) := by
  refine .of_find?_rel ?_ ?_ fun name => ?_
  · rw [target_blankSchema, target_blankSchema]
  · cases maxDepth? <;> rfl
  · rw [find?_blankSchema, find?_blankSchema]
    exact .none

/-- Owners and pets with the languages the other way round. -/
def Declaration.ownersInDutch : Declaration :=
  .mk [⟨"age", .number, [.greaterThan, .oneOf]⟩]
    [("pets", .mk [⟨"species", .dropdown, [.equals, .oneOf]⟩] [] .english none)] .dutch (some 3)

/-- The two schemas of owners are the same but for their languages. -/
theorem Schema.reworded_ownersInDutch {s s' : Schema (Filter Record)}
    (hs : Declaration.owners.schema = .ok s) (hs' : Declaration.ownersInDutch.schema = .ok s') :
    s.Reworded s' := by
  cases hs
  cases hs'
  apply Reworded.register
  case h =>
    apply Reworded.register
    · exact Declaration.blankSchema_reworded _ _ _
    · exact .rule _
  case he =>
    apply Entry.Reworded.relation
    apply Reworded.register
    · exact Declaration.blankSchema_reworded _ _ _
    · exact .rule _

/-- The faulty payload for owners in two pairs of languages: the texts differ, and the findings and
the filter are the same. -/
theorem Schema.compileGroup_ownersInDutch :
    ∃ s s', Declaration.owners.schema = .ok s ∧ Declaration.ownersInDutch.schema = .ok s' ∧
      s.Reworded s' ∧
      (s.compileGroup .faultyOwners 0 .empty).2.toList =
        ["Operation is not supported for 'age'", "Het veld 'species' moet waarden bevatten",
          "Ongeldige groep", "Filter is nested too deeply",
          "Configuration doesn't contain an entry with name 'height'"] ∧
      (s'.compileGroup .faultyOwners 0 .empty).2.toList =
        ["De operatie voor 'age' wordt niet ondersteund", "Field 'species' must contain values",
          "Invalid group", "Het filter is te diep genest",
          "De configuratie bevat geen regel voor 'height'"] ∧
      (s'.compileGroup .faultyOwners 0 .empty).1 = (s.compileGroup .faultyOwners 0 .empty).1 ∧
      (∀ f, s'.compile .faultyOwners = .ok f ↔ s.compile .faultyOwners = .ok f) ∧
      (s'.compileGroup .faultyOwners 0 .empty).2.size =
        (s.compileGroup .faultyOwners 0 .empty).2.size ∧
      (s.compileGroup .faultyOwners 0 .empty).2.toList.map some =
        Report.empty.toList.map some ++
          (s.outlineAs .group .faultyOwners 0).findings.map (·.text? s) ∧
      (s'.compileGroup .faultyOwners 0 .empty).2.toList.map some =
        Report.empty.toList.map some ++
          (s.outlineAs .group .faultyOwners 0).findings.map (·.text? s') := by
  have hreworded := @reworded_ownersInDutch _ _ rfl rfl
  exact ⟨_, _, rfl, rfl, hreworded, rfl, rfl, compileGroup_of_reworded hreworded _ _ _⟩

end Criteria
