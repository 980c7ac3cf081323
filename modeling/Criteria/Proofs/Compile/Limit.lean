import Criteria.Proofs.Compile.Siblings
import Criteria.Schema.Checked

/-! # At the limit
Where the limit of a schema is reached, nothing more is nested: groups and relations are refused with
one message each and without a look at what they hold, and only rules are bound. This holds on every
level from the limit on whose next level 64 bits can hold. Levels are counted in 64 bits without a
check, and the greatest of them is followed by zero, which every limit admits; so below the greatest
number of levels the guard is open for every schema.

* `Schema.Nests`: the well-formed groups and relations under a schema.
* `Schema.ClosedBelow`: nothing is nested below a number of levels.

Main statements: `Schema.closedBelow_iff_lt`, the guard is closed where the next level exceeds the
limit; `Schema.closedBelow_iff_of_maxDepth_le`, from the limit on that is so on all levels but the
greatest. -/

namespace Criteria

/-- A relation of the type of a group is a well-formed group. -/
theorem Json.groupShape?_of_relationShape {v : Json} {shape : Combinator × List Json}
    (hgroup : v.isGroup) (h : v.relationShape = .ok shape) : v.groupShape? = some shape := by
  obtain ⟨hword, hitems, -⟩ := relationShape_eq_ok_iff.1 h
  exact groupShape?_eq_some_iff.2 ⟨hgroup, hword, hitems⟩

namespace Schema

variable {F : Type}

/-! ## Groups and relations under a closed guard -/

/-- The values that **nest others** under a schema: the well-formed groups, and what bears the name
of a relation, with a combinator and children, at least one. -/
def Nests (s : Schema F) (v : Json) : Prop :=
  (∃ shape, v.groupShape? = some shape) ∨
    ∃ name e shape, v.text? "name" = some name ∧ s.find? name = some e ∧ e.isRelation ∧
      v.relationShape = .ok shape

/-- A schema is **closed** below a number of levels: a value gives no filter as a group; among
children only rules that the elements name are bound; and a well-formed group or relation among
children gives no filter and one message, and nothing comes from inside it. -/
structure ClosedBelow (s : Schema F) (depth : UInt64) : Prop where
  /-- No value gives a filter as a group. -/
  group : ∀ payload r, (s.compileGroup payload depth r).1 = none
  /-- Each filter among children is bound by a rule that an element names. -/
  rules : ∀ items r, ∀ f ∈ (s.compileChildren items depth r).1,
    ∃ v ∈ items, ∃ name rule o w, v.text? "name" = some name ∧ s.find? name = some (.rule rule) ∧
      f = rule.bind o w
  /-- A well-formed group or relation among children gives one message, and is not looked into. -/
  nested : ∀ before v after r, s.Nests v → s.compileChildren (before ++ v :: after) depth r =
    let (fs, r) := s.compileChildren before depth r
    let (gs, r) := s.compileChildren after depth (r.issue s.translator .depthExceeded)
    (fs ++ gs, r)

variable {s : Schema F} {depth : UInt64}

/-- A well-formed group or relation beyond the limit is settled with one issue. -/
theorem step_of_nests {v : Json} {level : UInt64} (hv : s.Nests v) (h : s.maxDepth < level) :
    s.step v level (s.roleOf v) = .settled none [.issue .depthExceeded] := by
  have hgroup {shape : Combinator × List Json} (hshape : v.groupShape? = some shape) :
      s.step v level (s.roleOf v) = .settled none [.issue .depthExceeded] := by
    rw [roleOf_of_isGroup (Json.groupShape?_eq_some_iff.1 hshape).1, step, hshape]
    simp only [if_pos h]
  rcases hv with ⟨shape, hshape⟩ | ⟨name, e, shape, hname, he, hrelation, hshape⟩
  · exact hgroup hshape
  · by_cases hisGroup : v.isGroup
    · exact hgroup (Json.groupShape?_of_relationShape hisGroup hshape)
    · rw [roleOf_of_find? hisGroup hname he]
      cases e with
      | rule rule => cases hrelation
      | relation field bind child =>
        rw [step, hshape]
        simp only [if_pos h]

/-- Beyond the limit a filter is bound by a rule. -/
theorem exists_rule_of_filterOf {v : Json} {f : F} (h : s.maxDepth < depth + 1)
    (hf : s.filterOf v depth = some f) :
    ∃ name rule o w, v.text? "name" = some name ∧ s.find? name = some (.rule rule) ∧
      f = rule.bind o w := by
  rw [filterOf, filterAs_eq] at hf
  cases hstep : s.step v (depth + 1) (s.roleOf v) with
  | settled f? problems =>
    rw [hstep] at hf
    obtain rfl : f? = some f := hf
    obtain ⟨rule, o, w, hrole, rfl⟩ := exists_rule_of_settled_some hstep
    obtain ⟨-, name, hname, he⟩ := name_of_roleOf_entry hrole
    exact ⟨name, rule, o, w, hname, he, rfl⟩
  | descend below items bind => exact absurd h (not_maxDepth_lt_of_descend hstep)

/-- Where the next level exceeds the limit, nothing is nested. -/
theorem closedBelow_of_lt (h : s.maxDepth < depth + 1) : s.ClosedBelow depth where
  group payload r := by
    rw [compileGroup_eq, filterAs_eq]
    cases hstep : s.step payload (depth + 1) .group with
    | settled f? problems =>
      cases f? with
      | none => rfl
      | some f =>
        obtain ⟨rule, o, w, hrole, -⟩ := exists_rule_of_settled_some hstep
        cases hrole
    | descend below items bind => exact absurd h (not_maxDepth_lt_of_descend hstep)
  rules items r f hf := by
    rw [compileChildren_eq, List.mem_filterMap] at hf
    obtain ⟨v, hv, hf⟩ := hf
    exact ⟨v, hv, exists_rule_of_filterOf h hf⟩
  nested before v after r hv := by
    have hfilter : s.filterOf v depth = none := by
      rw [filterOf, filterAs_eq, step_of_nests hv h, Step.filter?]
    have hmessages : s.messagesOf v depth = [s.translator.issue .depthExceeded] := by
      rw [messagesOf, messagesAs_eq, step_of_nests hv h]
      rfl
    simp [compileChildren_eq, hfilter, hmessages, Report.issue_eq_extend]

/-- A group without children is accepted below every number of levels whose next the limit admits. -/
theorem compileGroup_of_not_lt (h : ¬ s.maxDepth < depth + 1) (c : Combinator) (r : Report) :
    s.compileGroup (.groupNode c []) depth r = (some (s.target.group c []), r) := by
  have hshape : (Json.groupNode c []).groupShape? = some (c, []) :=
    Json.groupShape?_eq_some_iff.2 ⟨rfl, rfl, rfl⟩
  rw [compileGroup_eq, filterAs_eq, messagesAs_eq, step, hshape]
  simp only [if_neg h, Step.filter?, Step.messages, List.filterMap_nil, List.flatMap_nil,
    Report.extend_nil]

/-- **The guard is closed exactly where the next level exceeds the limit**. -/
theorem closedBelow_iff_lt : s.ClosedBelow depth ↔ s.maxDepth < depth + 1 := by
  refine ⟨fun hclosed => ?_, closedBelow_of_lt⟩
  by_contra hopen
  have hnone := hclosed.group (.groupNode .and []) .empty
  rw [compileGroup_of_not_lt hopen] at hnone
  cases hnone

end Schema

/-- From a limit on, the next level exceeds it exactly if 64 bits can hold the next level. -/
theorem lt_level_iff_of_le {limit depth : UInt64} (h : limit ≤ depth) :
    limit < depth + 1 ↔ depth.toNat + 1 < UInt64.size := by
  have hle : limit.toNat ≤ depth.toNat := UInt64.le_iff_toNat_le.1 h
  constructor
  · intro hlt
    by_contra hsize
    -- The greatest level is followed by zero, and nothing is less than that.
    have hzero : (depth + 1).toNat = 0 := by
      have hdepth : depth.toNat + 1 = UInt64.size := by
        have := depth.toNat_lt_size
        omega
      rw [UInt64.toNat_add]
      show (depth.toNat + 1) % UInt64.size = 0
      rw [hdepth, Nat.mod_self]
    rw [UInt64.lt_iff_toNat_lt, hzero] at hlt
    exact Nat.not_lt_zero _ hlt
  · intro hsize
    rw [UInt64.lt_iff_toNat_lt, toNat_level hsize]
    omega

namespace Schema

/-- **At the limit and past it nothing is nested, save on the greatest level**. Below a number of
levels that is no less than its limit, a schema is closed exactly if 64 bits can hold the next
level; and over objects all filters among children are then rules. -/
theorem closedBelow_iff_of_maxDepth_le (depth : UInt64) :
    (∀ {F : Type} (s : Schema F), s.maxDepth ≤ depth →
      (s.ClosedBelow depth ↔ depth.toNat + 1 < UInt64.size)) ∧
    ∀ {α : Type} (s : Schema (Filter α)), s.OverObjects Rule.ReadsField → s.maxDepth ≤ depth →
      depth.toNat + 1 < UInt64.size → ∀ items r, ∀ f ∈ (s.compileChildren items depth r).1,
        f.isRule ∧ f.isGroup = false ∧ f.isRelation = false := by
  refine ⟨fun s h => closedBelow_iff_lt.trans (lt_level_iff_of_le h),
    fun s hs h hsize items r f hf => ?_⟩
  have hclosed := closedBelow_of_lt ((lt_level_iff_of_le h).2 hsize)
  obtain ⟨v, -, name, rule, o, w, -, he, rfl⟩ := hclosed.rules items r f hf
  cases hs.entry he with
  | rule reads =>
    obtain ⟨read, hbind⟩ := reads
    rw [hbind]
    exact ⟨rfl, rfl, rfl⟩

/-- Owners accept three levels, so below the third there are only rules. -/
theorem closedBelow_owners :
    ∃ s f, Declaration.owners.schema = .ok s ∧ s.OverObjects Rule.ReadsField ∧ s.maxDepth ≤ 3 ∧
      (3 : UInt64).toNat + 1 < UInt64.size ∧ s.ClosedBelow 3 ∧
      s.compileChildren [.olderWithPets, .ruleNode "age" .greaterThan (.integer 30)] 3 .empty =
        ([f], .ofList ["Filter is nested too deeply"]) ∧
      f.isRule ∧ f.isGroup = false ∧ f.isRelation = false := by
  have hs := @Declaration.overObjects_of_schema .owners _ rfl
  have hlimits := closedBelow_iff_of_maxDepth_le 3
  refine ⟨_, _, rfl, hs, by decide, by decide, (hlimits.1 _ (by decide)).2 (by decide), rfl, ?_⟩
  exact hlimits.2 _ hs (by decide) (by decide)
    [.olderWithPets, .ruleNode "age" .greaterThan (.integer 30)] .empty _ (.head _)

/-- Below the greatest number of levels a group is accepted, although two levels are the limit; with
checked levels it is not refused there either, nothing is answered. -/
theorem not_closedBelow_greatest :
    ∃ s : Schema (Filter Record), s = (empty (Filter.target Record)).withMaxDepth 2 ∧
      s.maxDepth ≤ 18446744073709551615 ∧ s.Nests (.groupNode .and []) ∧
      s.compileChildren [.groupNode .and []] 18446744073709551615 .empty =
        ([.group .and []], .empty) ∧
      s.compileChildren? [.groupNode .and []] 18446744073709551615 .empty = none ∧
      ¬ s.ClosedBelow 18446744073709551615 := by
  have hopen : ¬ ((empty (Filter.target Record)).withMaxDepth 2).maxDepth <
      (18446744073709551615 : UInt64) + 1 := by decide
  exact ⟨_, rfl, by decide, .inl ⟨_, rfl⟩, rfl, rfl, mt closedBelow_iff_lt.1 hopen⟩

end Schema

end Criteria
