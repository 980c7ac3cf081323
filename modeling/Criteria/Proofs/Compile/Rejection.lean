import Criteria.Proofs.Compile.Places
import Criteria.Proofs.Compile.Siblings

/-! # Rejected nodes
A group or a relation that is rejected on its own level is not looked into: whatever its children
are, the filter and the report of the payload are the same. What rejects a node is its level or its
operation; for a relation there have to be children, since it is refused for having none before its
level is looked at.

* `Place.Rejected`: a node that is rejected on its level.
* `Place.SameButRejected`: two payloads that differ in nothing but the children of rejected nodes.
* `Place.shape?`: the shape of a well-formed group or relation.

Main statement: `Place.compileGroup_of_sameButRejected`, such payloads are compiled alike, and a
well-formed group or relation above the limit gets one message for itself and all that it holds. -/

namespace Criteria

namespace Place

/-! ## Nodes that are rejected -/

/-- A node that is **rejected** on its level, with children of the one kind as with the others. -/
inductive Rejected (p : Place) (level : Nat) (items items' : List Json) : Prop where
  /-- A group above the limit. -/
  | group (role : p.role = .group) (deep : p.schema.maxDepth.toNat < level)
  /-- A relation above the limit, with at least one child. -/
  | relation {e : Entry p.F} (role : p.role = .entry e) (kind : e.isRelation)
      (deep : p.schema.maxDepth.toNat < level) (nonempty : items ≠ []) (nonempty' : items' ≠ [])
  /-- A group or a relation whose operation is text, and no combinator. -/
  | operation {word : String} (nested : p.isNested)
      (operation : p.value.text? "operation" = some word)
      (unknown : ∀ c : Combinator, word ≠ c.token)

/-- A value that differs from that of a place, below a number of levels, in nothing **but the
children of rejected nodes**. Each pair is a child and what stands in its place. -/
inductive SameButRejected : Place → Nat → Json → Prop where
  /-- The same value. -/
  | refl (p : Place) (levels : Nat) : SameButRejected p levels p.value
  /-- Other children of a rejected node. -/
  | rejected {p : Place} {levels : Nat} {items items' : List Json}
      (children : p.value.items? "children" = some items)
      (rejected : p.Rejected (levels + 1) items items') :
      SameButRejected p levels (p.value.withChildren items')
  /-- Children that differ in nothing but the children of rejected nodes. -/
  | inside {p : Place} {levels : Nat} {pairs : List (Json × Json)}
      (children : p.value.items? "children" = some (pairs.map Prod.fst))
      (each : ∀ q ∈ pairs,
        SameButRejected (among p.below.2 q.1) (levels + if p.isNested then 1 else 0) q.2) :
      SameButRejected p levels (p.value.withChildren (pairs.map Prod.snd))

/-- A rejected node is settled. -/
theorem Rejected.exists_settled {p : Place} {level : UInt64} {items items' : List Json}
    (h : p.Rejected level.toNat items items') :
    ∃ f? problems, p.schema.step p.value level p.role = .settled f? problems := by
  cases hstep : p.schema.step p.value level p.role with
  | settled f? problems => exact ⟨f?, problems, rfl⟩
  | descend below nodes bind =>
    have hlevel := Schema.not_maxDepth_lt_of_descend hstep
    rw [UInt64.lt_iff_toNat_lt] at hlevel
    cases h with
    | group _ deep => exact absurd deep hlevel
    | relation _ _ deep _ _ => exact absurd deep hlevel
    | operation _ operation unknown =>
      obtain ⟨c, hc⟩ := Schema.exists_combinator_of_descend hstep
      exact absurd (Option.some.inj (operation.symm.trans hc)) (unknown c)

end Place

/-- Without a combinator every list of children makes the same relation, a malformed one. -/
theorem Json.relationShape_of_unknown {v : Json} {word : String} {items : List Json}
    (hword : v.text? "operation" = some word) (hitems : v.items? "children" = some items)
    (hunknown : ∀ c : Combinator, word ≠ c.token) : v.relationShape = .error .invalidOperation := by
  have hparse : (Vocabulary.parse? word : Option Combinator) = none := by
    rw [Option.eq_none_iff_forall_ne_some]
    exact fun c hc => hunknown c (Vocabulary.parse?_eq_some_iff.1 hc)
  simp [relationShape, hword, hitems, hparse]

namespace Place

/-- The step at a rejected node is the same **with other children**. -/
theorem Rejected.step_withChildren {p : Place} {level : UInt64} {items items' : List Json}
    (h : p.Rejected level.toNat items items') (hitems : p.value.items? "children" = some items) :
    p.schema.step (p.value.withChildren items') level p.role =
      p.schema.step p.value level p.role := by
  obtain ⟨f?, problems, hsettled⟩ := h.exists_settled
  -- A step that settles a node has no children to be changed.
  have hsame {step : Step p.F} (hstep : step = (p.schema.step p.value level p.role).withChildren
      items') : step = p.schema.step p.value level p.role := by
    rw [hstep, hsettled]
    rfl
  cases h with
  | group role _ =>
    rw [role] at hsame ⊢
    exact hsame (p.schema.step_group_withChildren hitems items' level)
  | relation _ _ _ nonempty nonempty' =>
    have hempty : items'.isEmpty = items.isEmpty := by
      rw [List.isEmpty_eq_false_iff.2 nonempty, List.isEmpty_eq_false_iff.2 nonempty']
    exact hsame (p.schema.step_withChildren hitems hempty level p.role)
  | @operation word nested operation unknown =>
    obtain ⟨s, role, v⟩ := p
    have hword : (v.withChildren items').text? "operation" = some word := by
      rw [Json.text?_withChildren (by decide)]
      exact operation
    cases role with
    | group => exact hsame (s.step_group_withChildren hitems items' level)
    | entry e =>
      cases e with
      | relation name bind child =>
        show s.step (v.withChildren items') level (.entry (.relation name bind child)) =
          s.step v level (.entry (.relation name bind child))
        rw [Schema.step, Schema.step, Json.relationShape_of_unknown operation hitems unknown,
          Json.relationShape_of_unknown hword (Json.items?_withChildren hitems items') unknown]
      | rule rule => cases nested
    | _ => cases nested

/-! ## Runs on payloads that differ below rejected nodes -/

/-- What differs below rejected nodes alone stands for the same. -/
theorem SameButRejected.roleOf_eq {p : Place} {levels : Nat} {v' : Json}
    (h : p.SameButRejected levels v') {F : Type} (s : Schema F) :
    s.roleOf v' = s.roleOf p.value := by
  cases h with
  | refl => rfl
  | rejected => exact s.roleOf_withChildren _ _
  | inside => exact s.roleOf_withChildren _ _

/-- Only a group or a relation is rejected. -/
theorem Rejected.isNested {p : Place} {level : Nat} {items items' : List Json}
    (h : p.Rejected level items items') : p.isNested := by
  cases h with
  | group role _ => rw [Place.isNested, role]
  | @relation e role kind _ _ _ =>
    rw [Place.isNested, role]
    cases e with
    | rule rule => cases kind
    | relation name bind child => rfl
  | operation nested _ _ => exact nested

/-- A value that differs in nothing but the children of rejected nodes gives **the same filter and
the same messages**. -/
theorem SameButRejected.compileAs_eq {p : Place} {levels : Nat} {v' : Json}
    (h : p.SameButRejected levels v') {depth : UInt64} (hlevels : depth.toNat = levels)
    (hfit : p.LevelsFit depth.toNat) :
    p.schema.filterAs p.role v' depth = p.schema.filterAs p.role p.value depth ∧
      p.schema.messagesAs p.role v' depth = p.schema.messagesAs p.role p.value depth := by
  induction h generalizing depth with
  | refl => exact ⟨rfl, rfl⟩
  | @rejected p levels items items' hitems rejected =>
    have hlevel : (depth + 1).toNat = levels + 1 := by
      rw [Schema.toNat_level_of_levelsFit hfit rejected.isNested, hlevels]
    rw [← hlevel] at rejected
    rw [Schema.filterAs_eq, Schema.filterAs_eq, Schema.messagesAs_eq, Schema.messagesAs_eq,
      rejected.step_withChildren hitems]
    exact ⟨rfl, rfl⟩
  | @inside p levels pairs hitems each ih =>
    have hempty : (pairs.map Prod.snd).isEmpty = (pairs.map Prod.fst).isEmpty := by
      rw [List.isEmpty_map, List.isEmpty_map]
    refine Schema.compileAs_withChildren hitems (p.schema.step_withChildren hitems hempty _ _)
      fun {G below bind} hstep => ?_
    -- The children are compiled on the next level, under the schema below the place.
    obtain ⟨hn, hbelow⟩ := Schema.isNested_of_descend hstep
    obtain ⟨hlevel, hchildFit⟩ := Schema.levelsFit_of_descend hfit hstep
    change p.isNested at hn
    change p.below = ⟨G, below⟩ at hbelow
    rw [hbelow, if_pos hn] at ih
    have hpair : ∀ q ∈ pairs,
        below.filterOf q.2 (depth + 1) = below.filterOf q.1 (depth + 1) ∧
          below.messagesOf q.2 (depth + 1) = below.messagesOf q.1 (depth + 1) :=
      fun q hq => Schema.compileOf_congr ((each q hq).roleOf_eq _)
        (ih q hq (hlevels ▸ hlevel) (hchildFit q.1 (List.mem_map_of_mem hq)))
    simp only [List.filterMap_map, List.flatMap_map]
    exact ⟨List.filterMap_congr fun q hq => (hpair q hq).1,
      List.flatMap_congr fun q hq => (hpair q hq).2⟩

/-! ## One message for a node above the limit -/

/-- The combinator and the children of a **well-formed** group or relation. -/
def shape? (p : Place) : Option (Combinator × List Json) :=
  match p.role with
  | .group => p.value.groupShape?
  | .entry (.relation _ _ _) => p.value.relationShape.toOption
  | _ => none

/-- The only problem of a well-formed group or relation above the limit is its level. -/
theorem problemsAs_of_shape {p : Place} {shape : Combinator × List Json} (h : p.shape? = some shape)
    {level : Nat} (hdeep : p.schema.maxDepth.toNat < level) :
    p.schema.problemsAs p.value level p.role = [.issue .depthExceeded] := by
  obtain ⟨s, role, v⟩ := p
  cases role with
  | group =>
    have hshape : v.groupShape? = some shape := h
    simp only [Schema.problemsAs, hshape, if_pos hdeep]
  | entry e =>
    cases e with
    | rule rule => cases h
    | relation name bind child =>
      have hshape : v.relationShape.toOption = some shape := h
      cases hrel : v.relationShape with
      | error i => simp [hrel, Except.toOption] at hshape
      | ok shape' => simp only [Schema.problemsAs, hrel, if_pos hdeep]
  | _ => cases h

/-- A path that leads to a place leads to its value. -/
theorem map_value_at? (p : Place) (path : List Nat) :
    (p.at? path).map value = p.value.at? path := by
  induction path generalizing p with
  | nil => rfl
  | cons i path ih =>
    rw [at?, Json.at?, child?, Option.bind_map, Option.map_bind]
    exact Option.bind_congr fun w _ => ih (among p.below.2 w)

/-- What stands properly below a node with a message is not visited. -/
theorem messagesAt_of_prefix {p : Place} {levels : Nat} {path q : List Nat} (hpre : path <+: q)
    (hne : q ≠ path) (hown : p.ownMessages levels path ≠ []) : p.messagesAt levels q = [] := by
  rw [messagesAt, if_neg]
  intro hvisited
  exact hown (hvisited path ((List.mem_inits _ _).2 hpre) (Ne.symm hne)).2

end Place

/-- A list without repetition that gives something at one of its items only. -/
theorem flatMap_eq_of_nodup {α β : Type} {l : List α} (hl : l.Nodup) {a : α} (ha : a ∈ l)
    {g : α → List β} (hrest : ∀ b ∈ l, b ≠ a → g b = []) : l.flatMap g = g a := by
  induction l with
  | nil => cases ha
  | cons b l ih =>
    obtain ⟨hb, hl⟩ := List.nodup_cons.1 hl
    rw [List.flatMap_cons]
    by_cases hba : b = a
    · subst hba
      have htail : l.flatMap g = [] := by
        rw [List.flatMap_eq_nil_iff]
        intro c hc
        exact hrest c (List.mem_cons_of_mem b hc) fun hcb => hb (hcb ▸ hc)
      rw [htail, List.append_nil]
    · have htail := ih hl ((List.mem_cons.1 ha).resolve_left (Ne.symm hba)) fun c hc =>
        hrest c (List.mem_cons_of_mem b hc)
      rw [hrest b (by simp) hba, htail, List.nil_append]

namespace Place

/-- A visited node above the limit, well-formed otherwise, gets **one message** for itself and for
everything below it. -/
theorem flatMap_messagesAt_of_deep {p q : Place} {levels : Nat} {path : List Nat}
    {shape : Combinator × List Json} (hq : p.at? path = some q) (hvisited : p.Visited levels path)
    (hshape : q.shape? = some shape) (hdeep : q.schema.maxDepth.toNat < levels + p.level path) :
    (p.value.paths.filter (path.isPrefixOf ·)).flatMap (p.messagesAt levels) =
      [q.schema.translator.issue .depthExceeded] := by
  have hown : p.ownMessages levels path = [q.schema.translator.issue .depthExceeded] := by
    rw [ownMessages, hq]
    simp [problemsAs_of_shape hshape hdeep, Problem.text]
  have hmem : path ∈ p.value.paths := by
    rw [Json.mem_paths_iff, ← map_value_at?, hq]
    rfl
  rw [flatMap_eq_of_nodup (p.value.nodup_paths.filter _) (List.mem_filter.2 ⟨hmem, by simp⟩),
    messagesAt, if_pos hvisited, hown]
  intro ext hext hne
  obtain ⟨-, hpre⟩ := List.mem_filter.1 hext
  exact messagesAt_of_prefix (List.isPrefixOf_iff_prefix.1 hpre) hne (by simp [hown])

/-- **Rejected nodes are never looked into**. A payload that differs in nothing but the children of
rejected nodes gives the same filter and the same report; and of the messages that a payload gets,
in document order, just one is due to a visited node above the limit that is well-formed otherwise,
to all below the node included. -/
theorem compileGroup_of_sameButRejected {F : Type} (s : Schema F) (payload : Json) (depth : UInt64)
    (hfit : (root s payload).LevelsFit depth.toNat) :
    (∀ payload', (root s payload).SameButRejected depth.toNat payload' →
      ∀ r, s.compileGroup payload' depth r = s.compileGroup payload depth r) ∧
    (∀ r, (s.compileGroup payload depth r).2.toList =
      r.toList ++ payload.paths.flatMap ((root s payload).messagesAt depth.toNat)) ∧
    ∀ path q shape, (root s payload).at? path = some q → (root s payload).Visited depth.toNat path →
      q.shape? = some shape →
      q.schema.maxDepth.toNat < depth.toNat + (root s payload).level path →
        (payload.paths.filter (path.isPrefixOf ·)).flatMap
          ((root s payload).messagesAt depth.toNat) =
            [q.schema.translator.issue .depthExceeded] := by
  refine ⟨fun payload' h r => ?_, fun r => ?_, fun path q shape hq hvisited hshape hdeep => ?_⟩
  · exact Schema.compileGroup_congr (h.compileAs_eq rfl hfit) r
  · rw [Schema.compileGroup_eq, Report.toList_extend,
      s.messagesAs_eq_flatMap_paths .group payload depth hfit]
    rfl
  · exact flatMap_messagesAt_of_deep hq hvisited hshape hdeep

end Place

/-! ## A payload with two rejected nodes -/

/-- Pets under an operation that is no combinator. -/
def Json.unknownPets (children : List Json) : Json :=
  .object [("name", .string "pets"), ("operation", .string "xor"), ("children", .array children)]

/-- Groups nested four levels deep, beside pets under an unknown operation, with the given children
of the innermost group and of the pets. -/
def Json.deepAndUnknown (deep unknown : List Json) : Json :=
  groupNode .and [groupNode .or [groupNode .or [groupNode .and deep]], unknownPets unknown]

/-- Groups whose children differ in nothing but the children of rejected nodes do so too. -/
theorem Place.sameButRejected_groupNode {F : Type} {s : Schema F} {levels : Nat} (c : Combinator)
    {pairs : List (Json × Json)}
    (each : ∀ q ∈ pairs, (among s q.1).SameButRejected (levels + 1) q.2) :
    (among s (.groupNode c (pairs.map Prod.fst))).SameButRejected levels
      (.groupNode c (pairs.map Prod.snd)) := by
  have hrole : s.roleOf (.groupNode c (pairs.map Prod.fst)) = .group := Schema.roleOf_of_isGroup rfl
  rw [among, hrole]
  exact .inside rfl each

/-- A schema with the limit three rejects the innermost group for its level, and a relation to pets
for its operation. -/
theorem Place.sameButRejected_deepAndUnknown {F G : Type} {s : Schema F} (hlimit : s.maxDepth = 3)
    {field : String} {bind : Combinator → List G → F} {child : Schema G}
    (hpets : s.find? "pets" = some (.relation field bind child))
    (deep unknown deep' unknown' : List Json) :
    (root s (.deepAndUnknown deep unknown)).SameButRejected 0 (.deepAndUnknown deep' unknown') := by
  have hinnermost : (among s (.groupNode .and deep)).SameButRejected 3 (.groupNode .and deep') := by
    have hrole : s.roleOf (.groupNode .and deep) = .group := Schema.roleOf_of_isGroup rfl
    refine .rejected rfl (.group hrole ?_)
    show s.maxDepth.toNat < 4
    rw [hlimit]
    decide
  have hpets : (among s (.unknownPets unknown)).SameButRejected 1 (.unknownPets unknown') := by
    have hrole : s.roleOf (.unknownPets unknown) = .entry (.relation field bind child) :=
      Schema.roleOf_of_find? Bool.false_ne_true rfl hpets
    refine .rejected rfl (.operation ?_ rfl ?_)
    · rw [Place.isNested, among, hrole]
    · rintro (_ | _) <;> decide
  have hgroups := @sameButRejected_groupNode _ s 1 .or [(_, _)] (List.forall_mem_singleton.2
    (@sameButRejected_groupNode _ s 2 .or [(_, _)] (List.forall_mem_singleton.2 hinnermost)))
  exact @SameButRejected.inside (root s (.deepAndUnknown deep unknown)) 0 [(_, _), (_, _)] rfl
    (List.forall_mem_cons.2 ⟨hgroups, List.forall_mem_singleton.2 hpets⟩)

/-- A group that is nested too deep and pets under an unknown operation are not looked into,
whatever they hold. -/
theorem Place.compileGroup_deepAndUnknown :
    ∃ s, Declaration.owners.schema = .ok s ∧
      (root s (.deepAndUnknown [.faultyOwners] [.null])).LevelsFit 0 ∧
      (root s (.deepAndUnknown [.faultyOwners] [.null])).SameButRejected 0 (.deepAndUnknown [] []) ∧
      s.compileGroup (.deepAndUnknown [] []) 0 .empty =
        s.compileGroup (.deepAndUnknown [.faultyOwners] [.null]) 0 .empty ∧
      (root s (.deepAndUnknown [.faultyOwners] [.null])).Visited 0 [0, 0, 0] ∧
      ((Json.deepAndUnknown [.faultyOwners] [.null]).paths.filter ([0, 0, 0].isPrefixOf ·)).flatMap
        ((root s (.deepAndUnknown [.faultyOwners] [.null])).messagesAt 0) =
          ["Filter is nested too deeply"] := by
  have hnesting : 0 + (Json.deepAndUnknown [.faultyOwners] [.null]).nesting + 1 < UInt64.size := by
    decide
  have hfit {s : Schema (Filter Record)} :
      (root s (.deepAndUnknown [.faultyOwners] [.null])).LevelsFit 0 :=
    levelsFit_of_nesting hnesting
  refine ⟨_, rfl, hfit, sameButRejected_deepAndUnknown rfl rfl _ _ _ _, ?_, ?_, ?_⟩
  · exact (compileGroup_of_sameButRejected _ _ 0 hfit).1 _
      (sameButRejected_deepAndUnknown rfl rfl _ _ _ _) .empty
  · decide
  · exact (compileGroup_of_sameButRejected _ _ 0 hfit).2.2 [0, 0, 0] _ _ rfl (by decide) rfl
      (by decide)

end Criteria
