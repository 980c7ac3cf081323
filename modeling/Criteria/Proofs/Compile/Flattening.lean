import Criteria.Proofs.Compile.Places
import Criteria.Proofs.Compile.Siblings

/-! # Groups within groups
A group among the children of a node with the same combinator says nothing of its own: its children
may stand in its place. They come to stand one level higher, where whatever was accepted is accepted
again, since a limit refuses levels only from some level on. So a payload that was accepted is
accepted with the group spread out, at any nesting, and over objects its filter gives the same
answers. Only a relation must not lose all its children, because it is refused for having none.

* `Json.Flattened`: one group spread out among its siblings, at any nesting.
* `Filter.SameAnswers`: filters that give the same answers.

Main statements: `Schema.compileAs_of_higher`, what has no messages gives the same on every higher
level; `Schema.compile_of_flattened`, a payload with a group spread out is accepted and its filter
gives the same answers. -/

namespace Criteria

/-! ## Spreading a group out -/

/-- A value with **one group spread out**: in the place of a group with the combinator of the node
above it stand the children of the group. -/
inductive Json.Flattened : Json → Json → Prop where
  /-- A group among the children is spread out; some child is left, or the node is a group. -/
  | spread {v w : Json} {before items after : List Json} {c : Combinator}
      (children : v.items? "children" = some (before ++ w :: after))
      (operation : v.text? "operation" = some (Vocabulary.token c))
      (group : w.groupShape? = some (c, items))
      (others : v.isGroup ∨ before ++ items ++ after ≠ []) :
      Flattened v (v.withChildren (before ++ items ++ after))
  /-- A group is spread out within a child. -/
  | child {v w w' : Json} {before after : List Json}
      (children : v.items? "children" = some (before ++ w :: after)) (inside : Flattened w w') :
      Flattened v (v.withChildren (before ++ w' :: after))

/-! ## Higher levels -/

namespace Schema

variable {F : Type}

/-- On two levels that the limit admits, a schema takes the same step. -/
theorem step_eq_of_not_lt {s : Schema F} {v : Json} {level level' : UInt64} {role : Role F}
    (h : ¬ s.maxDepth < level) (h' : ¬ s.maxDepth < level') :
    s.step v level' role = s.step v level role := by
  cases role with
  | group =>
    rw [step, step]
    cases v.groupShape? with
    | none => rfl
    | some shape => simp only [if_neg h, if_neg h']
  | entry e =>
    cases e with
    | rule rule => rfl
    | relation name bind child =>
      rw [step, step]
      cases v.relationShape with
      | error i => rfl
      | ok shape => simp only [if_neg h, if_neg h']
  | _ => rfl

/-- Only a step that descends depends on the level if the value has no problem. -/
theorem step_eq_of_settled_nil {s : Schema F} {v : Json} {level level' : UInt64} {role : Role F}
    {f? : Option F} (h : s.step v level role = .settled f? []) :
    s.step v level' role = .settled f? [] := by
  revert h
  fun_cases step s v level role with
  | case1 | case5 | case6 => exact id
  | _ => rintro ⟨⟩

/-- Values that have no messages one by one, and give the same filters, do so together. -/
theorem gather_of_each {s : Schema F} {items : List Json} {depth depth' : UInt64}
    (each : ∀ w ∈ items, s.messagesOf w depth' = [] ∧ s.filterOf w depth' = s.filterOf w depth) :
    items.flatMap (s.messagesOf · depth') = [] ∧
      items.filterMap (s.filterOf · depth') = items.filterMap (s.filterOf · depth) :=
  ⟨List.flatMap_eq_nil_iff.2 fun w hw => (each w hw).1,
    List.filterMap_congr fun w hw => (each w hw).2⟩

/-- **What has no messages gives the same on every higher level**, where 64 bits hold the levels. -/
theorem compileAs_of_higher {s : Schema F} {role : Role F} {v : Json} {depth depth' : UInt64}
    (hfit : (Place.mk s role v).LevelsFit depth.toNat) (hle : depth' ≤ depth)
    (hclean : s.messagesAs role v depth = []) :
    s.messagesAs role v depth' = [] ∧ s.filterAs role v depth' = s.filterAs role v depth := by
  induction v using Json.treeInduction generalizing F depth depth' with
  | step v ih =>
    rw [messagesAs_eq] at hclean ⊢
    rw [filterAs_eq, filterAs_eq]
    cases hstep : s.step v (depth + 1) role with
    | settled f? problems =>
      rw [hstep] at hclean
      obtain rfl : problems = [] := List.map_eq_nil_iff.1 hclean
      rw [step_eq_of_settled_nil hstep]
      exact ⟨rfl, rfl⟩
    | descend below items bind =>
      obtain ⟨hlevel, hfits⟩ := levelsFit_of_descend hfit hstep
      have hsmall : (depth + 1).toNat < UInt64.size := (depth + 1).toNat_lt_size
      have hdepth : depth'.toNat ≤ depth.toNat := UInt64.le_iff_toNat_le.1 hle
      have hlevel' : (depth' + 1).toNat = depth'.toNat + 1 := toNat_level (by omega)
      have hhigher : depth' + 1 ≤ depth + 1 := UInt64.le_iff_toNat_le.2 (by omega)
      -- The limit admits the level of the children, and so each level above it.
      have hadmits := not_maxDepth_lt_of_descend hstep
      have hadmits' : ¬ s.maxDepth < depth' + 1 := by
        rw [UInt64.lt_iff_toNat_lt] at hadmits ⊢
        omega
      rw [step_eq_of_not_lt hadmits hadmits', hstep]
      rw [hstep] at hclean
      obtain ⟨hmessages, hfilters⟩ := gather_of_each fun w hw =>
        ih w (mem_children_of_descend hstep hw) (hfits w hw) hhigher
          (List.flatMap_eq_nil_iff.1 hclean w hw)
      exact ⟨hmessages, congrArg (fun fs => some (bind fs)) hfilters⟩

end Schema

/-! ## Steps at a value with a group spread out -/

/-- A value with a group spread out stands for what it stood for. -/
theorem Json.Flattened.roleOf_eq {F : Type} {s : Schema F} {v v' : Json} (h : v.Flattened v') :
    s.roleOf v' = s.roleOf v := by
  cases h with
  | spread => exact s.roleOf_withChildren _ _
  | child => exact s.roleOf_withChildren _ _

namespace Schema

variable {F : Type} {s : Schema F} {role : Role F} {v : Json}

/-- Where a group stands for a group, other children leave the step, but for the children, if the
value is a group or has some children before and after. -/
theorem step_withChildren_of_others {old items : List Json} (hrole : v.isGroup → role = .group)
    (h : v.items? "children" = some old) (hold : old ≠ []) (others : v.isGroup ∨ items ≠ [])
    (level : UInt64) :
    s.step (v.withChildren items) level role = (s.step v level role).withChildren items := by
  rcases others with hgroup | hne
  · rw [hrole hgroup]
    exact s.step_group_withChildren h items level
  · refine s.step_withChildren h ?_ level role
    rw [List.isEmpty_eq_false_iff.2 hne, List.isEmpty_eq_false_iff.2 hold]

/-- Another child in the place of one leaves the step, but for the children. -/
theorem step_withChildren_of_child {w w' : Json} {before after : List Json}
    (hrole : v.isGroup → role = .group)
    (h : v.items? "children" = some (before ++ w :: after)) (level : UInt64) :
    s.step (v.withChildren (before ++ [w'] ++ after)) level role =
      (s.step v level role).withChildren (before ++ [w'] ++ after) :=
  step_withChildren_of_others hrole h (by simp) (.inr (by simp)) level

/-- A group without messages is the group of what its children give **in its place**, and there are
no messages about them there. -/
theorem filterOf_of_groupShape {w : Json} {c : Combinator} {items : List Json} {depth : UInt64}
    (hshape : w.groupShape? = some (c, items)) (hfit : (Place.among s w).LevelsFit depth.toNat)
    (hclean : s.messagesOf w depth = []) :
    s.filterOf w depth = some (s.target.group c (items.filterMap (s.filterOf · depth))) ∧
      items.flatMap (s.messagesOf · depth) = [] := by
  have hrole : s.roleOf w = .group := roleOf_of_isGroup (Json.groupShape?_eq_some_iff.1 hshape).1
  have hstep : s.step w (depth + 1) (s.roleOf w) = .descend s items (s.target.group c) := by
    rw [messagesOf, messagesAs_eq, hrole, step, hshape] at hclean
    rw [hrole, step, hshape]
    by_cases hdeep : s.maxDepth < depth + 1
    · simp [hdeep, Step.messages] at hclean
    · simp only [if_neg hdeep]
  rw [messagesOf, messagesAs_eq, hstep, Step.messages, List.flatMap_eq_nil_iff] at hclean
  obtain ⟨hlevel, hfits⟩ := levelsFit_of_descend hfit hstep
  have hhigher : depth ≤ depth + 1 := UInt64.le_iff_toNat_le.2 (by omega)
  -- The children of the group come to stand where the group stood, one level higher.
  obtain ⟨hmessages, hfilters⟩ := gather_of_each fun x hx =>
    compileAs_of_higher (hfits x hx) hhigher (hclean x hx)
  refine ⟨?_, hmessages⟩
  rw [filterOf, filterAs_eq, hstep, Step.filter?, hfilters]

/-- What was accepted is accepted with a part in the place of a child if nothing is said about the
part. -/
theorem messagesAs_of_part {w : Json} {before part after : List Json} {depth : UInt64}
    (hchildren : v.items? "children" = some (before ++ w :: after))
    (hstep : s.step (v.withChildren (before ++ part ++ after)) (depth + 1) role =
      (s.step v (depth + 1) role).withChildren (before ++ part ++ after))
    (hfit : (Place.mk s role v).LevelsFit depth.toNat) (hclean : s.messagesAs role v depth = [])
    (each : ∀ {G : Type} {below : Schema G}, (Place.among below w).LevelsFit (depth + 1).toNat →
      below.messagesOf w (depth + 1) = [] → part.flatMap (below.messagesOf · (depth + 1)) = []) :
    s.messagesAs role (v.withChildren (before ++ part ++ after)) depth = [] := by
  rw [messagesAs_eq] at hclean ⊢
  rw [hstep]
  cases hdescend : s.step v (depth + 1) role with
  | settled f? problems => rwa [hdescend] at hclean
  | descend below old bind =>
    obtain rfl := Option.some.inj (hchildren.symm.trans (items_of_descend hdescend))
    rw [hdescend, Step.messages, List.flatMap_append, List.flatMap_cons, List.append_eq_nil_iff,
      List.append_eq_nil_iff] at hclean
    -- Nothing is said about any of the children, so only the part is left to look at.
    obtain ⟨hbefore, hw, hafter⟩ := hclean
    have hpart := each ((levelsFit_of_descend hfit hdescend).2 w (by simp)) hw
    rw [Step.withChildren, Step.messages, List.flatMap_append, List.flatMap_append, hbefore, hpart,
      hafter]
    rfl

/-- **What was accepted is accepted with a group spread out**. -/
theorem messagesAs_of_flattened {v' : Json} {depth : UInt64} (h : v.Flattened v')
    (hrole : v.isGroup → role = .group) (hfit : (Place.mk s role v).LevelsFit depth.toNat)
    (hclean : s.messagesAs role v depth = []) : s.messagesAs role v' depth = [] := by
  induction h generalizing F depth with
  | spread children operation group others =>
    have hstep := step_withChildren_of_others (s := s) hrole children (by simp) others (depth + 1)
    exact messagesAs_of_part children hstep hfit hclean fun hfit hw =>
      (filterOf_of_groupShape group hfit hw).2
  | @child v w w' before after children inside ih =>
    rw [List.append_cons]
    refine messagesAs_of_part children (step_withChildren_of_child hrole children _) hfit hclean
      fun {G below} hfit hw => ?_
    rw [List.flatMap_singleton, messagesOf, inside.roleOf_eq]
    exact ih roleOf_of_isGroup hfit hw

end Schema

/-! ## The same answers -/

namespace Filter

variable {α β : Type}

/-- Filters that give the **same answers**. -/
def SameAnswers (f g : Filter α) : Prop := ∀ x, f.adheres x = g.adheres x

/-- A filter, if there is one, gives the same answers as itself. -/
theorem SameAnswers.rel_refl (f? : Option (Filter α)) : Option.Rel SameAnswers f? f? := by
  cases f? with
  | none => exact .none
  | some f => exact .some fun _ => rfl

/-- A group among filters that are joined by its combinator counts as its children do. -/
theorem join_group (c : Combinator) (fs : List (Filter α)) (x : α) :
    c.join (·.adheres x) [group c fs] = c.join (·.adheres x) fs := by
  rw [Combinator.join_singleton, adheres_group]

/-- Groups give the same answers if their children do when they are joined. -/
theorem sameAnswers_group {c : Combinator} {fs gs : List (Filter α)}
    (h : ∀ x, c.join (·.adheres x) fs = c.join (·.adheres x) gs) :
    (group c fs).SameAnswers (group c gs) := by
  intro x
  rw [adheres_group, adheres_group, h]

/-- Relations give the same answers if their children do when they are joined. -/
theorem sameAnswers_relate {c : Combinator} {fs gs : List (Filter β)} (related : α → List β)
    (h : ∀ y, c.join (·.adheres y) fs = c.join (·.adheres y) gs) :
    (relate related c fs).SameAnswers (relate related c gs) := by
  intro x
  rw [adheres_relate, adheres_relate]
  exact List.any_congr rfl (sameAnswers_group h)

end Filter

namespace Schema

variable {α : Type} {p : ⦃α : Type⦄ → Rule (Filter α) → Prop} {s : Schema (Filter α)}
  {role : Role (Filter α)} {v : Json}

/-- Over objects, a value gives the same answers with a part in the place of a child if the part
gives the answers of the child, joined as the children of the value are. -/
theorem sameAnswers_of_part {w : Json} {before part after : List Json} {depth : UInt64}
    (hs : s.OverObjects p) (hobjects : role.OverObjects p)
    (hchildren : v.items? "children" = some (before ++ w :: after))
    (hstep : s.step (v.withChildren (before ++ part ++ after)) (depth + 1) role =
      (s.step v (depth + 1) role).withChildren (before ++ part ++ after))
    (hfit : (Place.mk s role v).LevelsFit depth.toNat) (hclean : s.messagesAs role v depth = [])
    (each : ∀ {β : Type} {below : Schema (Filter β)} {c : Combinator}, below.OverObjects p →
      v.text? "operation" = some (Vocabulary.token c) →
      (Place.among below w).LevelsFit (depth + 1).toNat → below.messagesOf w (depth + 1) = [] →
      ∀ y, c.join (·.adheres y) ([w].filterMap (below.filterOf · (depth + 1))) =
        c.join (·.adheres y) (part.filterMap (below.filterOf · (depth + 1)))) :
    Option.Rel Filter.SameAnswers (s.filterAs role v depth)
      (s.filterAs role (v.withChildren (before ++ part ++ after)) depth) := by
  -- Whatever the children are joined to, the part stands for the child among them.
  have hjoin {β : Type} {below : Schema (Filter β)} {bind : List (Filter β) → Filter α}
      {c : Combinator} (hbelow : below.OverObjects p)
      (hword : v.text? "operation" = some (Vocabulary.token c))
      (hdescend : s.step v (depth + 1) role = .descend below (before ++ w :: after) bind) (y : β) :
      c.join (·.adheres y) ((before ++ w :: after).filterMap (below.filterOf · (depth + 1))) =
        c.join (·.adheres y)
          ((before ++ part ++ after).filterMap (below.filterOf · (depth + 1))) := by
    rw [messagesAs_eq, hdescend, Step.messages, List.flatMap_eq_nil_iff] at hclean
    have hpart := each hbelow hword ((levelsFit_of_descend hfit hdescend).2 w (by simp))
      (hclean w (by simp)) y
    simp only [List.append_cons before w after, List.filterMap_append]
    exact Combinator.join_splice hpart _ _
  rw [filterAs_eq, filterAs_eq, hstep]
  revert hjoin
  fun_cases step s v (depth + 1) role with
  | case4 c items hshape hlevel =>
    intro hjoin
    obtain ⟨-, hword, hitems⟩ := Json.groupShape?_eq_some_iff.1 hshape
    obtain rfl := Option.some.inj (hchildren.symm.trans hitems)
    have hsame := Filter.sameAnswers_group (hjoin hs hword rfl)
    rw [hs.group_eq]
    exact .some hsame
  | case9 name G bind child c items hshape hlevel =>
    intro hjoin
    obtain ⟨hword, hitems, -⟩ := Json.relationShape_eq_ok_iff.1 hshape
    obtain rfl := Option.some.inj (hchildren.symm.trans hitems)
    cases hobjects _ rfl with
    | relation below => exact .some (Filter.sameAnswers_relate _ (hjoin below hword rfl))
  | _ => exact fun _ => Filter.SameAnswers.rel_refl _

/-- **Over objects, the answers stay the same with a group spread out**. -/
theorem filterAs_of_flattened {v' : Json} {depth : UInt64} (h : v.Flattened v')
    (hs : s.OverObjects p) (hobjects : role.OverObjects p) (hrole : v.isGroup → role = .group)
    (hfit : (Place.mk s role v).LevelsFit depth.toNat) (hclean : s.messagesAs role v depth = []) :
    Option.Rel Filter.SameAnswers (s.filterAs role v depth) (s.filterAs role v' depth) := by
  induction h generalizing α depth with
  | @spread v w before items after c children operation group others =>
    -- The group that is spread out joins its children as the value joins them now.
    have hstep := step_withChildren_of_others (s := s) hrole children (by simp) others (depth + 1)
    refine sameAnswers_of_part hs hobjects children hstep hfit hclean
      fun {β below c'} hbelow hword hfit hw y => ?_
    obtain rfl : c = c' := Vocabulary.token_inj (Option.some.inj (operation.symm.trans hword))
    rw [List.filterMap_cons, (filterOf_of_groupShape group hfit hw).1, hbelow.group_eq]
    exact Filter.join_group c _ y
  | @child v w w' before after children inside ih =>
    -- The part is the one child, which gives the same answers by induction.
    rw [List.append_cons]
    refine sameAnswers_of_part hs hobjects children (step_withChildren_of_child hrole children _)
      hfit hclean fun {β below c} hbelow _ hfit hw y => ?_
    have hrel := ih hbelow (hbelow.roleOf w) roleOf_of_isGroup hfit hw
    rw [List.filterMap_cons, List.filterMap_cons, filterOf, filterOf, inside.roleOf_eq]
    generalize below.filterAs (below.roleOf w) w (depth + 1) = f? at hrel ⊢
    generalize below.filterAs (below.roleOf w) w' (depth + 1) = g? at hrel ⊢
    cases hrel with
    | none => rfl
    | some hsame => simp [hsame y]

/-- **A group within a group says nothing of its own**. A payload of which 64 bits hold the levels,
and that a schema accepts, is accepted with a group spread out; and if the schema is over objects,
the two filters give the same answers. -/
theorem compile_of_flattened {payload payload' : Json} (h : payload.Flattened payload') :
    (∀ {F : Type} (s : Schema F) f, (Place.root s payload).LevelsFit 0 →
      s.compile payload = .ok f → ∃ f', s.compile payload' = .ok f') ∧
    ∀ {α : Type} {p : ⦃α : Type⦄ → Rule (Filter α) → Prop} (s : Schema (Filter α)) f,
      s.OverObjects p → (Place.root s payload).LevelsFit 0 → s.compile payload = .ok f →
        ∃ f', s.compile payload' = .ok f' ∧ ∀ x, f'.adheres x = f.adheres x := by
  have haccepted {F : Type} {s : Schema F} {f : F} (hfit : (Place.root s payload).LevelsFit 0)
      (hf : s.compile payload = .ok f) : ∃ f', s.compile payload' = .ok f' := by
    rw [exists_compile_eq_ok_iff]
    exact messagesAs_of_flattened h (fun _ => rfl) hfit (compile_eq_ok_iff.1 hf).1
  refine ⟨fun s f => haccepted, fun s f hs hfit hf => ?_⟩
  obtain ⟨f', hf'⟩ := haccepted hfit hf
  obtain ⟨hclean, hfilter⟩ := compile_eq_ok_iff.1 hf
  have hrel : Option.Rel Filter.SameAnswers (s.filterAs .group payload 0)
      (s.filterAs .group payload' 0) :=
    filterAs_of_flattened h hs Role.overObjects_group (fun _ => rfl) hfit hclean
  rw [hfilter, (compile_eq_ok_iff.1 hf').2] at hrel
  cases hrel with
  | some hsame => exact ⟨f', hf', fun x => (hsame x).symm⟩

end Schema

/-! ## Pets within a group -/

/-- Owners of a cat, or of a dog or a bird, with the last two in a group of their own. -/
def Json.ownersOfCatOrOthers : Json :=
  groupNode .and [relationNode "pets" .or [ruleNode "species" .equals (.string "cat"),
    groupNode .or [ruleNode "species" .equals (.string "dog"),
      ruleNode "species" .equals (.string "bird")]]]

/-- Owners of a cat, a dog or a bird. -/
def Json.ownersOfCatDogOrBird : Json :=
  groupNode .and [relationNode "pets" .or [ruleNode "species" .equals (.string "cat"),
    ruleNode "species" .equals (.string "dog"), ruleNode "species" .equals (.string "bird")]]

/-- The nested choice of species is spread out, below the relation to pets. -/
theorem Json.flattened_ownersOfCatOrOthers :
    ownersOfCatOrOthers.Flattened ownersOfCatDogOrBird := by
  have hpets : Flattened (relationNode "pets" .or [ruleNode "species" .equals (.string "cat"),
      groupNode .or [ruleNode "species" .equals (.string "dog"),
        ruleNode "species" .equals (.string "bird")]]) _ :=
    @Flattened.spread _ _ [_] [_, _] [] .or rfl rfl rfl (.inr (by simp))
  exact @Flattened.child ownersOfCatOrOthers _ _ [] [] rfl hpets

/-- Owners of a cat, a dog or a bird are the same owners with the choice of species spread out. -/
theorem Schema.compile_ownersOfCatOrOthers :
    ∃ s f f', Declaration.owners.schema = .ok s ∧ s.OverObjects Rule.ReadsField ∧
      Json.ownersOfCatOrOthers.Flattened .ownersOfCatDogOrBird ∧
      (Place.root s .ownersOfCatOrOthers).LevelsFit 0 ∧
      s.compile .ownersOfCatOrOthers = .ok f ∧ s.compile .ownersOfCatDogOrBird = .ok f' ∧
      ∀ x, f'.adheres x = f.adheres x := by
  have hs := @Declaration.overObjects_of_schema .owners _ rfl
  have hflattened := Json.flattened_ownersOfCatOrOthers
  have hnesting : 0 + Json.ownersOfCatOrOthers.nesting + 1 < UInt64.size := by decide
  have hfit {s : Schema (Filter Record)} : (Place.root s .ownersOfCatOrOthers).LevelsFit 0 :=
    Place.levelsFit_of_nesting hnesting
  obtain ⟨f', hf', hanswers⟩ := (compile_of_flattened hflattened).2 _ _ hs hfit rfl
  exact ⟨_, _, f', rfl, hs, hflattened, hfit, rfl, hf', hanswers⟩

end Criteria
