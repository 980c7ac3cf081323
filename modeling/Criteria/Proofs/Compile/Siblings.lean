import Criteria.Proofs.Compile.Objects
import Mathlib.Data.List.Perm.Basic

/-! # Siblings
What stands beside a node has no influence on it. A list of children is compiled part by part, and
what was reported before only stays in front. So the order among siblings decides about the order of
filters and messages alone: a payload whose children are permuted, at any nesting, is accepted or
refused alike, with the same messages in another order, and where filters are over objects the two
filters are of one depth and give the same answers.

* `Json.withChildren`: a value with other children; `Schema.step_withChildren`: the step at it.
* `Json.Reordered`: the children permuted, of any number of nodes at any nesting.
* `Filter.Alike`: filters of one depth that give the same answers.

Main statements: `Schema.compile_part_by_part`, a list is compiled part by part, behind an unchanged
report; `Schema.compile_of_reordered`, what the order of children leaves unchanged. -/

namespace Criteria

/-! ## Part by part -/

namespace Schema

variable {F : Type}

/-- The filters of a list of children and its messages, from a run of its own. -/
theorem compileChildren_empty (s : Schema F) (items : List Json) (depth : UInt64) :
    s.compileChildren items depth .empty =
      (items.filterMap (s.filterOf · depth), .ofList (items.flatMap (s.messagesOf · depth))) := by
  rw [compileChildren_eq]
  rfl

/-- Compiling in a role, from what a run of its own gives. -/
theorem compileAs_eq_extend (s : Schema F) (role : Role F) (v : Json) (depth : UInt64)
    (r : Report) :
    s.compileAs role (.ofJson v) depth r =
      ((s.compileAs role (.ofJson v) depth .empty).1,
        r.extend (s.compileAs role (.ofJson v) depth .empty).2.toList) :=
  s.compileAs_eq role v depth r

/-- **Part by part**. Two lists of children, one after the other, give the filters of the first and
then those of the second, and append the messages of the first and then those of the second, each as
in a run of its own; and a group or an entry gives what it gives in a run of its own, and appends
what it reports there. What was reported before stays as it was. -/
theorem compile_part_by_part (s : Schema F) (depth : UInt64) (r : Report) :
    (∀ xs ys,
      (s.compileChildren (xs ++ ys) depth r).1 =
        (s.compileChildren xs depth .empty).1 ++ (s.compileChildren ys depth .empty).1 ∧
      (s.compileChildren (xs ++ ys) depth r).2.toList =
        r.toList ++ (s.compileChildren xs depth .empty).2.toList ++
          (s.compileChildren ys depth .empty).2.toList) ∧
    (∀ payload,
      (s.compileGroup payload depth r).1 = (s.compileGroup payload depth .empty).1 ∧
      (s.compileGroup payload depth r).2.toList =
        r.toList ++ (s.compileGroup payload depth .empty).2.toList) ∧
    ∀ e payload,
      (s.compileEntry e payload depth r).1 = (s.compileEntry e payload depth .empty).1 ∧
      (s.compileEntry e payload depth r).2.toList =
        r.toList ++ (s.compileEntry e payload depth .empty).2.toList := by
  refine ⟨fun xs ys => ?_, fun payload => ?_, fun e payload => ?_⟩
  · rw [compileChildren_eq, compileChildren_empty, compileChildren_empty]
    constructor
    · exact List.filterMap_append
    · rw [Report.toList_extend, List.flatMap_append, ← List.append_assoc]
      rfl
  · unfold compileGroup
    rw [s.compileAs_eq_extend .group payload depth r]
    exact ⟨rfl, rfl⟩
  · unfold compileEntry
    rw [s.compileAs_eq_extend (.entry e) payload depth r]
    exact ⟨rfl, rfl⟩

end Schema

/-! ## Other children -/

namespace Json

/-- The value with **other children**: where there is an object with a member for children, the
given items stand in it. -/
def withChildren (v : Json) (items : List Json) : Json :=
  match v with
  | object members =>
    object (members.map fun m => if m.1 = "children" then (m.1, array items) else m)
  | _ => v

/-- Other children are under the key for children, and all other keys keep what they have. -/
theorem member?_withChildren (key : String) (v : Json) (items : List Json) :
    (v.withChildren items).member? key =
      (v.member? key).map fun w => if key = "children" then array items else w := by
  cases v with
  | object members =>
    rw [withChildren, member?_object, member?_object]
    induction members with
    | nil => rfl
    | cons m members ih =>
      obtain ⟨name, w⟩ := m
      rw [List.map_cons, List.lookup_cons, List.lookup_cons, apply_ite Prod.fst, ite_self, ih]
      by_cases hname : key = name
      · subst hname
        by_cases hkey : key = "children" <;> simp [hkey]
      · rw [beq_eq_false_iff_ne.2 hname]
  | _ => rfl

/-- Other children leave what is under any other key. -/
theorem member?_withChildren_of_ne {key : String} (h : key ≠ "children") (v : Json)
    (items : List Json) : (v.withChildren items).member? key = v.member? key := by
  simp [member?_withChildren, h]

/-- Other children leave the text under any other key. -/
theorem text?_withChildren {key : String} (h : key ≠ "children") (v : Json) (items : List Json) :
    (v.withChildren items).text? key = v.text? key :=
  text?_congr (member?_withChildren_of_ne h v items)

/-- Other children neither make a group nor unmake one. -/
@[simp] theorem isGroup_withChildren (v : Json) (items : List Json) :
    (v.withChildren items).isGroup = v.isGroup :=
  isGroup_congr (member?_withChildren_of_ne (by decide) v items)

/-- Where there are children, other children take their place. -/
theorem items?_withChildren {v : Json} {old : List Json} (h : v.items? "children" = some old)
    (items : List Json) : (v.withChildren items).items? "children" = some items := by
  rw [items?_eq_some_iff] at h ⊢
  simp [member?_withChildren, h]

/-- Other children leave the shape of a group, but for the children. -/
theorem groupShape?_withChildren {v : Json} {old : List Json} (h : v.items? "children" = some old)
    (items : List Json) :
    (v.withChildren items).groupShape? = v.groupShape?.map fun shape => (shape.1, items) := by
  rw [groupShape?, groupShape?, text?_withChildren (by decide), items?_withChildren h, h,
    isGroup_withChildren]
  cases ((v.text? "operation").bind Vocabulary.parse? : Option Combinator) with
  | none => rfl
  | some c => cases v.isGroup <;> rfl

/-- Other children leave the shape of a relation, but for the children, if there are some before and
after or neither before nor after. -/
theorem relationShape_withChildren {v : Json} {old items : List Json}
    (h : v.items? "children" = some old) (hempty : items.isEmpty = old.isEmpty) :
    (v.withChildren items).relationShape = v.relationShape.map fun shape => (shape.1, items) := by
  rw [relationShape, relationShape, text?_withChildren (by decide), items?_withChildren h, h]
  cases v.text? "operation" with
  | none => rfl
  | some word =>
    cases hc : (Vocabulary.parse? word : Option Combinator) with
    | none => simp [hc, Except.map]
    | some c =>
      simp only [hc, hempty]
      cases old.isEmpty <;> rfl

end Json

namespace Rule

variable {F : Type}

/-- A rule does not look at the children for its filter. -/
theorem filter?_withChildren (rule : Rule F) (v : Json) (items : List Json) :
    rule.filter? (v.withChildren items) = rule.filter? v :=
  filter?_congr_value (Json.text?_withChildren (by decide) v items)
    (Json.member?_withChildren_of_ne (by decide) v items)

/-- A rule does not look at the children for its problems. -/
theorem problems_withChildren (rule : Rule F) (v : Json) (items : List Json) :
    rule.problems (v.withChildren items) = rule.problems v :=
  problems_congr_value (Json.text?_withChildren (by decide) v items)
    (Json.member?_withChildren_of_ne (by decide) v items)

end Rule

/-- The step with **other children** to descend to. -/
def Step.withChildren {F : Type} (items : List Json) : Step F → Step F
  | settled f? problems => settled f? problems
  | descend below _ bind => descend below items bind

namespace Schema

variable {F : Type}

/-- With other children a value stands for the same. -/
@[simp] theorem roleOf_withChildren (s : Schema F) (v : Json) (items : List Json) :
    s.roleOf (v.withChildren items) = s.roleOf v :=
  s.roleOf_congr (v.isGroup_withChildren items) fun _ => Json.text?_withChildren (by decide) v items

/-- At a group, the step at the value with other children is the same step, but for the children. -/
theorem step_group_withChildren (s : Schema F) {v : Json} {old : List Json}
    (h : v.items? "children" = some old) (items : List Json) (level : UInt64) :
    s.step (v.withChildren items) level .group = (s.step v level .group).withChildren items := by
  rw [step, step, Json.groupShape?_withChildren h]
  cases v.groupShape? with
  | none => rfl
  | some shape =>
    by_cases hlevel : s.maxDepth < level
    · simp [hlevel, Step.withChildren]
    · simp [hlevel, Step.withChildren]

/-- The step at a value with other children is the same step, but for the children. -/
theorem step_withChildren (s : Schema F) {v : Json} {old items : List Json}
    (h : v.items? "children" = some old) (hempty : items.isEmpty = old.isEmpty) (level : UInt64)
    (role : Role F) :
    s.step (v.withChildren items) level role = (s.step v level role).withChildren items := by
  cases role with
  | ignored => rfl
  | group => exact s.step_group_withChildren h items level
  | unregistered name => rfl
  | entry e =>
    cases e with
    | rule rule =>
      rw [step, step, rule.filter?_withChildren, rule.problems_withChildren, Step.withChildren]
    -- Only a relation asks whether there are children, so the lists have to be empty together.
    | relation name bind child =>
      rw [step, step, Json.relationShape_withChildren h hempty]
      cases v.relationShape with
      | error i => rfl
      | ok shape =>
        by_cases hlevel : s.maxDepth < level
        · simp [hlevel, Step.withChildren, Except.map]
        · simp [hlevel, Step.withChildren, Except.map]

/-- With other children a value gives **the same** as before if they give the same as its own. -/
theorem compileAs_withChildren {s : Schema F} {role : Role F} {v : Json} {old items : List Json}
    {depth : UInt64} (h : v.items? "children" = some old)
    (hstep : s.step (v.withChildren items) (depth + 1) role =
      (s.step v (depth + 1) role).withChildren items)
    (each : ∀ {G : Type} {below : Schema G} {bind : List G → F},
      s.step v (depth + 1) role = .descend below old bind →
        items.filterMap (below.filterOf · (depth + 1)) =
            old.filterMap (below.filterOf · (depth + 1)) ∧
          items.flatMap (below.messagesOf · (depth + 1)) =
            old.flatMap (below.messagesOf · (depth + 1))) :
    s.filterAs role (v.withChildren items) depth = s.filterAs role v depth ∧
      s.messagesAs role (v.withChildren items) depth = s.messagesAs role v depth := by
  rw [filterAs_eq, filterAs_eq, messagesAs_eq, messagesAs_eq, hstep]
  cases hdescend : s.step v (depth + 1) role with
  | settled f? problems => exact ⟨rfl, rfl⟩
  | descend below items' bind =>
    obtain rfl : old = items' := Option.some.inj (h.symm.trans (items_of_descend hdescend))
    obtain ⟨hfilters, hmessages⟩ := each hdescend
    exact ⟨congrArg (fun fs => some (bind fs)) hfilters, hmessages⟩

end Schema

/-! ## Children in another order -/

/-- A value **reordered**: the children are permuted, of any number of nodes at any nesting. Each
pair is a child and what becomes of it, and the pairs stand in the new order. -/
inductive Json.Reordered : Json → Json → Prop where
  /-- Nothing is permuted. -/
  | refl (v : Json) : Reordered v v
  /-- The children are permuted, and each of them is reordered. -/
  | children {v : Json} {items : List Json} {pairs : List (Json × Json)}
      (children : v.items? "children" = some items) (permuted : (pairs.map Prod.fst).Perm items)
      (each : ∀ p ∈ pairs, Reordered p.1 p.2) : Reordered v (v.withChildren (pairs.map Prod.snd))

namespace Schema

variable {F : Type} {s : Schema F} {v v' : Json}

/-- A reordered value stands for what it stood for. -/
theorem roleOf_of_reordered (h : v.Reordered v') (s : Schema F) : s.roleOf v' = s.roleOf v := by
  cases h with
  | refl => rfl
  | children => exact s.roleOf_withChildren v _

/-- The step at a reordered value: the same, or one to the permuted and reordered children. -/
theorem step_of_reordered (h : v.Reordered v') (s : Schema F) (level : UInt64) (role : Role F) :
    s.step v' level role = s.step v level role ∨
      ∃ (items : List Json) (pairs : List (Json × Json)), v.items? "children" = some items ∧
        (pairs.map Prod.fst).Perm items ∧ (∀ p ∈ pairs, p.1.Reordered p.2) ∧
        s.step v' level role = (s.step v level role).withChildren (pairs.map Prod.snd) := by
  cases h with
  | refl => exact .inl rfl
  | @children _ items pairs hitems permuted each =>
    have hlength : (pairs.map Prod.snd).length = items.length := by
      rw [← permuted.length_eq, List.length_map, List.length_map]
    have hempty : (pairs.map Prod.snd).isEmpty = items.isEmpty := by
      rw [Bool.eq_iff_iff, List.isEmpty_iff_length_eq_zero, List.isEmpty_iff_length_eq_zero,
        hlength]
    exact .inr ⟨items, pairs, hitems, permuted, each, s.step_withChildren hitems hempty level role⟩

/-- The messages about a reordered value are the same in **another order**. -/
theorem messagesAs_perm (h : v.Reordered v') (s : Schema F) (role : Role F) (depth : UInt64) :
    (s.messagesAs role v depth).Perm (s.messagesAs role v' depth) := by
  induction v using Json.treeInduction generalizing F v' depth with
  | step v ih =>
    rw [messagesAs_eq, messagesAs_eq]
    obtain hsame | ⟨items, pairs, hitems, permuted, each, hstep'⟩ :=
      step_of_reordered h s (depth + 1) role
    · rw [hsame]
    rw [hstep']
    cases hstep : s.step v (depth + 1) role with
    | settled f? problems => exact .refl _
    | descend below items' bind =>
      obtain rfl : items = items' := Option.some.inj (hitems.symm.trans (items_of_descend hstep))
      -- Each pair has the same messages up to order, and the pairs have those of the children.
      have hpair : ∀ p ∈ pairs, (below.messagesOf p.1 (depth + 1)).Perm
          (below.messagesOf p.2 (depth + 1)) := by
        intro p hp
        have hmem : p.1 ∈ items := permuted.mem_iff.1 (List.mem_map_of_mem hp)
        unfold messagesOf
        rw [roleOf_of_reordered (each p hp)]
        exact ih p.1 (mem_children_of_descend hstep hmem) (each p hp) below _ _
      have hbefore := permuted.flatMap_right (below.messagesOf · (depth + 1))
      have hafter : ((pairs.map Prod.fst).flatMap (below.messagesOf · (depth + 1))).Perm
          ((pairs.map Prod.snd).flatMap (below.messagesOf · (depth + 1))) := by
        rw [List.flatMap_map, List.flatMap_map]
        exact List.Perm.flatMap_left pairs hpair
      exact hbefore.symm.trans hafter

/-- A reordered value gives a filter exactly if the value did. -/
theorem isSome_filterAs (h : v.Reordered v') (s : Schema F) (role : Role F) (depth : UInt64) :
    (s.filterAs role v depth).isSome = (s.filterAs role v' depth).isSome := by
  rw [filterAs_eq, filterAs_eq]
  obtain hsame | ⟨items, pairs, hitems, permuted, each, hstep'⟩ :=
    step_of_reordered h s (depth + 1) role
  · rw [hsame]
  · rw [hstep']
    cases s.step v (depth + 1) role <;> rfl

end Schema

/-! ## Filters that give the same answers -/

namespace Filter

variable {α β : Type}

/-- Filters that are **alike**: they have one depth and give the same answers. -/
def Alike (f g : Filter α) : Prop := f.depth = g.depth ∧ ∀ x, f.adheres x = g.adheres x

/-- Lists of filters that are alike **as sets**: each filter of one has one alike in the other. -/
def AllAlike (fs gs : List (Filter α)) : Prop :=
  (∀ f ∈ fs, ∃ g ∈ gs, f.Alike g) ∧ ∀ g ∈ gs, ∃ f ∈ fs, f.Alike g

/-- A filter is alike to itself. -/
theorem Alike.refl (f : Filter α) : f.Alike f := ⟨rfl, fun _ => rfl⟩

/-- The greatest depth is bounded by what bounds the depth of every filter. -/
theorem greatestDepth_le_iff {fs : List (Filter α)} {n : Nat} :
    greatestDepth fs ≤ n ↔ ∀ f ∈ fs, f.depth ≤ n := by
  induction fs with
  | nil => simp [greatestDepth]
  | cons f fs ih => rw [greatestDepth, Nat.max_le, ih, List.forall_mem_cons]

/-- No filter of a list is deeper than the deepest. -/
theorem depth_le_greatestDepth {fs : List (Filter α)} {f : Filter α} (h : f ∈ fs) :
    f.depth ≤ greatestDepth fs :=
  greatestDepth_le_iff.1 (Nat.le_refl _) f h

/-- Lists that are alike as sets have the same greatest depth. -/
theorem AllAlike.greatestDepth_eq {fs gs : List (Filter α)} (h : AllAlike fs gs) :
    greatestDepth fs = greatestDepth gs := by
  apply Nat.le_antisymm
  · rw [greatestDepth_le_iff]
    intro f hf
    obtain ⟨g, hg, hdepth, -⟩ := h.1 f hf
    exact hdepth ▸ depth_le_greatestDepth hg
  · rw [greatestDepth_le_iff]
    intro g hg
    obtain ⟨f, hf, hdepth, -⟩ := h.2 g hg
    exact hdepth ▸ depth_le_greatestDepth hf

/-- Lists that are alike as sets give the same answer, joined by either combinator. -/
theorem AllAlike.join_eq {fs gs : List (Filter α)} (h : AllAlike fs gs) (c : Combinator) (x : α) :
    c.join (·.adheres x) fs = c.join (·.adheres x) gs := by
  rw [Bool.eq_iff_iff]
  cases c with
  | and =>
    rw [Combinator.join_and, Combinator.join_and, List.all_eq_true, List.all_eq_true]
    constructor
    · intro hall g hg
      obtain ⟨f, hf, -, hanswer⟩ := h.2 g hg
      exact hanswer x ▸ hall f hf
    · intro hall f hf
      obtain ⟨g, hg, -, hanswer⟩ := h.1 f hf
      exact (hanswer x).symm ▸ hall g hg
  | or =>
    rw [Combinator.join_or, Combinator.join_or, List.any_eq_true, List.any_eq_true]
    constructor
    · rintro ⟨f, hf, hpass⟩
      obtain ⟨g, hg, -, hanswer⟩ := h.1 f hf
      exact ⟨g, hg, hanswer x ▸ hpass⟩
    · rintro ⟨g, hg, hpass⟩
      obtain ⟨f, hf, -, hanswer⟩ := h.2 g hg
      exact ⟨f, hf, (hanswer x).symm ▸ hpass⟩

/-- Groups are alike if their children are. -/
theorem AllAlike.group {fs gs : List (Filter α)} (h : AllAlike fs gs) (c : Combinator) :
    (group c fs).Alike (group c gs) := by
  constructor
  · rw [depth, depth, h.greatestDepth_eq]
  · intro x
    rw [adheres_group, adheres_group, h.join_eq]

/-- Relations are alike if their children are. -/
theorem AllAlike.relate {fs gs : List (Filter β)} (h : AllAlike fs gs) (related : α → List β)
    (c : Combinator) : (relate related c fs).Alike (relate related c gs) := by
  obtain ⟨hdepth, hanswer⟩ := h.group c
  constructor
  · rw [depth_relate, depth_relate, hdepth]
  · intro x
    rw [adheres_relate, adheres_relate]
    exact List.any_congr rfl hanswer

/-- Filters of pairs that are alike, one by one, are alike when the pairs are permuted. -/
theorem allAlike_of_pairs {pairs : List (Json × Json)} {items : List Json}
    {filter? : Json → Option (Filter α)} (permuted : (pairs.map Prod.fst).Perm items)
    (each : ∀ p ∈ pairs, Option.Rel Alike (filter? p.1) (filter? p.2)) :
    AllAlike (items.filterMap filter?) ((pairs.map Prod.snd).filterMap filter?) := by
  -- A filter of either list belongs to one half of a pair, and the other half gives one alike.
  constructor
  · intro f hf
    obtain ⟨v, hv, hfilter⟩ := List.mem_filterMap.1 hf
    obtain ⟨p, hp, rfl⟩ := List.mem_map.1 (permuted.mem_iff.2 hv)
    have hrel := each p hp
    rw [hfilter] at hrel
    generalize hother : filter? p.2 = g? at hrel
    cases hrel with
    | @some _ g halike =>
      exact ⟨g, List.mem_filterMap.2 ⟨p.2, List.mem_map_of_mem hp, hother⟩, halike⟩
  · intro g hg
    obtain ⟨v, hv, hfilter⟩ := List.mem_filterMap.1 hg
    obtain ⟨p, hp, rfl⟩ := List.mem_map.1 hv
    have hrel := each p hp
    rw [hfilter] at hrel
    generalize hother : filter? p.1 = f? at hrel
    cases hrel with
    | @some f _ halike =>
      have hmem : p.1 ∈ items := permuted.mem_iff.1 (List.mem_map_of_mem hp)
      exact ⟨f, List.mem_filterMap.2 ⟨p.1, hmem, hother⟩, halike⟩

end Filter

/-! ## What the order of children leaves unchanged -/

namespace Schema

/-- Over objects, a reordered value gives a filter **alike**, or none as before. -/
theorem filterAs_alike {α : Type} {p : ⦃α : Type⦄ → Rule (Filter α) → Prop}
    {s : Schema (Filter α)} {v v' : Json} (h : v.Reordered v') (hs : s.OverObjects p)
    {role : Role (Filter α)} (hrole : role.OverObjects p) (depth : UInt64) :
    Option.Rel Filter.Alike (s.filterAs role v depth) (s.filterAs role v' depth) := by
  -- Below a relation the objects are others, and so is the schema.
  induction v using Json.treeInduction generalizing α v' depth with
  | step v ih =>
    have hunchanged (f? : Option (Filter α)) : Option.Rel Filter.Alike f? f? := by
      cases f? with
      | none => exact .none
      | some f => exact .some (.refl f)
    rw [filterAs_eq, filterAs_eq]
    obtain hsame | ⟨items, pairs, hitems, permuted, each, hstep'⟩ :=
      step_of_reordered h s (depth + 1) role
    · rw [hsame]
      exact hunchanged _
    have hpairs {β : Type} {below : Schema (Filter β)} (hbelow : below.OverObjects p) :
        Filter.AllAlike (items.filterMap (below.filterOf · (depth + 1)))
          ((pairs.map Prod.snd).filterMap (below.filterOf · (depth + 1))) := by
      apply Filter.allAlike_of_pairs permuted
      intro q hq
      have hmem : q.1 ∈ items := permuted.mem_iff.1 (List.mem_map_of_mem hq)
      unfold filterOf
      rw [roleOf_of_reordered (each q hq)]
      exact ih q.1 (Json.children_of_items hitems ▸ hmem) (each q hq) hbelow (hbelow.roleOf _) _
    rw [hstep']
    generalize hstep : s.step v (depth + 1) role = step
    cases hstep ▸ hs.step hrole v (depth + 1) with
    | settled => exact hunchanged _
    | @group below items' c hbelow =>
      obtain rfl : items = items' := Option.some.inj (hitems.symm.trans (items_of_descend hstep))
      exact .some ((hpairs hbelow).group c)
    | @relate β child items' c related hbelow =>
      obtain rfl : items = items' := Option.some.inj (hitems.symm.trans (items_of_descend hstep))
      exact .some ((hpairs hbelow).relate related c)

/-- A payload is accepted exactly if there is no message about it. -/
theorem exists_compile_eq_ok_iff {F : Type} {s : Schema F} {payload : Json} :
    (∃ f, s.compile payload = .ok f) ↔ s.messagesAs .group payload 0 = [] := by
  constructor
  · rintro ⟨f, hf⟩
    exact (compile_eq_ok_iff.1 hf).1
  · intro hmessages
    cases hfilter : s.filterAs .group payload 0 with
    | none => exact absurd hmessages (messagesAs_ne_nil_of_filterAs_eq_none (by simp) hfilter)
    | some f => exact ⟨f, compile_eq_ok_iff.2 ⟨hmessages, hfilter⟩⟩

/-- **The order of children does not matter**. Under every schema a payload and a reordered one both
give a filter or neither does, the messages are the same in another order, and both are accepted or
neither is; and if the schema is over objects the two filters have one depth and give the same
answers, whether or not there are messages. -/
theorem compile_of_reordered {payload payload' : Json} (h : payload.Reordered payload') :
    (∀ {F : Type} (s : Schema F),
      (∀ depth r, (s.compileGroup payload depth r).1.isSome =
          (s.compileGroup payload' depth r).1.isSome ∧
        (s.compileGroup payload depth r).2.toList.Perm
          (s.compileGroup payload' depth r).2.toList) ∧
      ((∃ f, s.compile payload = .ok f) ↔ ∃ f, s.compile payload' = .ok f)) ∧
    ∀ {α : Type} {p : ⦃α : Type⦄ → Rule (Filter α) → Prop} (s : Schema (Filter α)),
      s.OverObjects p → ∀ depth r f f', (s.compileGroup payload depth r).1 = some f →
        (s.compileGroup payload' depth r).1 = some f' →
          f.depth = f'.depth ∧ ∀ x, f.adheres x = f'.adheres x := by
  refine ⟨fun s => ⟨fun depth r => ?_, ?_⟩, fun s hs depth r f f' hf hf' => ?_⟩
  · rw [compileGroup_eq, compileGroup_eq, Report.toList_extend, Report.toList_extend]
    exact ⟨isSome_filterAs h s .group depth, (messagesAs_perm h s .group depth).append_left _⟩
  · rw [exists_compile_eq_ok_iff, exists_compile_eq_ok_iff]
    have hperm := messagesAs_perm h s .group 0
    exact ⟨fun hnil => (hnil ▸ hperm).symm.eq_nil, fun hnil => (hnil ▸ hperm).eq_nil⟩
  · rw [compileGroup_eq] at hf hf'
    have halike := filterAs_alike h hs Role.overObjects_group depth
    rw [show s.filterAs .group payload depth = some f from hf,
      show s.filterAs .group payload' depth = some f' from hf'] at halike
    cases halike with
    | some halike => exact halike

end Schema

/-! ## A payload in two orders -/

/-- An age under an operation that is not offered, and pets without a choice of species. -/
def Json.ageAndPets : Json :=
  groupNode .and [ruleNode "age" .equals (.integer 30),
    relationNode "pets" .or [ruleNode "species" .oneOf (.array []), groupNode .and []]]

/-- The same with the children of the root and of the relation the other way round. -/
def Json.petsAndAge : Json :=
  groupNode .and [relationNode "pets" .or [groupNode .and [],
      ruleNode "species" .oneOf (.array [])], ruleNode "age" .equals (.integer 30)]

/-- The two payloads differ in the order of the children, at the root and below the relation. -/
theorem Json.reordered_ageAndPets : ageAndPets.Reordered petsAndAge := by
  have hpets : (relationNode "pets" .or [ruleNode "species" .oneOf (.array []),
      groupNode .and []]).Reordered (relationNode "pets" .or [groupNode .and [],
      ruleNode "species" .oneOf (.array [])]) :=
    @Reordered.children _ _ [(_, groupNode .and []), (_, ruleNode "species" .oneOf (.array []))]
      rfl (.swap _ _ _) (List.forall_mem_cons.2 ⟨.refl _, List.forall_mem_singleton.2 (.refl _)⟩)
  exact @Reordered.children ageAndPets _ [(_, _), (_, ruleNode "age" .equals (.integer 30))]
    rfl (.swap _ _ _) (List.forall_mem_cons.2 ⟨hpets, List.forall_mem_singleton.2 (.refl _)⟩)

/-- Age before pets and pets before age: the same messages in another order, and filters that are
alike. -/
theorem Schema.compile_ageAndPets :
    ∃ s f f', Declaration.owners.schema = .ok s ∧ s.OverObjects Rule.ReadsField ∧
      Json.ageAndPets.Reordered .petsAndAge ∧
      (s.compileGroup .ageAndPets 0 .empty).1 = some f ∧
      (s.compileGroup .petsAndAge 0 .empty).1 = some f' ∧
      (s.compileGroup .ageAndPets 0 .empty).2.toList.Perm
        (s.compileGroup .petsAndAge 0 .empty).2.toList ∧
      f.depth = f'.depth ∧ ∀ x, f.adheres x = f'.adheres x := by
  have hs := @Declaration.overObjects_of_schema .owners _ rfl
  have hreordered := Json.reordered_ageAndPets
  refine ⟨_, _, _, rfl, hs, hreordered, rfl, rfl, ?_, ?_⟩
  · exact (((compile_of_reordered hreordered).1 _).1 0 .empty).2
  · exact (compile_of_reordered hreordered).2 _ hs 0 .empty _ _ rfl rfl

end Criteria
