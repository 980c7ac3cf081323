import Criteria.Proofs.Compile.Places
import Criteria.Proofs.Compile.Siblings
import Criteria.Proofs.Compile.Coverage
import Mathlib.Order.Lattice.Nat

/-! # Levels of payloads and of filters
While a payload is compiled its levels are counted, against the limit of the schema that each node
belongs to; the filter that comes out has a depth of its own, for which nothing is counted and which a
relation only keeps as a number. This file ties the two together, for filters over objects whose
rules are single comparisons.

* `Rule.BindsLeaf`: a rule whose filters are of one level.
* `Schema.Reaches`, `Schema.limits`: the schemas that relations lead to, and their limits.
* `Place.height`: the number of levels of a payload, rules counted as one.

Main statement: `Schema.depth_of_compileGroup`, a filter ends at most one level below the greatest of
the limits, and a filter that is made without messages is as deep as its payload is high. -/

namespace Criteria

/-- A rule whose filters are of **one level**. -/
def Rule.BindsLeaf ⦃α : Type⦄ (rule : Rule (Filter α)) : Prop := ∀ o w, (rule.bind o w).depth = 1

/-- A rule that reads a field binds a leaf. -/
theorem Rule.ReadsField.bindsLeaf {α : Type} {rule : Rule (Filter α)} (h : rule.ReadsField) :
    rule.BindsLeaf := by
  obtain ⟨read, hbind⟩ := h
  intro o w
  rw [hbind, Filter.depth]

/-! ## Limits -/

namespace Schema

/-- A schema **reaches** itself and whatever the schemas of its relations reach. -/
inductive Reaches : {F G : Type} → Schema F → Schema G → Prop where
  /-- The schema itself. -/
  | refl {F : Type} (s : Schema F) : Reaches s s
  /-- What the schema of a relation reaches. -/
  | relation {F G H : Type} {s : Schema F} {name field : String} {bind : Combinator → List G → F}
      {child : Schema G} {t : Schema H} (entry : s.find? name = some (.relation field bind child))
      (reaches : Reaches child t) : Reaches s t

variable {F : Type}

/-- The **limits** of all the schemas that a schema reaches. -/
def limits (s : Schema F) : Set Nat :=
  {n | ∃ (G : Type) (t : Schema G), s.Reaches t ∧ t.maxDepth.toNat = n}

/-- The limit of a schema is among those of the schemas that it reaches. -/
theorem maxDepth_mem_limits (s : Schema F) : s.maxDepth.toNat ∈ s.limits := ⟨F, s, .refl s, rfl⟩

/-- The limits below a relation are among those of the schema it stands in. -/
theorem limits_subset_of_relation {G : Type} {s : Schema F} {name field : String}
    {bind : Combinator → List G → F} {child : Schema G}
    (entry : s.find? name = some (.relation field bind child)) : child.limits ⊆ s.limits := by
  rintro n ⟨H, t, hreaches, rfl⟩
  exact ⟨H, t, .relation entry hreaches, rfl⟩

/-- Where a schema descends, the limits below are among its own. -/
theorem limits_subset_of_descend {G : Type} {s : Schema F} {role : Role F}
    (hstands : role.StandsIn s) {v : Json} {level : UInt64} {below : Schema G} {items : List Json}
    {bind : List G → F} (h : s.step v level role = .descend below items bind) :
    below.limits ⊆ s.limits := by
  revert h
  fun_cases step s v level role with
  | case4 =>
    rintro ⟨⟩
    exact subset_rfl
  | case9 name H bind' child =>
    rintro ⟨⟩
    exact limits_subset_of_relation (hstands _ rfl)
  | _ => rintro ⟨⟩

/-- Limits are counted in 64 bits, so one of them is the greatest. -/
theorem exists_isGreatest_limits (s : Schema F) : ∃ M, IsGreatest s.limits M := by
  have hbounded : BddAbove s.limits := by
    refine ⟨UInt64.size, ?_⟩
    rintro n ⟨G, t, -, rfl⟩
    exact Nat.le_of_lt t.maxDepth.toNat_lt
  exact ⟨sSup s.limits, Nat.sSup_mem ⟨_, s.maxDepth_mem_limits⟩ hbounded,
    fun n hn => le_csSup hbounded hn⟩

end Schema

/-! ## The depth of a filter -/

namespace Filter

variable {α : Type}

/-- The depth of the deepest filter of a list, over the depths. -/
theorem greatestDepth_eq_foldr (fs : List (Filter α)) :
    greatestDepth fs = (fs.map depth).foldr max 0 := by
  induction fs with
  | nil => simp [greatestDepth]
  | cons f fs ih => rw [greatestDepth, ih, List.map_cons, List.foldr_cons]

end Filter

namespace Schema

variable {α : Type}

/-- Where every child's filter keeps a bound, so does what is one level above them. -/
theorem add_greatestDepth_le {items : List Json} {filter? : Json → Option (Filter α)}
    {level M : Nat} (hlevel : level + 1 ≤ M)
    (each : ∀ w ∈ items, ∀ g, filter? w = some g → level + 1 + g.depth ≤ M + 1) :
    level + (1 + Filter.greatestDepth (items.filterMap filter?)) ≤ M + 1 := by
  have hdeepest : Filter.greatestDepth (items.filterMap filter?) ≤ M - level := by
    rw [Filter.greatestDepth_le_iff]
    intro g hg
    obtain ⟨w, hw, hg⟩ := List.mem_filterMap.1 hg
    have hbound := each w hw g hg
    omega
  omega

/-- **No filter nests past the limits**: what a value gives below a number of levels ends at most
one level below every bound on the limits. A rule does not count as a level itself, so it has to
stand below levels that keep the bound. -/
theorem add_depth_le_of_filterAs {s : Schema (Filter α)} (hs : s.OverObjects Rule.BindsLeaf)
    {role : Role (Filter α)} (hrole : role.OverObjects Rule.BindsLeaf) (hstands : role.StandsIn s)
    {v : Json} {depth : UInt64} (hfit : (Place.mk s role v).LevelsFit depth.toNat) {M : Nat}
    (hM : M ∈ upperBounds s.limits)
    (hleaf : ∀ rule, role = .entry (.rule rule) → depth.toNat ≤ M) {f : Filter α}
    (hf : s.filterAs role v depth = some f) : depth.toNat + f.depth ≤ M + 1 := by
  induction v using Json.treeInduction generalizing α depth with
  | step v ih =>
    rw [filterAs_eq] at hf
    generalize hstep : s.step v (depth + 1) role = step at hf
    -- What is entered keeps the bound, and hands it on to children of any kind.
    have hbelow {β : Type} {below : Schema (Filter β)} {items : List Json}
        {bind : List (Filter β) → Filter α} (hover : below.OverObjects Rule.BindsLeaf)
        (hdescend : s.step v (depth + 1) role = .descend below items bind) :
        depth.toNat +
          (1 + Filter.greatestDepth (items.filterMap (below.filterOf · (depth + 1)))) ≤ M + 1 := by
      obtain ⟨hlevel, hchildFit⟩ := levelsFit_of_descend hfit hdescend
      have hbound : below.limits ⊆ s.limits := limits_subset_of_descend hstands hdescend
      have hle : depth.toNat + 1 ≤ M := by
        rw [← hlevel]
        have hadmits : (depth + 1).toNat ≤ s.maxDepth.toNat :=
          UInt64.le_iff_toNat_le.1 (UInt64.not_lt.1 (not_maxDepth_lt_of_descend hdescend))
        exact Nat.le_trans hadmits (hM s.maxDepth_mem_limits)
      refine add_greatestDepth_le hle fun w hw g hg => ?_
      rw [← hlevel] at hle ⊢
      exact ih w (mem_children_of_descend hdescend hw) hover (hover.roleOf w)
        (below.standsIn_roleOf w) (hchildFit w hw) (upperBounds_mono_set hbound hM)
        (fun _ _ => hle) hg
    cases hstep ▸ hs.step hrole v (depth + 1) with
    | settled =>
      cases hf
      obtain ⟨rule, o, w, rfl, rfl⟩ := exists_rule_of_settled_some hstep
      cases hrole _ rfl with
      | rule leaf =>
        rw [leaf o w]
        exact Nat.succ_le_succ (hleaf rule rfl)
    | group hover =>
      cases hf
      rw [Filter.depth]
      exact hbelow hover hstep
    | relate hover =>
      cases hf
      rw [Filter.depth_relate, Filter.depth]
      exact hbelow hover hstep

end Schema

/-! ## The height of a payload -/

namespace Place

/-- The **height** of a value at its place: a group or a relation is one level above the highest of
its children, those that mean nothing left out, and all else is one level. -/
def height (p : Place) : Nat :=
  if p.isNested then
    1 + ((p.value.children.filter Json.isMeant).attach.map fun w =>
      (among p.below.2 w.1).height).foldr max 0
  else 1
termination_by p.value.nesting
decreasing_by
  exact Nat.lt_of_succ_lt (Json.nesting_lt_of_mem_children (List.mem_of_mem_filter w.2))

/-- The height of a group or a relation, from those of its children. -/
theorem height_of_isNested {p : Place} (h : p.isNested) :
    p.height = 1 + ((p.value.children.filter Json.isMeant).map fun w =>
      (among p.below.2 w).height).foldr max 0 := by
  rw [height, if_pos h]
  simp

/-- Whatever is no group and no relation is one level high. -/
theorem height_of_not_isNested {p : Place} (h : ¬ p.isNested) : p.height = 1 := by
  rw [height, if_neg h]

end Place

namespace Schema

variable {α : Type}

/-- Filters that are as deep as the children they are bound for are high. -/
theorem greatestDepth_of_pairs {s : Schema (Filter α)} {pairs : List (Json × Filter α)}
    (each : ∀ q ∈ pairs, q.2.depth = (Place.among s q.1).height) :
    Filter.greatestDepth (pairs.map Prod.snd) =
      ((pairs.map Prod.fst).map fun w => (Place.among s w).height).foldr max 0 := by
  rw [Filter.greatestDepth_eq_foldr, List.map_map, List.map_map]
  congr 1
  exact List.map_congr_left each

/-- **A filter that is bound for every node is as deep as the value is high**. -/
theorem depth_eq_height_of_binds {s : Schema (Filter α)} (hs : s.OverObjects Rule.BindsLeaf)
    {role : Role (Filter α)} (hrole : role.OverObjects Rule.BindsLeaf) {v : Json} {f : Filter α}
    (h : s.Binds role v f) : f.depth = (Place.mk s role v).height := by
  induction v using Json.treeInduction generalizing α with
  | step v ih =>
    -- The pairs are the children that mean something, each as deep as its own place is high.
    cases h with
    | @group _ _ _ c items pairs shape paired each =>
      have hchildren := Json.children_of_groupShape? shape
      have hpairs : ∀ q ∈ pairs, q.2.depth = (Place.among s q.1).height := by
        intro q hq
        have hmem := mem_children_of_paired (Json.groupShape?_eq_some_iff.1 shape).2.2 paired hq
        exact ih q.1 hmem hs (hs.roleOf q.1) (each q hq)
      rw [hs.group_eq, Filter.depth, Place.height_of_isNested rfl, hchildren, ← paired,
        greatestDepth_of_pairs hpairs]
      rfl
    | @rule _ _ _ x rule o w =>
      cases hrole _ rfl with
      | rule leaf =>
        rw [leaf o w, Place.height_of_not_isNested]
        simp [Place.isNested]
    | @relation _ G _ _ name bind child c items pairs shape paired each =>
      cases hrole _ rfl with
      | @relation _ β _ related child below =>
        have hchildren := Json.children_of_relationShape shape
        have hpairs : ∀ q ∈ pairs, q.2.depth = (Place.among child q.1).height := by
          intro q hq
          have hmem := mem_children_of_paired (Json.relationShape_eq_ok_iff.1 shape).2.1 paired hq
          exact ih q.1 hmem below (below.roleOf q.1) (each q hq)
        rw [Filter.depth_relate, Filter.depth, Place.height_of_isNested rfl, hchildren, ← paired,
          greatestDepth_of_pairs hpairs]
        rfl

/-- **Depth, limit and height**. The filter that a payload gives over objects, with or without
messages, ends at most one level below the greatest of the limits of the schemas that are reached,
and the one level is for a rule; and if its run adds no message, it is as deep as the payload is
high. -/
theorem depth_of_compileGroup {s : Schema (Filter α)} (hs : s.OverObjects Rule.BindsLeaf)
    {payload : Json} {depth : UInt64} (hfit : (Place.root s payload).LevelsFit depth.toNat)
    {r : Report} {f : Filter α} (hf : (s.compileGroup payload depth r).1 = some f) :
    (∃ M, IsGreatest s.limits M ∧ depth.toNat + f.depth ≤ M + 1) ∧
      ((s.compileGroup payload depth r).2 = r → f.depth = (Place.root s payload).height) := by
  rw [compileGroup_eq] at hf ⊢
  constructor
  · obtain ⟨M, hM⟩ := s.exists_isGreatest_limits
    refine ⟨M, hM, ?_⟩
    exact add_depth_le_of_filterAs hs Role.overObjects_group (Role.standsIn_group s) hfit hM.2
      (fun _ h => nomatch h) hf
  · intro hreport
    have hmessages : s.messagesAs .group payload depth = [] := by
      simpa using congrArg Report.toList hreport
    exact depth_eq_height_of_binds hs Role.overObjects_group
      (binds_of_messagesAs_eq_nil hmessages hf)

/-- From the first level on, the filter for older owners with pets is within the limits and as deep
as its payload is high. -/
theorem depth_olderWithPets :
    ∃ s f, Declaration.owners.schema = .ok s ∧ s.OverObjects Rule.BindsLeaf ∧
      (Place.root s .olderWithPets).LevelsFit 1 ∧
      s.compileGroup .olderWithPets 1 .empty = (some f, .empty) ∧
      (∃ M, IsGreatest s.limits M ∧ 1 + f.depth ≤ M + 1) ∧
      f.depth = (Place.root s .olderWithPets).height := by
  have hs := (@Declaration.overObjects_of_schema .owners _ rfl).mono fun _ _ h =>
    Rule.ReadsField.bindsLeaf h
  have hnesting : 1 + Json.olderWithPets.nesting + 1 < UInt64.size := by decide
  have hfit {s : Schema (Filter Record)} : (Place.root s .olderWithPets).LevelsFit 1 :=
    Place.levelsFit_of_nesting hnesting
  have hdepth := @depth_of_compileGroup _ _ hs .olderWithPets 1 hfit .empty _ rfl
  exact ⟨_, _, rfl, hs, hfit, rfl, hdepth.1, hdepth.2 rfl⟩

end Schema

end Criteria
