import Criteria.Proofs.Compile.Coverage
import Criteria.Proofs.Compile.Outline
import Criteria.Proofs.Compile.Places

/-! # How many children a relation has
A relation without children is refused. What counts for this is the list of children as it is
written; which of its elements mean anything is looked at later, and those that mean nothing are
passed over in a relation as they are in a group. So a relation of an accepted payload has one child
for each element that means something, and none if the list has only others.

* `Condition.HasNode`: the nodes of a condition, at every nesting.

Main statements: `Place.exists_at?_of_hasNode`, each node of the condition of a payload is the
condition of a place; `Schema.relations_of_compile`, how many children its relations have. -/

namespace Criteria

/-! ## Nodes of conditions -/

namespace Condition

/-- The children of a condition. -/
def children : Condition → List Condition
  | group _ children => children
  | rule _ _ _ => []
  | relation _ _ children => children

/-- A **node** of a condition, at any nesting. -/
inductive HasNode : Condition → Condition → Prop where
  /-- The condition itself. -/
  | root (c : Condition) : HasNode c c
  /-- A node of a child. -/
  | inside {c child x : Condition} (mem : child ∈ c.children) (node : HasNode child x) : HasNode c x

end Condition

variable {F : Type}

/-- A comparison has no children. -/
theorem Role.children_of_comparison? {role : Role F} {v : Json} {c : Condition}
    (h : role.comparison? v = some c) : c.children = [] := by
  cases role with
  | entry e =>
    cases e with
    | rule rule =>
      obtain ⟨o, x, w, -, -, -, rfl⟩ := Rule.exists_of_filter?_eq_some h
      rfl
    | relation => cases h
  | _ => cases h

/-- A junction has the children that it is made of. -/
theorem Role.children_of_junction? {role : Role F} {v : Json} {cs : List Condition} {c : Condition}
    (h : role.junction? v cs = some c) : c.children = cs := by
  cases role with
  | group =>
    obtain ⟨shape, -, rfl⟩ := Option.map_eq_some_iff.1 h
    rfl
  | entry e =>
    cases e with
    | rule rule => cases h
    | relation =>
      obtain ⟨shape, -, rfl⟩ := Option.map_eq_some_iff.1 h
      rfl
  | _ => cases h

/-! ## Nodes of outlines -/

namespace Place

/-- The condition of a place, below a number of levels. -/
def condition? (p : Place) (depth : UInt64) : Option Condition :=
  (p.schema.outlineAs p.role p.value depth).condition?

/-- The messages about a place, below a number of levels. -/
def messages (p : Place) (depth : UInt64) : List String :=
  p.schema.messagesAs p.role p.value depth

/-- A child of the condition of a place without messages is the condition of a child of the place,
and there are no messages about the child. -/
theorem exists_child?_of_mem_children {p : Place} {depth : UInt64} {c d : Condition}
    (hclean : p.messages depth = []) (hc : p.condition? depth = some c) (hd : d ∈ c.children) :
    ∃ i q, p.child? i = some q ∧ q.messages (depth + 1) = [] ∧ q.condition? (depth + 1) = some d := by
  rw [condition?, Schema.outlineAs_eq] at hc
  rw [messages, Schema.messagesAs_eq] at hclean
  cases hstep : p.schema.step p.value (depth + 1) p.role with
  | settled f? problems =>
    rw [hstep] at hc
    rw [Role.children_of_comparison? hc] at hd
    cases hd
  | @descend G below items bind =>
    rw [hstep] at hc hclean
    rw [Role.children_of_junction? hc] at hd
    obtain ⟨w, hw, hcondition⟩ := List.mem_filterMap.1 hd
    obtain ⟨i, hchild⟩ := Schema.exists_child?_of_descend hstep hw
    exact ⟨i, among below w, hchild, List.flatMap_eq_nil_iff.1 hclean w hw, hcondition⟩

/-- **Each node of the condition of a place is the condition of a place below it**, and without
messages as the first place is. -/
theorem exists_at?_of_hasNode {p : Place} {depth : UInt64} {c x : Condition}
    (hclean : p.messages depth = []) (hc : p.condition? depth = some c) (hx : c.HasNode x) :
    ∃ path q depth', p.at? path = some q ∧ q.messages depth' = [] ∧ q.condition? depth' = some x := by
  induction hx generalizing p depth with
  | root c => exact ⟨[], p, depth, rfl, hclean, hc⟩
  | inside mem _ ih =>
    obtain ⟨i, child, hchild, hclean', hc'⟩ := exists_child?_of_mem_children hclean hc mem
    obtain ⟨path, q, depth', hq, hnode⟩ := ih hclean' hc'
    exact ⟨i :: path, q, depth', at?_cons hchild path ▸ hq, hnode⟩

end Place

/-! ## Children of relations -/

namespace Schema

variable {s : Schema F}

/-- Without messages there is a condition for each child that means something, and for no other. -/
theorem isSome_condition?_of_messagesOf_eq_nil {v : Json} {depth : UInt64}
    (h : s.messagesOf v depth = []) : (s.outlineOf v depth).condition?.isSome = v.isMeant := by
  have hgives := s.gives_outlineAs (s.standsIn_roleOf v) v depth
  have hsome : (s.outlineOf v depth).condition?.isSome = (s.filterOf v depth).isSome :=
    hgives.isSome_eq.symm
  rw [hsome, Bool.eq_iff_iff]
  constructor
  · intro hfilter
    by_contra hmeant
    rw [filterOf_of_not_isMeant hmeant] at hfilter
    cases hfilter
  · intro hmeant
    by_contra hfilter
    rw [Option.not_isSome_iff_eq_none] at hfilter
    exact messagesOf_ne_nil_of_filterOf_eq_none hmeant hfilter h

/-- A relation without messages has a child for each element that means something. -/
theorem exists_relationShape_of_condition? {role : Role F} {v : Json} {depth : UInt64}
    {name : String} {c : Combinator} {children : List Condition}
    (hclean : s.messagesAs role v depth = [])
    (hc : (s.outlineAs role v depth).condition? = some (.relation name c children)) :
    ∃ items, v.relationShape = .ok (c, items) ∧ children.length = items.countP Json.isMeant := by
  rw [messagesAs_eq] at hclean
  rw [outlineAs_eq] at hc
  revert hclean hc
  -- A group and a rule make conditions of other kinds.
  fun_cases step s v (depth + 1) role with
  | case4 c' items hshape _ =>
    intro _ hc
    simp [Step.outline, Role.junction?, hshape] at hc
  | case6 rule =>
    intro _ hc
    obtain ⟨o, x, w, -, -, -, h⟩ := Rule.exists_of_filter?_eq_some hc
    cases h
  | case9 G name' bind child c' items hshape _ =>
    intro hclean hc
    simp only [Step.outline, Role.junction?, hshape, Except.toOption, Option.map_some] at hc
    cases hc
    refine ⟨items, hshape, ?_⟩
    rw [List.length_filterMap_eq_countP]
    refine List.countP_congr fun w hw => ?_
    rw [isSome_condition?_of_messagesOf_eq_nil (List.flatMap_eq_nil_iff.1 hclean w hw)]
  | _ =>
    intro _ hc
    cases hc

/-- A relation with an **empty list** of children is reported, and gives no filter. -/
theorem compileEntry_of_no_children {G : Type} {name : String} {bind : Combinator → List G → F}
    {child : Schema G} {v : Json} {c : Combinator}
    (hword : v.text? "operation" = some (Vocabulary.token c))
    (hitems : v.items? "children" = some []) (depth : UInt64) (r : Report) :
    s.compileEntry (.relation name bind child) v depth r =
      (none, r.fieldIssue s.translator .emptyRelation name) := by
  have hshape : v.relationShape = .error .emptyRelation := by
    simp [Json.relationShape, hword, hitems]
  rw [compileEntry_eq, filterAs_eq, messagesAs_eq, step, hshape, Report.fieldIssue_eq_extend]
  rfl

/-- A relation of which **all elements are passed over** is bound without children, and without a
message. -/
theorem compileEntry_of_not_isMeant {G : Type} {name : String} {bind : Combinator → List G → F}
    {child : Schema G} {v : Json} {c : Combinator} {items : List Json} {depth : UInt64}
    (hword : v.text? "operation" = some (Vocabulary.token c))
    (hitems : v.items? "children" = some items) (hne : items ≠ [])
    (hunmeant : ∀ w ∈ items, ¬ w.isMeant) (hlevel : ¬ s.maxDepth < depth + 1) (r : Report) :
    s.compileEntry (.relation name bind child) v depth r = (some (bind c []), r) := by
  have hshape : v.relationShape = .ok (c, items) :=
    Json.relationShape_eq_ok_iff.2 ⟨hword, hitems, hne⟩
  have hfilters : items.filterMap (child.filterOf · (depth + 1)) = [] :=
    List.filterMap_eq_nil_iff.2 fun w hw => filterOf_of_not_isMeant (hunmeant w hw) _
  have hmessages : items.flatMap (child.messagesOf · (depth + 1)) = [] :=
    List.flatMap_eq_nil_iff.2 fun w hw => messagesOf_of_not_isMeant (hunmeant w hw) _
  rw [compileEntry_eq, filterAs_eq, messagesAs_eq, step, hshape]
  simp only [if_neg hlevel, Step.filter?, Step.messages, hfilters, hmessages, Report.extend_nil]

/-- **How many children a relation has**. The filter of an accepted payload is what its condition is
bound to, and each relation of the condition comes from a relation of the payload: its list of
children is not empty, and it has one child for each element that is a group or bears a name. A
relation with an empty list is reported; one of which all elements are passed over is not. -/
theorem relations_of_compile (s : Schema F) :
    (∀ payload f, s.compile payload = .ok f →
      ∃ condition, (Place.root s payload).condition? 0 = some condition ∧
        s.bind? condition = some f ∧
        ∀ name c children, condition.HasNode (.relation name c children) →
          ∃ path q depth items, (Place.root s payload).at? path = some q ∧
            q.condition? depth = some (.relation name c children) ∧
            q.value.relationShape = .ok (c, items) ∧ items ≠ [] ∧
            children.length = items.countP Json.isMeant) ∧
    ∀ {G : Type} name (bind : Combinator → List G → F) child v c items depth r,
      v.text? "operation" = some (Vocabulary.token c) → v.items? "children" = some items →
        (items = [] → s.compileEntry (.relation name bind child) v depth r =
          (none, r.fieldIssue s.translator .emptyRelation name)) ∧
        (items ≠ [] → (∀ w ∈ items, ¬ w.isMeant) → ¬ s.maxDepth < depth + 1 →
          s.compileEntry (.relation name bind child) v depth r = (some (bind c []), r)) := by
  refine ⟨fun payload f h => ?_, fun name bind child v c items depth r hword hitems =>
    ⟨?_, fun hne hunmeant hlevel => ?_⟩⟩
  · -- The filter is bound from the condition of the root, about which there are no messages.
    obtain ⟨hclean, hfilter⟩ := compile_eq_ok_iff.1 h
    have hbound := (s.gives_outlineAs_group payload 0).bound
    rw [hfilter, Option.map_some] at hbound
    obtain ⟨condition, hcondition, hbind⟩ := Option.map_eq_some_iff.1 hbound.symm
    refine ⟨condition, hcondition, hbind, fun name c children hnode => ?_⟩
    obtain ⟨path, q, depth, hq, hqclean, hqcondition⟩ :=
      Place.exists_at?_of_hasNode (p := .root s payload) hclean hcondition hnode
    obtain ⟨items, hshape, hlength⟩ := exists_relationShape_of_condition? hqclean hqcondition
    exact ⟨path, q, depth, items, hq, hqcondition, hshape,
      (Json.relationShape_eq_ok_iff.1 hshape).2.2, hlength⟩
  · rintro rfl
    exact compileEntry_of_no_children hword hitems depth r
  · exact compileEntry_of_not_isMeant hword hitems hne hunmeant hlevel r

end Schema

/-! ## Owners of pets -/

/-- Owners with a pet, and given elements that say of which kind. -/
def Json.ownersOfPets (elements : List Json) : Json :=
  groupNode .and [relationNode "pets" .and elements]

/-- An integer, which means nothing, beside a species. -/
def Json.ownersOfCats : Json :=
  ownersOfPets [.integer 7, ruleNode "species" .equals (.string "cat")]

/-- The relation to cats. -/
def Condition.cats : Condition :=
  .relation "pets" .and [.rule "species" .equals (.single (.text "cat"))]

/-- The relation to cats is bound to one child, although the payload has an integer beside it. -/
theorem Schema.relations_ownersOfCats :
    ∃ s f e, Declaration.owners.schema = .ok s ∧ s.compile .ownersOfCats = .ok f ∧
      s.bind? (.group .and [.cats]) = some f ∧ (Condition.group .and [.cats]).HasNode .cats ∧
      (∃ path q depth items, (Place.root s .ownersOfCats).at? path = some q ∧
        q.condition? depth = some .cats ∧ q.value.relationShape = .ok (.and, items) ∧ items ≠ [] ∧
        1 = items.countP Json.isMeant) ∧
      s.find? "pets" = some e ∧
      s.compileEntry e (.relationNode "pets" .and []) 0 .empty =
        (none, Report.empty.fieldIssue s.translator .emptyRelation "pets") ∧
      s.compileEntry e (.relationNode "pets" .and [.integer 7]) 0 .empty =
        (some (Record.relation "pets" .and []), .empty) := by
  have hnode : (Condition.group .and [.cats]).HasNode .cats := .inside (.head _) (.root _)
  have hplace {s : Schema (Filter Record)} {f : Filter Record}
      (hs : Declaration.owners.schema = .ok s) (hf : s.compile .ownersOfCats = .ok f) :
      ∃ path q depth items, (Place.root s .ownersOfCats).at? path = some q ∧
        q.condition? depth = some .cats ∧ q.value.relationShape = .ok (.and, items) ∧ items ≠ [] ∧
        1 = items.countP Json.isMeant := by
    obtain ⟨condition, hcondition, -, hrelations⟩ := s.relations_of_compile.1 .ownersOfCats f hf
    have hcats : (Place.root s .ownersOfCats).condition? 0 = some (.group .and [.cats]) := by
      -- The condition is found by recursion on the nesting, which evaluates on a given payload.
      cases hs
      with_unfolding_all rfl
    obtain rfl := Option.some.inj (hcondition.symm.trans hcats)
    exact hrelations "pets" .and _ hnode
  refine ⟨_, _, _, rfl, rfl, rfl, hnode, hplace rfl rfl, rfl, ?_, ?_⟩
  · exact ((relations_of_compile _).2 _ _ _ (.relationNode "pets" .and []) .and _ 0 .empty rfl
      rfl).1 rfl
  · exact ((relations_of_compile _).2 _ _ _ (.relationNode "pets" .and [.integer 7]) .and _ 0 .empty
      rfl rfl).2 (List.cons_ne_nil _ _) (by decide) (by decide)

/-- A relation of which all elements are passed over has no children. -/
theorem Schema.relation_without_children :
    ∃ s f condition, Declaration.owners.schema = .ok s ∧
      s.compile (.ownersOfPets [.integer 7]) = .ok f ∧
      f = .group .and [Record.relation "pets" .and []] ∧
      (Place.root s (.ownersOfPets [.integer 7])).condition? 0 = some condition ∧
      s.bind? condition = some f ∧ condition.HasNode (.relation "pets" .and []) := by
  refine ⟨_, _, .group .and [.relation "pets" .and []], rfl, rfl, rfl, ?_, rfl, ?_⟩
  · with_unfolding_all rfl
  · exact .inside (.head _) (.root _)

end Criteria
