import Criteria.Proofs.Compile.Step
import Mathlib.Logic.Basic

/-! # The language of accepted payloads
Which payloads a schema accepts, said without compiling: a grammar on JSON values. A group is an
object of that type with a combinator and children on a level that the schema accepts, all of them
again in the grammar; among children stand groups, values that mean nothing, and named objects that
fit the entry of their name. At a relation the grammar goes over to the relation's own schema, on the
next level.

* `Rule.Accepts`: the objects that fit a rule.
* `Schema.AcceptsGroup`, `Schema.AcceptsChild`: the grammar, with the number of levels above.

Main statement: `Schema.isOk_compile_iff_acceptsGroup`, a payload is accepted exactly if it is in the
grammar. -/

namespace Criteria

/-- The objects that **fit a rule**: the operation is one that the rule offers, and there is a value
that the rule's own check does not complain about and that has the shape that is needed. -/
def Rule.Accepts {F : Type} (rule : Rule F) (v : Json) : Prop :=
  ∃ o x, v.member? "operation" = some (.string o.token) ∧ o ∈ rule.operations ∧
    v.member? "value" = some x ∧ rule.complaints x = [] ∧ rule.constraint.fits o x

namespace Schema

mutual

/-- The **groups** that a schema accepts below a number of levels. -/
inductive AcceptsGroup : {F : Type} → Schema F → Nat → Json → Prop where
  /-- A group with a combinator and accepted children. -/
  | mk {F : Type} {s : Schema F} {levels : Nat} {v : Json} {c : Combinator} {items : List Json}
      (type : v.member? "type" = some (.string "group"))
      (operation : v.member? "operation" = some (.string c.token))
      (children : v.member? "children" = some (.array items))
      (level_le : levels + 1 ≤ s.maxDepth.toNat)
      (each : ∀ w ∈ items, AcceptsChild s (levels + 1) w) : AcceptsGroup s levels v

/-- The values that a schema accepts **among children** below a number of levels. -/
inductive AcceptsChild : {F : Type} → Schema F → Nat → Json → Prop where
  /-- A value that is no object. -/
  | value {F : Type} {s : Schema F} {levels : Nat} {v : Json} (object : v.object? = none) :
      AcceptsChild s levels v
  /-- A group. -/
  | group {F : Type} {s : Schema F} {levels : Nat} {v : Json} (accepted : AcceptsGroup s levels v) :
      AcceptsChild s levels v
  /-- An object that is no group and bears no name. -/
  | anonymous {F : Type} {s : Schema F} {levels : Nat} {members : List (String × Json)}
      (type : (Json.object members).member? "type" ≠ some (.string "group"))
      (name : ∀ n, (Json.object members).member? "name" ≠ some (.string n)) :
      AcceptsChild s levels (.object members)
  /-- An object under the name of a rule that it fits. -/
  | rule {F : Type} {s : Schema F} {levels : Nat} {v : Json} {n : String} {rule : Rule F}
      (type : v.member? "type" ≠ some (.string "group"))
      (name : v.member? "name" = some (.string n)) (entry : s.find? n = some (.rule rule))
      (fits : rule.Accepts v) : AcceptsChild s levels v
  /-- An object under the name of a relation, with a combinator and children, at least one, that the
  relation's own schema accepts. -/
  | relation {F G : Type} {s : Schema F} {levels : Nat} {v : Json} {n field : String}
      {bind : Combinator → List G → F} {child : Schema G} {c : Combinator} {items : List Json}
      (type : v.member? "type" ≠ some (.string "group"))
      (name : v.member? "name" = some (.string n))
      (entry : s.find? n = some (.relation field bind child))
      (operation : v.member? "operation" = some (.string c.token))
      (children : v.member? "children" = some (.array items)) (nonempty : items ≠ [])
      (level_le : levels + 1 ≤ s.maxDepth.toNat)
      (each : ∀ w ∈ items, AcceptsChild child (levels + 1) w) : AcceptsChild s levels v

end

end Schema

/-- A rule node has no problem exactly if it fits the rule. -/
theorem Rule.problems_eq_nil_iff_accepts {F : Type} {rule : Rule F} {v : Json} :
    rule.problems v = [] ↔ rule.Accepts v := by
  rw [problems_eq_nil_iff]
  constructor
  · rintro ⟨o, x, ho, hx, hmem, hown, hfits⟩
    exact ⟨o, x, Json.text?_eq_some_iff.1 ho, hmem, hx, hown, hfits⟩
  · rintro ⟨o, x, ho, hmem, hx, hown, hfits⟩
    exact ⟨o, x, Json.text?_eq_some_iff.2 ho, hx, hmem, hown, hfits⟩

namespace Schema

variable {F : Type}

/-! ## Levels in 64 bits -/

/-- The limit is kept at a value with children exactly if it is kept by the number of levels. -/
theorem not_lt_level_iff {v : Json} {items : List Json} {depth limit : UInt64}
    (hbound : depth.toNat + v.nesting < UInt64.size) (hitems : v.items? "children" = some items) :
    ¬ limit < depth + 1 ↔ depth.toNat + 1 ≤ limit.toNat := by
  have hpos := Json.nesting_pos_of_items hitems
  have hlevel : (depth + 1).toNat = depth.toNat + 1 := toNat_level (by omega)
  rw [UInt64.lt_iff_toNat_lt, hlevel, Nat.not_lt]

/-! ## The grammar by the role of a value -/

/-- A group is accepted exactly if it is well formed, within the limit, and all its children are
accepted one level further down. -/
theorem acceptsGroup_iff {s : Schema F} {levels : Nat} {v : Json} :
    s.AcceptsGroup levels v ↔
      ∃ c items, v.groupShape? = some (c, items) ∧ levels + 1 ≤ s.maxDepth.toNat ∧
        ∀ w ∈ items, s.AcceptsChild (levels + 1) w := by
  constructor
  · rintro ⟨type, operation, children, level_le, each⟩
    exact ⟨_, _, Json.groupShape?_eq_some_iff.2 ⟨Json.isGroup_iff.2 type,
      Json.text?_eq_some_iff.2 operation, Json.items?_eq_some_iff.2 children⟩, level_le, each⟩
  · rintro ⟨c, items, hshape, level_le, each⟩
    obtain ⟨hgroup, hword, hitems⟩ := Json.groupShape?_eq_some_iff.1 hshape
    exact .mk (Json.isGroup_iff.1 hgroup) (Json.text?_eq_some_iff.1 hword)
      (Json.items?_eq_some_iff.1 hitems) level_le each

/-- The grammar of a value that **stands for** something. -/
def AcceptsAs (s : Schema F) (levels : Nat) (v : Json) : Role F → Prop
  | .ignored => True
  | .group => s.AcceptsGroup levels v
  | .unregistered _ => False
  | .entry (.rule rule) => rule.Accepts v
  | .entry (.relation _ _ child) =>
    ∃ c items, v.relationShape = .ok (c, items) ∧ levels + 1 ≤ s.maxDepth.toNat ∧
      ∀ w ∈ items, child.AcceptsChild (levels + 1) w

/-- What is accepted among children is accepted in the role that it has there. -/
theorem acceptsAs_of_acceptsChild {s : Schema F} {levels : Nat} {v : Json}
    (h : s.AcceptsChild levels v) : s.AcceptsAs levels v (s.roleOf v) := by
  -- Each rule of the grammar fixes the type and the name, and with them the role.
  cases h with
  | value object =>
    have hmember (key : String) : v.member? key = none := by
      cases v <;> first | rfl | cases object
    rw [roleOf_of_no_name (by simp [Json.isGroup, Json.text?, hmember])
      (by simp [Json.text?, hmember])]
    trivial
  | group accepted =>
    have hgroup : v.isGroup := by
      obtain ⟨_, _, hshape, -⟩ := acceptsGroup_iff.1 accepted
      exact (Json.groupShape?_eq_some_iff.1 hshape).1
    rw [roleOf_of_isGroup hgroup]
    exact accepted
  | @anonymous _ _ _ members type name =>
    have hname : (Json.object members).text? "name" = none := by
      rw [Option.eq_none_iff_forall_ne_some]
      exact fun n hn => name n (Json.text?_eq_some_iff.1 hn)
    rw [roleOf_of_no_name (mt Json.isGroup_iff.1 type) hname]
    trivial
  | rule type name entry fits =>
    rw [roleOf_of_find? (mt Json.isGroup_iff.1 type) (Json.text?_eq_some_iff.2 name) entry]
    exact fits
  | relation type name entry operation children nonempty level_le each =>
    rw [roleOf_of_find? (mt Json.isGroup_iff.1 type) (Json.text?_eq_some_iff.2 name) entry]
    exact ⟨_, _, Json.relationShape_eq_ok_iff.2 ⟨Json.text?_eq_some_iff.2 operation,
      Json.items?_eq_some_iff.2 children, nonempty⟩, level_le, each⟩

/-- What is accepted in the role that it has among children is accepted among them. -/
theorem acceptsChild_of_acceptsAs {s : Schema F} {levels : Nat} {v : Json}
    (h : s.AcceptsAs levels v (s.roleOf v)) : s.AcceptsChild levels v := by
  -- The type decides first, then the name, and then what the name stands for, as for the role.
  by_cases hgroup : v.isGroup
  · rw [roleOf_of_isGroup hgroup] at h
    exact .group h
  have htype : v.member? "type" ≠ some (.string "group") := mt Json.isGroup_iff.2 hgroup
  cases hn : v.text? "name" with
  | none =>
    cases v with
    | object members =>
      refine .anonymous htype fun n hname => ?_
      rw [Json.text?_eq_some_iff.2 hname] at hn
      cases hn
    | _ => exact .value rfl
  | some name =>
    have hname := Json.text?_eq_some_iff.1 hn
    cases he : s.find? name with
    | none =>
      rw [roleOf_of_find?_eq_none hgroup hn he] at h
      exact h.elim
    | some e =>
      rw [roleOf_of_find? hgroup hn he] at h
      cases e with
      | rule rule => exact .rule htype hname he h
      | relation field bind child =>
        obtain ⟨c, items, hshape, level_le, each⟩ := h
        obtain ⟨hword, hitems, hne⟩ := Json.relationShape_eq_ok_iff.1 hshape
        exact .relation htype hname he (Json.text?_eq_some_iff.1 hword)
          (Json.items?_eq_some_iff.1 hitems) hne level_le each

/-! ## No message, then in the grammar, and back -/

/-- The children decide about a list of them, one level further down. -/
theorem flatMap_messagesOf_eq_nil_iff {G : Type} {below : Schema G} {v : Json} {depth : UInt64}
    {items : List Json}
    (ih : ∀ w ∈ v.children, ∀ {F : Type} (s : Schema F) (role : Role F) (depth : UInt64),
      depth.toNat + w.nesting < UInt64.size →
        (s.messagesAs role w depth = [] ↔ s.AcceptsAs depth.toNat w role))
    (hbound : depth.toNat + v.nesting < UInt64.size) (hitems : v.items? "children" = some items) :
    items.flatMap (below.messagesOf · (depth + 1)) = [] ↔
      ∀ w ∈ items, below.AcceptsChild (depth.toNat + 1) w := by
  rw [List.flatMap_eq_nil_iff]
  refine forall₂_congr fun w hw => ?_
  have hnest := Json.nesting_lt_of_mem_items hitems hw
  have hlevel : (depth + 1).toNat = depth.toNat + 1 := toNat_level (by omega)
  have hmem : w ∈ v.children := Json.children_of_items hitems ▸ hw
  have hiff := ih w hmem below (below.roleOf w) (depth + 1) (by omega)
  rw [hlevel] at hiff
  exact hiff.trans ⟨acceptsChild_of_acceptsAs, acceptsAs_of_acceptsChild⟩

/-- There is no message about a value exactly if it is in the grammar. -/
theorem messagesAs_eq_nil_iff_acceptsAs (s : Schema F) (role : Role F) (v : Json) (depth : UInt64)
    (hbound : depth.toNat + v.nesting < UInt64.size) :
    s.messagesAs role v depth = [] ↔ s.AcceptsAs depth.toNat v role := by
  -- The bound is kept on the way down: a child is nested less deep by two, and its level is one more.
  induction v using Json.treeInduction generalizing F depth with
  | step v ih =>
    rw [messagesAs_eq]
    fun_cases step s v (depth + 1) role with
    | case1 => simp [Step.messages, AcceptsAs]
    -- A group: of bad shape, too deep, or decided by its children.
    | case2 hshape => simp [Step.messages, AcceptsAs, acceptsGroup_iff, hshape]
    | case3 c items hshape hdeep =>
      have hitems := (Json.groupShape?_eq_some_iff.1 hshape).2.2
      have hlevel := mt (not_lt_level_iff hbound hitems).2 (by simpa)
      simp [Step.messages, AcceptsAs, acceptsGroup_iff, hshape, hlevel]
    | case4 c items hshape hlevel =>
      have hitems := (Json.groupShape?_eq_some_iff.1 hshape).2.2
      have hlevel := (not_lt_level_iff hbound hitems).1 hlevel
      rw [Step.messages, flatMap_messagesOf_eq_nil_iff ih hbound hitems, AcceptsAs,
        acceptsGroup_iff]
      constructor
      · intro each
        exact ⟨c, items, hshape, hlevel, each⟩
      · rintro ⟨c', items', hshape', -, each⟩
        cases hshape.symm.trans hshape'
        exact each
    -- A name without an entry, and a rule.
    | case5 name => simp [Step.messages, AcceptsAs]
    | case6 rule => simp [Step.messages, AcceptsAs, Rule.problems_eq_nil_iff_accepts]
    -- A relation, with the same three cases as a group, but children under its own schema.
    | case7 G name bind child i hshape => simp [Step.messages, AcceptsAs, hshape]
    | case8 G name bind child c items hshape hdeep =>
      have hitems := (Json.relationShape_eq_ok_iff.1 hshape).2.1
      have hlevel := mt (not_lt_level_iff hbound hitems).2 (by simpa)
      simp [Step.messages, AcceptsAs, hshape, hlevel]
    | case9 G name bind child c items hshape hlevel =>
      have hitems := (Json.relationShape_eq_ok_iff.1 hshape).2.1
      have hlevel := (not_lt_level_iff hbound hitems).1 hlevel
      rw [Step.messages, flatMap_messagesOf_eq_nil_iff ih hbound hitems, AcceptsAs]
      constructor
      · intro each
        exact ⟨c, items, hshape, hlevel, each⟩
      · rintro ⟨c', items', hshape', -, each⟩
        cases hshape.symm.trans hshape'
        exact each

/-- **Exact acceptance**: a payload that is not nested deeper than 64 bits can count is accepted
exactly if it is a group of the grammar. -/
theorem isOk_compile_iff_acceptsGroup (s : Schema F) (payload : Json)
    (h : payload.nesting < UInt64.size) :
    (∃ f, s.compile payload = .ok f) ↔ s.AcceptsGroup 0 payload := by
  have hiff := s.messagesAs_eq_nil_iff_acceptsAs .group payload 0 (by simpa using h)
  constructor
  · rintro ⟨f, hf⟩
    exact hiff.1 (compile_eq_ok_iff.1 hf).1
  · intro haccepts
    have hmessages := hiff.2 haccepts
    cases hfilter : s.filterAs .group payload 0 with
    | none => exact absurd hmessages (messagesAs_ne_nil_of_filterAs_eq_none (by simp) hfilter)
    | some f => exact ⟨f, compile_eq_ok_iff.2 ⟨hmessages, hfilter⟩⟩

/-- The payload for older owners with a cat or a dog is one that the schema of owners accepts. -/
theorem acceptsGroup_olderWithPets :
    ∃ s, Declaration.owners.schema = .ok s ∧ Json.olderWithPets.nesting < UInt64.size ∧
      s.AcceptsGroup 0 .olderWithPets :=
  ⟨_, rfl, by decide, (isOk_compile_iff_acceptsGroup _ _ (by decide)).1 ⟨_, rfl⟩⟩

end Schema

end Criteria
