import Criteria.Proofs.Compile.Coverage
import Criteria.Proofs.Compile.Places
import Criteria.Proofs.Compile.Siblings
import Mathlib.Logic.Relation

/-! # What is never read
Of each node a schema reads the few keys that its role asks for, and of a list of children the
elements that are groups or bear a name. All else may be added to a payload or taken from it without
a trace. Two limits are part of the statement. A key for the type is unread, save in a group, as long
as it does not make a group of the node. And a relation is refused for an empty list of children
before its elements are looked at, so its list must not become empty, nor stop being so.

* `Role.keys`: the keys that are read of a node.
* `Place.Edit`: a payload with one thing more that is never read, at any nesting.
* `Place.Edited`: payloads between which lie any number of edits, in either direction.

Main statements: `Place.Edit.compileAs_eq`, one edit changes nothing;
`Place.compileGroup_of_edited`, nor do any number of them. -/

namespace Criteria

/-! ## The keys of a node -/

/-- The **keys** that are read of a node: those that the role asks for, and the name or type that it
has the role by. -/
def Role.keys {F : Type} : Role F → List String
  | .ignored => ["name"]
  | .group => ["type", "operation", "children"]
  | .unregistered _ => ["name"]
  | .entry (.rule _) => ["name", "operation", "value"]
  | .entry (.relation _ _ _) => ["name", "operation", "children"]

/-- The name is read of all but groups. -/
theorem Role.name_mem_keys {F : Type} {role : Role F} (h : role ≠ .group) : "name" ∈ role.keys := by
  cases role with
  | group => exact absurd rfl h
  | entry e => cases e <;> simp [keys]
  | _ => simp [keys]

namespace Json

variable {v v' : Json} {key : String}

/-- The shape of a group depends on its type, its operation and its children. -/
theorem groupShape?_congr (hgroup : v'.isGroup = v.isGroup)
    (hoperation : v'.member? "operation" = v.member? "operation")
    (hchildren : v'.member? "children" = v.member? "children") :
    v'.groupShape? = v.groupShape? := by
  rw [groupShape?, groupShape?, text?_congr hoperation, items?_congr hchildren, hgroup]

/-- The shape of a relation depends on its operation and its children. -/
theorem relationShape_congr (hoperation : v'.member? "operation" = v.member? "operation")
    (hchildren : v'.member? "children" = v.member? "children") :
    v'.relationShape = v.relationShape := by
  rw [relationShape, relationShape, text?_congr hoperation, items?_congr hchildren]

variable {before after : List (String × Json)} {x : Json}

/-- A member that is added neither makes a group nor unmakes one if it is no type, nor if it is a
type other than that of a group and the object was no group. -/
theorem isGroup_insert
    (h : key = "type" → x ≠ .string "group" ∧ ¬ (object (before ++ after)).isGroup) :
    (object (before ++ (key, x) :: after)).isGroup = (object (before ++ after)).isGroup := by
  by_cases hkey : key = "type"
  · subst hkey
    obtain ⟨hx, hgroup⟩ := h rfl
    rw [Bool.eq_iff_iff, iff_false_right hgroup]
    rw [isGroup_iff, member?_object, List.lookup_append] at hgroup ⊢
    -- The first type decides, which is one that was there before or the added one.
    cases hbefore : before.lookup "type" with
    | some y =>
      rw [hbefore] at hgroup
      exact hgroup
    | none => simpa using hx
  · exact isGroup_congr (member?_insert_of_ne (Ne.symm hkey))

end Json

/-- A list with an item in the middle is not empty. -/
theorem isEmpty_insert {α : Type} (before after : List α) (x : α) :
    (before ++ x :: after).isEmpty = false :=
  List.isEmpty_eq_false_iff.2 (by simp)

namespace Schema

variable {F : Type}

/-- The step at a value depends on **the keys that are read**. -/
theorem step_congr_keys (s : Schema F) {v v' : Json} {role : Role F}
    (h : ∀ key ∈ role.keys, v'.member? key = v.member? key) (level : UInt64) :
    s.step v' level role = s.step v level role := by
  -- Groups and relations read their shape, and rules the operation and the value.
  cases role with
  | group =>
    have hshape : v'.groupShape? = v.groupShape? :=
      Json.groupShape?_congr (Json.isGroup_congr (h _ (by simp [Role.keys])))
        (h _ (by simp [Role.keys])) (h _ (by simp [Role.keys]))
    rw [step, step, hshape]
  | entry e =>
    cases e with
    | rule rule =>
      have hword : v'.text? "operation" = v.text? "operation" :=
        Json.text?_congr (h _ (by simp [Role.keys]))
      have hvalue : v'.member? "value" = v.member? "value" := h _ (by simp [Role.keys])
      rw [step, step, rule.filter?_congr_value hword hvalue, rule.problems_congr_value hword hvalue]
    | relation name bind child =>
      have hshape : v'.relationShape = v.relationShape :=
        Json.relationShape_congr (h _ (by simp [Role.keys])) (h _ (by simp [Role.keys]))
      rw [step, step, hshape]
  | _ => rfl

end Schema

/-! ## Edits -/

namespace Place

/-- The value of a place with **one thing more that is never read**. -/
inductive Edit : Place → Json → Prop where
  /-- A key that is not read is added, and if it is for the type, the type is not that of a group.
  -/
  | key {p : Place} {before after : List (String × Json)} {key : String} {x : Json}
      (members : p.value = .object (before ++ after)) (unread : key ∉ p.role.keys)
      (type : key = "type" → x ≠ .string "group") : Edit p (.object (before ++ (key, x) :: after))
  /-- An element that means nothing is inserted among the children; there are others already, or the
  node is a group. -/
  | element {p : Place} {before after : List Json} {w : Json}
      (children : p.value.items? "children" = some (before ++ after)) (unmeant : ¬ w.isMeant)
      (others : p.role = .group ∨ before ++ after ≠ []) :
      Edit p (p.value.withChildren (before ++ w :: after))
  /-- A child is edited. -/
  | child {p : Place} {before after : List Json} {w w' : Json}
      (children : p.value.items? "children" = some (before ++ w :: after))
      (edit : Edit (among p.below.2 w) w') : Edit p (p.value.withChildren (before ++ w' :: after))

namespace Edit

/-- An edited child stands for what it stood for. -/
theorem roleOf_eq {F : Type} {s : Schema F} {v v' : Json} (h : (among s v).Edit v') :
    s.roleOf v' = s.roleOf v := by
  cases h with
  | @key _ before after key x members unread type =>
    obtain rfl : v = .object (before ++ after) := members
    -- The type is read of a group, and the name of all that is none.
    have hgroup : (Json.object (before ++ (key, x) :: after)).isGroup =
        (Json.object (before ++ after)).isGroup := by
      refine Json.isGroup_insert fun hkey => ⟨type hkey, fun h => unread ?_⟩
      simp [among, Schema.roleOf_of_isGroup h, Role.keys, hkey]
    refine s.roleOf_congr hgroup fun h => Json.text?_congr (Json.member?_insert_of_ne ?_)
    rintro rfl
    exact unread (Role.name_mem_keys fun hrole => h (Schema.isGroup_of_roleOf hrole))
  | element => exact s.roleOf_withChildren _ _
  | child => exact s.roleOf_withChildren _ _

/-- **One edit changes nothing**. -/
theorem compileAs_eq {p : Place} {v' : Json} (h : p.Edit v') (depth : UInt64) :
    p.schema.filterAs p.role v' depth = p.schema.filterAs p.role p.value depth ∧
      p.schema.messagesAs p.role v' depth = p.schema.messagesAs p.role p.value depth := by
  induction h generalizing depth with
  | @key p before after key x members unread type =>
    have hsame : ∀ other ∈ p.role.keys, (Json.object (before ++ (key, x) :: after)).member? other =
        p.value.member? other := by
      intro other hother
      rw [members]
      exact Json.member?_insert_of_ne fun heq => unread (heq ▸ hother)
    rw [Schema.filterAs_eq, Schema.filterAs_eq, Schema.messagesAs_eq, Schema.messagesAs_eq,
      p.schema.step_congr_keys hsame]
    exact ⟨rfl, rfl⟩
  | @element p before after w children unmeant others =>
    -- A group takes any list of children, a relation any that is as empty as the first.
    have hstep : p.schema.step (p.value.withChildren (before ++ w :: after)) (depth + 1) p.role =
        (p.schema.step p.value (depth + 1) p.role).withChildren (before ++ w :: after) := by
      rcases others with hrole | hne
      · rw [hrole]
        exact p.schema.step_group_withChildren children _ _
      · refine p.schema.step_withChildren children ?_ _ _
        rw [List.isEmpty_eq_false_iff.2 hne, isEmpty_insert]
    refine Schema.compileAs_withChildren children hstep fun {G below bind} _ => ?_
    simp [Schema.filterOf_of_not_isMeant unmeant, Schema.messagesOf_of_not_isMeant unmeant]
  | @child p before after w w' children edit ih =>
    have hempty : (before ++ w' :: after).isEmpty = (before ++ w :: after).isEmpty := by
      rw [isEmpty_insert, isEmpty_insert]
    refine Schema.compileAs_withChildren children (p.schema.step_withChildren children hempty _ _)
      fun {G below bind} hstep => ?_
    -- The child was edited under the schema below the place, which is the one descended to.
    have hbelow : p.below = ⟨G, below⟩ := (Schema.isNested_of_descend hstep).2
    rw [hbelow] at edit ih
    obtain ⟨hfilter, hmessages⟩ := Schema.compileOf_congr edit.roleOf_eq (ih (depth + 1))
    simp only [List.filterMap_append, List.flatMap_append, List.filterMap_cons, List.flatMap_cons,
      hfilter, hmessages, and_self]

end Edit

/-- Payloads that are **edited** into each other: any number of things that are never read are added
and removed. -/
def Edited {F : Type} (s : Schema F) : Json → Json → Prop :=
  Relation.EqvGen fun v v' => (root s v).Edit v'

/-- **What is never read changes nothing**. Payloads that are edited into each other give the same
filter and the same report, at every level and behind every report. -/
theorem compileGroup_of_edited {F : Type} {s : Schema F} {payload payload' : Json}
    (h : Edited s payload payload') (depth : UInt64) (r : Report) :
    s.compileGroup payload' depth r = s.compileGroup payload depth r := by
  induction h with
  | rel v v' edit => exact Schema.compileGroup_congr (edit.compileAs_eq depth) r
  | refl v => rfl
  | symm v v' _ ih => exact ih.symm
  | trans v v' v'' _ _ ih ih' => exact ih'.trans ih

end Place

/-! ## Owners and pets with a note -/

/-- Owners older than thirty with a cat or a dog, with given members in the group and in the node of
the age, and given elements before the age and before the species. -/
def Json.olderWithPetsAnd (ofGroup ofAge : List (String × Json)) (beforeAge beforeSpecies : List Json) :
    Json :=
  .object (("type", .string "group") :: ofGroup ++ [("operation", .string "and"),
    ("children", .array (beforeAge ++ [
      .object (("name", .string "age") :: ofAge ++
        [("operation", .string Operation.greaterThan.token), ("value", .integer 30)]),
      relationNode "pets" .or (beforeSpecies ++
        [ruleNode "species" .oneOf (.array [.string "cat", .string "dog"])])]))])

/-- A note is put into the group, the integer before the age is taken out, the node of the age gets
a type of its own, and a null is put before the species. -/
theorem Place.edited_olderWithPets {F : Type} {s : Schema F} {rule : Rule F}
    (hage : s.find? "age" = some (.rule rule)) :
    Edited s .olderWithPets (.olderWithPetsAnd [("name", .null)] [("type", .string "rule")] []
      [.null]) := by
  have hnote : (root s .olderWithPets).Edit (.olderWithPetsAnd [("name", .null)] [] [.integer 7] []) :=
    @Edit.key _ [("type", _)] _ "name" .null rfl (by simp [root, Role.keys]) nofun
  have hinteger : (root s (.olderWithPetsAnd [("name", .null)] [] [] [])).Edit
      (.olderWithPetsAnd [("name", .null)] [] [.integer 7] []) :=
    @Edit.element (root s _) [] [_, _] (.integer 7) rfl (by decide) (.inl rfl)
  have htype : (among s (.ruleNode "age" .greaterThan (.integer 30))).Edit (.object
      [("name", .string "age"), ("type", .string "rule"), ("operation", .string "greater_than"),
        ("value", .integer 30)]) := by
    have hrole : s.roleOf (.ruleNode "age" .greaterThan (.integer 30)) = .entry (.rule rule) :=
      Schema.roleOf_of_find? Bool.false_ne_true rfl hage
    refine @Edit.key (among s _) [("name", _)] _ "type" _ rfl ?_ (by simp)
    simp [among, hrole, Role.keys]
  have hchild : (root s (.olderWithPetsAnd [("name", .null)] [] [] [])).Edit
      (.olderWithPetsAnd [("name", .null)] [("type", .string "rule")] [] []) :=
    @Edit.child (root s _) [] [_] _ _ rfl htype
  have hnull : (root s (.olderWithPetsAnd [("name", .null)] [("type", .string "rule")] [] [])).Edit
      (.olderWithPetsAnd [("name", .null)] [("type", .string "rule")] [] [.null]) :=
    @Edit.child (root s _) [_] [] _ _ rfl
      (@Edit.element (among s _) [] [_] .null rfl (by decide) (.inr (List.cons_ne_nil _ _)))
  exact .trans _ _ _ (.rel _ _ hnote) (.trans _ _ _ (.symm _ _ (.rel _ _ hinteger))
    (.trans _ _ _ (.rel _ _ hchild) (.rel _ _ hnull)))

/-- Four edits away from the payload for older owners with pets, the filter and the report are the
same. -/
theorem Place.compileGroup_olderWithPetsAnd :
    ∃ s, Declaration.owners.schema = .ok s ∧
      Edited s .olderWithPets (.olderWithPetsAnd [("name", .null)] [("type", .string "rule")] []
        [.null]) ∧
      s.compileGroup (.olderWithPetsAnd [("name", .null)] [("type", .string "rule")] [] [.null]) 0
        .empty = s.compileGroup .olderWithPets 0 .empty :=
  ⟨_, rfl, edited_olderWithPets rfl, compileGroup_of_edited (edited_olderWithPets rfl) 0 .empty⟩

end Criteria
