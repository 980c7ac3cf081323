import Criteria.Proofs.Condition.Monotone
import Criteria.Proofs.Record.Paths

/-! # Arrays with strays
A related collection is meant for an array of objects. An array that also holds something else is
not left out of a record, though: it is related under its key item by item, and each stray among the
items, one that is no object, gives a record without anything in it. Such a record passes no rule
and no relation, so it is noticed only by a relation whose children ask for nothing.

* `Json.HoldsObjects`: the member under a key is an array of objects and of nothing else.
* `Json.itemRecord`: the record that an item of an array gives.
* `Record.LeavesOut`: nothing is related under a key, and no relation over it passes.
* `Condition.AsksNothing`: a record that holds nothing passes.

Main statements: `Record.related_item_by_item`, what is related under a key at the end of a path,
and when nothing is; `Record.not_leavesOut_integer`, an array of one integer is not left out. -/

namespace Criteria

namespace Json

/-- The member under a key is an array, **made only of objects**. -/
def HoldsObjects (v : Json) (key : String) : Prop :=
  ∃ items, v.member? key = some (.array items) ∧ ∀ x ∈ items, x.object?.isSome

/-- The **record of an item**: that of the object that it is, or else one that holds nothing. -/
def itemRecord (x : Json) : Record := if x.object?.isSome then Record.ofJson x else Record.empty

/-- An object among the items becomes its own record. -/
theorem itemRecord_of_object {x : Json} (h : x.object?.isSome) : x.itemRecord = Record.ofJson x := by
  rw [itemRecord, if_pos h]

/-- A stray becomes an empty record. -/
theorem itemRecord_of_stray {x : Json} (h : ¬ x.object?.isSome) : x.itemRecord = Record.empty := by
  rw [itemRecord, if_neg h]

/-- Every value is made a record as an item is. -/
theorem ofJson_eq_itemRecord (x : Json) : Record.ofJson x = x.itemRecord := by
  cases x with
  | object members => exact (itemRecord_of_object rfl).symm
  | _ => exact Record.ofJson.eq_def _

end Json

/-! ## What a record passes that holds nothing -/

namespace Condition

/-- The condition **asks for nothing**: it passes although no rule and no relation in it does. -/
inductive AsksNothing : Condition → Prop where
  /-- A group of which every child asks for nothing, if there are any. -/
  | all {children : List Condition} (each : ∀ child ∈ children, AsksNothing child) :
      AsksNothing (group .and children)
  /-- A group of which some child asks for nothing. -/
  | any {children : List Condition} {child : Condition} (mem : child ∈ children)
      (nothing : AsksNothing child) : AsksNothing (group .or children)

/-- A record that holds nothing passes what asks for nothing, and all else it fails. -/
theorem adheres_empty_iff (c : Condition) :
    c.toFilter.adheres Record.empty ↔ c.AsksNothing := by
  induction c with
  | group c children ih =>
    rw [adheres_group]
    cases c with
    | and =>
      rw [Combinator.join_and, List.all_eq_true]
      constructor
      · intro h
        exact .all fun child hchild => (ih child hchild).1 (h child hchild)
      · rintro ⟨each⟩
        exact fun child hchild => (ih child hchild).2 (each child hchild)
    | or =>
      rw [Combinator.join_or, List.any_eq_true]
      constructor
      · rintro ⟨child, hchild, h⟩
        exact .any hchild ((ih child hchild).1 h)
      · intro h
        cases h with
        | any mem nothing => exact ⟨_, mem, (ih _ mem).2 nothing⟩
  -- A rule reads nothing of an empty record, and a relation relates nothing.
  | rule field o v =>
    rw [adheres_rule, Record.field_empty, Operation.holds_none]
    exact iff_of_false Bool.false_ne_true nofun
  | relation field c children =>
    rw [adheres_relation, Record.related_empty, List.any_nil]
    exact iff_of_false Bool.false_ne_true nofun

end Condition

/-! ## What is related under a key -/

namespace Record

open Json (DistinctKeys Reaches)

/-- A record **leaves out** a key: nothing is related under it, and so no relation over it passes,
whatever its combinator and its children are. -/
structure LeavesOut (r : Record) (key : String) : Prop where
  /-- Nothing is related. -/
  related : r.related key = []
  /-- No relation passes. -/
  relation : ∀ c children, (Record.relation key c children).adheres r = false

variable {v w : Json} {key : String}

/-- A record passes a relation if a related record passes the group of the children. -/
theorem adheres_relation (key : String) (c : Combinator) (children : List (Filter Record))
    (r : Record) :
    (relation key c children).adheres r = (r.related key).any (Filter.group c children).adheres :=
  Filter.adheres_relate _ c children r

/-- A key is left out exactly if nothing is related under it: no relation over nothing passes. -/
theorem leavesOut_iff {r : Record} : r.LeavesOut key ↔ r.related key = [] := by
  refine ⟨LeavesOut.related, fun h => ⟨h, fun c children => ?_⟩⟩
  rw [adheres_relation, h, List.any_nil]

/-- A key that does not hold an array of objects is left out exactly if it holds no array at all. -/
theorem leavesOut_iff_of_not_holdsObjects (h : w.DistinctKeys) (hkey : ¬ w.HoldsObjects key) :
    (ofJson w).LeavesOut key ↔ ∀ items, w.member? key ≠ some (.array items) := by
  rw [leavesOut_iff, related_ofJson]
  constructor
  · intro hnothing items hmember
    -- An array without items would be one of objects.
    rw [h.elements_of_member? hmember, List.map_eq_nil_iff] at hnothing
    subst hnothing
    exact hkey ⟨[], hmember, List.forall_mem_nil _⟩
  · intro hmember
    rw [h.elements_eq_nil hmember, List.map_nil]

/-- A relation passes if a related object passes the children, joined, or if there is a stray and
they pass a record that holds nothing. -/
theorem adheres_relation_ofJson (w : Json) (key : String) (c : Combinator)
    (children : List (Filter Record)) :
    (relation key c children).adheres (ofJson w) ↔
      (∃ x ∈ w.elements key, x.object?.isSome ∧ (Filter.group c children).adheres (ofJson x)) ∨
      ((∃ x ∈ w.elements key, ¬ x.object?.isSome) ∧ (Filter.group c children).adheres empty) := by
  rw [adheres_relation, related_ofJson, List.any_map, List.any_eq_true]
  constructor
  · rintro ⟨x, hx, hpass⟩
    by_cases hobject : x.object?.isSome
    · exact .inl ⟨x, hx, hobject, hpass⟩
    · rw [Function.comp_apply, Json.ofJson_eq_itemRecord, Json.itemRecord_of_stray hobject] at hpass
      exact .inr ⟨⟨x, hx, hobject⟩, hpass⟩
  · rintro (⟨x, hx, -, hpass⟩ | ⟨⟨x, hx, hstray⟩, hpass⟩)
    · exact ⟨x, hx, hpass⟩
    · refine ⟨x, hx, ?_⟩
      rw [Function.comp_apply, Json.ofJson_eq_itemRecord, Json.itemRecord_of_stray hstray]
      exact hpass

/-- Over an array of strays alone a relation passes exactly if its children, joined, ask for
nothing. -/
theorem adheres_relation_of_strays (hsome : w.elements key ≠ [])
    (hstrays : ∀ x ∈ w.elements key, ¬ x.object?.isSome) (c : Combinator)
    (children : List Condition) :
    (Condition.relation key c children).toFilter.adheres (ofJson w) ↔
      (Condition.group c children).AsksNothing := by
  have hstray : ∃ x ∈ w.elements key, ¬ x.object?.isSome := by
    obtain ⟨x, hx⟩ := List.exists_mem_of_ne_nil _ hsome
    exact ⟨x, hx, hstrays x hx⟩
  have hobject : ¬ ∃ x ∈ w.elements key, x.object?.isSome ∧
      (Filter.group c (Condition.toFilters children)).adheres (ofJson x) := by
    rintro ⟨x, hx, hobject, -⟩
    exact hstrays x hx hobject
  rw [← Condition.adheres_empty_iff, Condition.toFilter, Condition.toFilter,
    adheres_relation_ofJson, or_iff_right hobject, and_iff_right hstray]

/-- **What is related, item by item**. At the end of every path and under every key: unless the key
holds an array of objects, it is left out exactly if it holds no array. An array under the key is
related with all its items, of which those that are no objects give records that hold nothing. A
relation passes by an object among the items, or by a stray and a record that holds nothing; so over
strays alone it passes exactly if it asks for nothing. -/
theorem related_item_by_item (h : v.DistinctKeys) {path : List (String × Nat)}
    (hw : v.Reaches path w) (key : String) :
    ∃ r, (ofJson v).at? path = some r ∧
      (¬ w.HoldsObjects key →
        (r.LeavesOut key ↔ ∀ items, w.member? key ≠ some (.array items))) ∧
      (∀ items, w.member? key = some (.array items) →
        r.related key = items.map Json.itemRecord) ∧
      (∀ c children, (relation key c children).adheres r ↔
        (∃ x ∈ w.elements key, x.object?.isSome ∧ (Filter.group c children).adheres (ofJson x)) ∨
        ((∃ x ∈ w.elements key, ¬ x.object?.isSome) ∧
          (Filter.group c children).adheres empty)) ∧
      (w.elements key ≠ [] → (∀ x ∈ w.elements key, ¬ x.object?.isSome) →
        ∀ c children, (Condition.relation key c children).toFilter.adheres r ↔
          (Condition.group c children).AsksNothing) := by
  have hdistinct : w.DistinctKeys := hw.distinctKeys h
  refine ⟨ofJson w, (at?_ofJson_eq_some_iff h).2 ⟨w, hw, rfl⟩,
    leavesOut_iff_of_not_holdsObjects hdistinct, fun items hmember => ?_,
    adheres_relation_ofJson w key, adheres_relation_of_strays⟩
  rw [related_ofJson, hdistinct.elements_of_member? hmember]
  exact List.map_congr_left fun x _ => Json.ofJson_eq_itemRecord x

end Record

/-- A club of one owner, whose pets are an integer and a cat. -/
def Json.integerAndCat : Json :=
  .object [("owners", .array [.object [("pets", .array [.integer 7,
    .object [("species", .string "cat")]])]])]

/-- The club has no key twice, nor has anything in it. -/
theorem Json.distinctKeys_integerAndCat : integerAndCat.DistinctKeys := by
  have hcat : (object [("species", .string "cat")]).DistinctKeys :=
    .object (by decide) (List.forall_mem_singleton.2 (.atom rfl rfl))
  have hpets := DistinctKeys.array
    (List.forall_mem_cons.2 ⟨.atom (v := .integer 7) rfl rfl, List.forall_mem_singleton.2 hcat⟩)
  have howner : (object [("pets", _)]).DistinctKeys :=
    .object (by decide) (List.forall_mem_singleton.2 hpets)
  have howners := DistinctKeys.array (List.forall_mem_singleton.2 howner)
  exact .object (by decide) (List.forall_mem_singleton.2 howners)

namespace Record

/-- The integer gives a record that holds nothing, before that of the cat. -/
theorem related_integerAndCat :
    ∃ owner r, Json.integerAndCat.DistinctKeys ∧
      Json.integerAndCat.Reaches [("owners", 0)] owner ∧ ¬ owner.HoldsObjects "pets" ∧
      (ofJson .integerAndCat).at? [("owners", 0)] = some r ∧ ¬ r.LeavesOut "pets" ∧
      r.related "pets" = [empty, mk [("species", .text "cat")] []] ∧
      (relation "pets" .and []).adheres r := by
  have howner : Json.integerAndCat.Reaches [("owners", 0)] _ := .step rfl rfl .here
  obtain ⟨r, hr, hleaves, hrelated, hrelation, -⟩ :=
    related_item_by_item Json.distinctKeys_integerAndCat howner "pets"
  have hstray : ¬ Json.HoldsObjects (.object [("pets", .array [.integer 7,
      .object [("species", .string "cat")]])]) "pets" := by
    rintro ⟨_, ⟨⟩, hobjects⟩
    exact absurd (hobjects _ (.head _)) (by decide)
  refine ⟨_, r, Json.distinctKeys_integerAndCat, howner, hstray, hr, ?_, ?_, ?_⟩
  · intro hnothing
    exact (hleaves hstray).1 hnothing _ rfl
  · exact hrelated _ rfl
  · exact (hrelation .and []).2 (.inr ⟨⟨.integer 7, .head _, by decide⟩, rfl⟩)

/-- **An array of one integer is not left out**: one record is related, and it passes a relation
that asks for nothing. -/
theorem not_leavesOut_integer :
    ∃ v : Json, v = .object [("pets", .array [.integer 7])] ∧ v.DistinctKeys ∧
      ¬ v.HoldsObjects "pets" ∧ (ofJson v).related "pets" = [empty] ∧
      (relation "pets" .and []).adheres (ofJson v) ∧ ¬ (ofJson v).LeavesOut "pets" := by
  refine ⟨_, rfl, ?_, ?_, rfl, rfl, ?_⟩
  · exact .object (by decide) (List.forall_mem_singleton.2
      (.array (List.forall_mem_singleton.2 (.atom rfl rfl))))
  · rintro ⟨_, ⟨⟩, hobjects⟩
    exact absurd (hobjects _ (.head _)) (by decide)
  · rintro ⟨hnothing, -⟩
    cases hnothing

end Record

end Criteria
