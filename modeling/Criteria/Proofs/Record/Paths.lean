import Criteria.Proofs.Compile.Binding
import Criteria.Proofs.Record
import Mathlib.Data.List.Forall2
import Mathlib.Data.List.Perm.Basic

/-! # Records along paths
The record of a JSON value is read by names and positions, and it gives back what the value holds in
the same place, however deep. Keys have to be distinct, as they are in JSON text that has been
parsed; in which order the members of an object stand then makes no difference.

* `Json.DistinctKeys`: no object of the value, at any nesting, has two members under one key.
* `Json.Reaches`: the value at the end of a path of keys and positions.
* `Json.Shuffled`: the same value with the members of its objects in another order.
* `Record.Reads`: a record gives back what the members of a value hold.
* `Record.ReadsLike`: two records that read the same at the end of every path.

Main statement: `Record.ofJson_reads_back`. -/

namespace Criteria

namespace Json

/-! ## Distinct keys -/

/-- **Distinct keys** in every object of a value. -/
inductive DistinctKeys : Json → Prop where
  /-- A value that is neither an array nor an object. -/
  | atom {v : Json} (noItems : v.array? = none) (noMembers : v.object? = none) : DistinctKeys v
  /-- An array of such values. -/
  | array {items : List Json} (each : ∀ v ∈ items, DistinctKeys v) : DistinctKeys (array items)
  /-- An object of such values, each under a key of its own. -/
  | object {members : List (String × Json)} (distinct : (members.map Prod.fst).Nodup)
      (each : ∀ m ∈ members, DistinctKeys m.2) : DistinctKeys (object members)

namespace DistinctKeys

variable {v w : Json} {key : String}

/-- Keys are distinct in every member. -/
theorem of_member? (h : v.DistinctKeys) (hw : v.member? key = some w) : w.DistinctKeys := by
  cases h with
  | @atom v _ noMembers =>
    cases v with
    | object members => cases noMembers
    | _ => cases hw
  | array => cases hw
  | object _ each =>
    obtain ⟨before, after, rfl, -⟩ := List.lookup_eq_some_iff.1 hw
    exact each (key, w) (by simp)

/-- Keys are distinct in every item under a key. -/
theorem of_mem (h : v.DistinctKeys) {items : List Json} (hv : v.member? key = some (.array items))
    (hw : w ∈ items) : w.DistinctKeys := by
  cases h.of_member? hv with
  | atom noItems => cases noItems
  | array each => exact each w hw

/-- With distinct keys it is the member under the key that is read. -/
theorem first?_eq (h : v.DistinctKeys) {α : Type} (read : Json → Option α) :
    v.first? read key = (v.member? key).bind read := by
  cases h with
  | @atom v _ noMembers =>
    cases v with
    | object members => cases noMembers
    | _ => rfl
  | array => rfl
  | object distinct => exact first?_of_nodup distinct

/-- With distinct keys it is the member under the key that is read as a scalar. -/
theorem scalar?_eq (h : v.DistinctKeys) : v.scalar? key = (v.member? key).bind Scalar.ofJson? :=
  h.first?_eq _

/-- With distinct keys the elements are the items under the key. -/
theorem elements_eq (h : v.DistinctKeys) : v.elements key = (v.items? key).getD [] := by
  rw [elements, h.first?_eq, items?]

/-- With distinct keys an array under the key has its items as the elements. -/
theorem elements_of_member? (h : v.DistinctKeys) {items : List Json}
    (hv : v.member? key = some (.array items)) : v.elements key = items := by
  rw [h.elements_eq, items?_eq_some_iff.2 hv]
  rfl

/-- Without an array under the key there are no elements. -/
theorem elements_eq_nil (h : v.DistinctKeys)
    (hv : ∀ items, v.member? key ≠ some (.array items)) : v.elements key = [] := by
  have hitems : v.items? key = none :=
    Option.eq_none_iff_forall_ne_some.2 fun items hitems => hv items (items?_eq_some_iff.1 hitems)
  rw [h.elements_eq, hitems]
  rfl

/-- Only an array under the key has elements, and these are its items. -/
theorem exists_items_of_mem_elements (h : v.DistinctKeys) (hw : w ∈ v.elements key) :
    ∃ items, v.member? key = some (.array items) ∧ v.elements key = items := by
  by_cases hitems : ∃ items, v.member? key = some (.array items)
  · obtain ⟨items, hmember⟩ := hitems
    exact ⟨items, hmember, h.elements_of_member? hmember⟩
  · rw [h.elements_eq_nil (not_exists.1 hitems)] at hw
    cases hw

/-- Keys are distinct in every element. -/
theorem of_mem_elements (h : v.DistinctKeys) (hw : w ∈ v.elements key) : w.DistinctKeys := by
  obtain ⟨items, hmember, helements⟩ := h.exists_items_of_mem_elements hw
  exact h.of_mem hmember (helements ▸ hw)

/-- An element at a position is the item there of the array under the key. -/
theorem getElem?_elements_eq_some_iff (h : v.DistinctKeys) {i : Nat} :
    (v.elements key)[i]? = some w ↔
      ∃ items, v.member? key = some (.array items) ∧ items[i]? = some w := by
  constructor
  · intro hw
    obtain ⟨items, hmember, helements⟩ :=
      h.exists_items_of_mem_elements (List.mem_of_getElem? hw)
    exact ⟨items, hmember, helements ▸ hw⟩
  · rintro ⟨items, hmember, hw⟩
    rw [h.elements_of_member? hmember, hw]

end DistinctKeys

/-! ## Paths -/

/-- A path **reaches** a value: each of its steps goes to a member that is an array, and there to
the item at a position. -/
inductive Reaches : Json → List (String × Nat) → Json → Prop where
  /-- The empty path stays where it is. -/
  | here {v : Json} : Reaches v [] v
  /-- A step to an item of an array under a key, and the rest of the path from there. -/
  | step {v w u : Json} {key : String} {i : Nat} {path : List (String × Nat)} {items : List Json}
      (member : v.member? key = some (.array items)) (item : items[i]? = some w)
      (rest : Reaches w path u) : Reaches v ((key, i) :: path) u

/-- Keys are distinct in all that a path reaches. -/
theorem Reaches.distinctKeys {v w : Json} {path : List (String × Nat)} (h : v.Reaches path w)
    (hv : v.DistinctKeys) : w.DistinctKeys := by
  induction h with
  | here => exact hv
  | step member item _ ih => exact ih (hv.of_mem member (List.mem_of_getElem? item))

/-! ## Other orders -/

/-- With distinct keys, what stands under a key is what the key stands beside. -/
theorem lookup_eq_some_iff_mem {β : Type} {l : List (String × β)} (h : (l.map Prod.fst).Nodup)
    {key : String} {b : β} : l.lookup key = some b ↔ (key, b) ∈ l := by
  induction l with
  | nil => simp
  | cons m rest ih =>
    obtain ⟨name, c⟩ := m
    obtain ⟨hnot, hrest⟩ := List.nodup_cons.1 h
    by_cases hname : key = name
    · subst hname
      have hfar : (key, b) ∉ rest := fun hmem => hnot (List.mem_map.2 ⟨_, hmem, rfl⟩)
      simp [hfar, eq_comm]
    · simp [List.lookup_cons, beq_eq_false_iff_ne.2 hname, hname, ih hrest]

/-- With distinct keys the order of a list makes no difference to what is looked up. -/
theorem lookup_eq_of_perm {β : Type} {l l' : List (String × β)} (h : (l.map Prod.fst).Nodup)
    (hperm : l.Perm l') (key : String) : l.lookup key = l'.lookup key := by
  have h' : (l'.map Prod.fst).Nodup := (hperm.map Prod.fst).nodup_iff.1 h
  ext b
  rw [lookup_eq_some_iff_mem h, lookup_eq_some_iff_mem h', hperm.mem_iff]

/-- **Shuffled**: the same value with the members of any number of its objects, at any nesting, in
another order. An entry is a key with the values under it before and after. -/
inductive Shuffled : Json → Json → Prop where
  /-- A value as it is. -/
  | refl (v : Json) : Shuffled v v
  /-- An array, item by item. -/
  | array {pairs : List (Json × Json)} (each : ∀ p ∈ pairs, Shuffled p.1 p.2) :
      Shuffled (array (pairs.map Prod.fst)) (array (pairs.map Prod.snd))
  /-- An object, entry by entry, and then in another order. -/
  | object {entries : List (String × Json × Json)} {members : List (String × Json)}
      (each : ∀ e ∈ entries, Shuffled e.2.1 e.2.2)
      (order : (entries.map fun e => (e.1, e.2.2)).Perm members) :
      Shuffled (object (entries.map fun e => (e.1, e.2.1))) (object members)

namespace Shuffled

variable {v v' w w' : Json}

/-- Shuffling keeps keys distinct. -/
theorem distinctKeys (h : v.Shuffled v') (hv : v.DistinctKeys) : v'.DistinctKeys := by
  induction h with
  | refl v => exact hv
  | array each ih =>
    cases hv with
    | atom noItems => cases noItems
    | array hitems =>
      refine .array (List.forall_mem_map.2 fun p hp => ih p hp ?_)
      exact hitems p.1 (List.mem_map_of_mem hp)
  | @object entries members each order ih =>
    cases hv with
    | atom _ noMembers => cases noMembers
    | object distinct hmembers =>
      -- The keys are the same in another order, and every member is shuffled by induction.
      have hkeys : (entries.map fun e => (e.1, e.2.2)).map Prod.fst =
          (entries.map fun e => (e.1, e.2.1)).map Prod.fst := by
        rw [List.map_map, List.map_map]
        rfl
      refine .object ((order.map Prod.fst).nodup_iff.1 (hkeys ▸ distinct)) fun m hm => ?_
      obtain ⟨e, he, rfl⟩ := List.mem_map.1 (order.mem_iff.2 hm)
      exact ih e he (hmembers _ (List.mem_map_of_mem he))

/-- Under a key stands no member in either, or in both the same member, shuffled. -/
theorem member?_rel (h : v.Shuffled v') (hv : v.DistinctKeys) (key : String) :
    (v.member? key = none ∧ v'.member? key = none) ∨
      ∃ w w', v.member? key = some w ∧ v'.member? key = some w' ∧ w.Shuffled w' := by
  have hv' := h.distinctKeys hv
  cases h with
  | refl =>
    cases hmember : v.member? key with
    | none => exact .inl ⟨rfl, rfl⟩
    | some w => exact .inr ⟨w, w, rfl, rfl, .refl w⟩
  | array => exact .inl ⟨rfl, rfl⟩
  | @object entries members each order =>
    cases hv' with
    | atom _ noMembers => cases noMembers
    | object distinct =>
      rw [member?_object, member?_object,
        ← lookup_eq_of_perm ((order.map Prod.fst).nodup_iff.2 distinct) order]
      -- The order is dealt with: entry by entry the keys are the same now on both sides.
      clear distinct order hv
      induction entries with
      | nil => exact .inl ⟨rfl, rfl⟩
      | cons e entries ih =>
        rw [List.map_cons, List.map_cons, List.lookup_cons, List.lookup_cons]
        cases key == e.1 with
        | true => exact .inr ⟨_, _, rfl, rfl, each e (by simp)⟩
        | false => exact ih fun e' he' => each e' (List.mem_cons_of_mem e he')

/-- Text and numbers have no members to shuffle. -/
theorem ofJson?_eq (h : w.Shuffled w') : Scalar.ofJson? w = Scalar.ofJson? w' := by
  cases h <;> rfl

/-- A scalar under a key stays under the key. -/
theorem scalar?_eq (h : v.Shuffled v') (hv : v.DistinctKeys) (key : String) :
    v.scalar? key = v'.scalar? key := by
  rw [hv.scalar?_eq, (h.distinctKeys hv).scalar?_eq]
  obtain ⟨hmember, hmember'⟩ | ⟨w, w', hmember, hmember', hw⟩ := h.member?_rel hv key
  · rw [hmember, hmember']
  · rw [hmember, hmember']
    exact hw.ofJson?_eq

/-- The items of an array stay where they are, each of them shuffled. -/
theorem items_forall₂ (h : w.Shuffled w') :
    List.Forall₂ Shuffled (w.array?.getD []) (w'.array?.getD []) := by
  cases h with
  | refl => exact List.forall₂_same.2 fun u _ => .refl u
  | array each =>
    exact List.forall₂_map_left_iff.2 (List.forall₂_map_right_iff.2 (List.forall₂_same.2 each))
  | object => exact .nil

/-- The elements under a key stay where they are, each of them shuffled. -/
theorem elements_forall₂ (h : v.Shuffled v') (hv : v.DistinctKeys) (key : String) :
    List.Forall₂ Shuffled (v.elements key) (v'.elements key) := by
  rw [hv.elements_eq, (h.distinctKeys hv).elements_eq, items?, items?]
  obtain ⟨hmember, hmember'⟩ | ⟨w, w', hmember, hmember', hw⟩ := h.member?_rel hv key
  · rw [hmember, hmember']
    exact .nil
  · rw [hmember, hmember']
    exact hw.items_forall₂

end Shuffled

/-! ## What a scalar member holds -/

/-- A value is read as the scalar that it holds, and as no other. -/
theorem holds_iff {v : Json} {a : Scalar} : v.Holds a ↔ Scalar.ofJson? v = some a := by
  refine ⟨fun h => ?_, holds_of_ofJson?⟩
  cases h with
  | text => rfl
  | int n =>
    rw [Scalar.ofJson?, if_pos ⟨n.minValue_le_toInt, n.toInt_le⟩, Int64.ofInt_toInt]
  | float => rfl
  | wide h =>
    rw [Scalar.ofJson?, if_neg]
    omega

end Json

namespace Record

open Json (DistinctKeys Reaches Shuffled)

variable {v v' w : Json}

/-! ## Where a path leads -/

/-- A path leads to a record exactly if it reaches a value, and then to the record of that value. -/
theorem at?_ofJson_eq_some_iff (h : v.DistinctKeys) {path : List (String × Nat)} {r : Record} :
    (ofJson v).at? path = some r ↔ ∃ w, v.Reaches path w ∧ r = ofJson w := by
  induction path generalizing v with
  | nil =>
    constructor
    · rintro ⟨⟩
      exact ⟨v, .here, rfl⟩
    · rintro ⟨w, ⟨⟩, rfl⟩
      rfl
  | cons s path ih =>
    -- A step of the path goes to an element, which is an item of the array under the key.
    obtain ⟨key, i⟩ := s
    rw [at?, related_ofJson, List.getElem?_map, Option.bind_map, Option.bind_eq_some_iff]
    constructor
    · rintro ⟨u, hu, hr⟩
      obtain ⟨items, hmember, hitem⟩ := h.getElem?_elements_eq_some_iff.1 hu
      obtain ⟨w, hw, rfl⟩ := (ih (h.of_mem_elements (List.mem_of_getElem? hu))).1 hr
      exact ⟨w, .step hmember hitem hw, rfl⟩
    · rintro ⟨w, hw, rfl⟩
      cases hw with
      | @step _ u _ _ _ _ items member item rest =>
        have hu : u.DistinctKeys := h.of_mem member (List.mem_of_getElem? item)
        have hitem := h.getElem?_elements_eq_some_iff.2 ⟨items, member, item⟩
        exact ⟨u, hitem, (ih hu).2 ⟨w, rest, rfl⟩⟩

/-! ## What a record holds of a value -/

/-- A record **reads** a value: its fields are the text and the numbers among the members, and under
the name of an array it relates as many records as the array has items. -/
structure Reads (r : Record) (w : Json) : Prop where
  /-- A field holds what the member holds. -/
  field : ∀ key a, r.field key = some a ↔ ∃ u, w.member? key = some u ∧ u.Holds a
  /-- Without a member that is text or a number there is no field. -/
  noField : ∀ key, r.field key = none ↔ ∀ u, w.member? key = some u → ¬ u.isScalar
  /-- An array gives one record for each item. -/
  related : ∀ key items, w.member? key = some (.array items) →
    (r.related key).length = items.length
  /-- Without a member that is an array nothing is related. -/
  noRelated : ∀ key, (∀ items, w.member? key ≠ some (.array items)) → r.related key = []

/-- The record of a value with distinct keys reads the value. -/
theorem reads_ofJson (h : w.DistinctKeys) : (ofJson w).Reads w where
  field key a := by
    rw [field_ofJson, h.scalar?_eq, Option.bind_eq_some_iff]
    simp only [Json.holds_iff]
  noField key := by
    rw [field_ofJson, h.scalar?_eq, Option.bind_eq_none_iff]
    simp only [← Scalar.isSome_ofJson?, Option.not_isSome_iff_eq_none]
  related key items hmember := by
    rw [related_ofJson, List.length_map, h.elements_of_member? hmember]
  noRelated key hmember := by
    rw [related_ofJson, h.elements_eq_nil hmember]
    rfl

/-! ## The order of members -/

/-- Two records **read alike**: a path leads to a record in both or in neither, and under each name
that record has the same reading and the same number of related records in both. -/
def ReadsLike (r r' : Record) : Prop :=
  ∀ path key, (r.at? path).map (·.field key) = (r'.at? path).map (·.field key) ∧
    (r.at? path).map (fun x => (x.related key).length) =
      (r'.at? path).map fun x => (x.related key).length

/-- What is the same for a value and any shuffling of it is the same at the end of every path. -/
theorem map_at?_of_shuffled {β : Type} {observe : Record → β}
    (hobserve : ∀ w w' : Json, w.Shuffled w' → w.DistinctKeys →
      observe (ofJson w) = observe (ofJson w'))
    (h : v.Shuffled v') (hv : v.DistinctKeys) (path : List (String × Nat)) :
    ((ofJson v).at? path).map observe = ((ofJson v').at? path).map observe := by
  induction path generalizing v v' with
  | nil => exact congrArg some (hobserve v v' h hv)
  | cons s path ih =>
    obtain ⟨key, i⟩ := s
    have helements := h.elements_forall₂ hv key
    rw [at?, at?, related_ofJson, related_ofJson, List.getElem?_map, List.getElem?_map]
    by_cases hi : i < (v.elements key).length
    · have hi' : i < (v'.elements key).length := helements.length_eq ▸ hi
      have hdistinct := hv.of_mem_elements (List.getElem_mem hi)
      rw [List.getElem?_eq_getElem hi, List.getElem?_eq_getElem hi']
      exact ih (helements.get hi hi') hdistinct
    · have hi' : ¬ i < (v'.elements key).length := helements.length_eq ▸ hi
      rw [List.getElem?_eq_none (Nat.le_of_not_lt hi), List.getElem?_eq_none (Nat.le_of_not_lt hi')]

/-- The records of a value and of a shuffling of it read alike. -/
theorem readsLike_of_shuffled (h : v.Shuffled v') (hv : v.DistinctKeys) :
    (ofJson v).ReadsLike (ofJson v') := by
  refine fun path key => ⟨map_at?_of_shuffled ?_ h hv path, map_at?_of_shuffled ?_ h hv path⟩
  · intro w w' hw hdistinct
    rw [field_ofJson, field_ofJson, hw.scalar?_eq hdistinct]
  · intro w w' hw hdistinct
    rw [related_ofJson, related_ofJson, List.length_map, List.length_map,
      (hw.elements_forall₂ hdistinct key).length_eq]

/-- **A record reads back what the JSON value holds.** A path leads to a record exactly if each of
its steps goes to a member that is an array, and there to an item; the record it leads to reads the
value reached. In which order members stand makes no difference to what is read. -/
theorem ofJson_reads_back (h : v.DistinctKeys) :
    (∀ path r, (ofJson v).at? path = some r ↔ ∃ w, v.Reaches path w ∧ r = ofJson w) ∧
      (∀ path w, v.Reaches path w → (ofJson w).Reads w) ∧
      ∀ v', v.Shuffled v' → (ofJson v).ReadsLike (ofJson v') := by
  refine ⟨fun _ _ => at?_ofJson_eq_some_iff h, fun _ _ hw => ?_, fun _ hv' => ?_⟩
  · exact reads_ofJson (hw.distinctKeys h)
  · exact readsLike_of_shuffled hv' h

end Record

/-- An owner without an age, of a bird and of a cat with one. -/
def Json.birdAndOldCat : Json :=
  .object [("age", .null), ("pets", .array [.object [("species", .string "bird")],
    .object [("species", .string "cat"), ("age", .integer 17)]])]

/-- The same with the members of the owner and of the cat the other way round. -/
def Json.oldCatAndBird : Json :=
  .object [("pets", .array [.object [("species", .string "bird")],
    .object [("age", .integer 17), ("species", .string "cat")]]), ("age", .null)]

/-- The owner of the bird and the cat has no key twice, nor have the pets. -/
theorem Json.distinctKeys_birdAndOldCat : birdAndOldCat.DistinctKeys := by
  have hnull : null.DistinctKeys := .atom rfl rfl
  have htext (s : String) : (string s).DistinctKeys := .atom rfl rfl
  have hbird : (object [("species", .string "bird")]).DistinctKeys :=
    .object (by decide) (List.forall_mem_singleton.2 (htext _))
  have hcat : (object [("species", .string "cat"), ("age", .integer 17)]).DistinctKeys :=
    .object (by decide)
      (List.forall_mem_cons.2 ⟨htext _, List.forall_mem_singleton.2 (.atom rfl rfl)⟩)
  have hpets := DistinctKeys.array
    (List.forall_mem_cons.2 ⟨hbird, List.forall_mem_singleton.2 hcat⟩)
  exact .object (by decide) (List.forall_mem_cons.2 ⟨hnull, List.forall_mem_singleton.2 hpets⟩)

/-- The owner and the cat are shuffled, each in its own way. -/
theorem Json.shuffled_birdAndOldCat : birdAndOldCat.Shuffled oldCatAndBird := by
  have hcat : (object [("species", .string "cat"), ("age", .integer 17)]).Shuffled
      (object [("age", .integer 17), ("species", .string "cat")]) :=
    @Shuffled.object [("species", _, _), ("age", _, _)] _
      (List.forall_mem_cons.2 ⟨.refl _, List.forall_mem_singleton.2 (.refl _)⟩) (.swap _ _ _)
  have hpets := @Shuffled.array [(_, _), (_, _)]
    (List.forall_mem_cons.2 ⟨.refl (object [("species", .string "bird")]),
      List.forall_mem_singleton.2 hcat⟩)
  exact @Shuffled.object [("age", _, _), ("pets", _, _)] _
    (List.forall_mem_cons.2 ⟨.refl _, List.forall_mem_singleton.2 hpets⟩) (.swap _ _ _)

/-- The cat is the second of the pets, with its species and its age, in either order of the
members. -/
theorem Record.ofJson_reads_back_cat :
    Json.birdAndOldCat.DistinctKeys ∧ Json.birdAndOldCat.Shuffled .oldCatAndBird ∧
      (ofJson .birdAndOldCat).ReadsLike (ofJson .oldCatAndBird) ∧
      ∃ cat, (ofJson .birdAndOldCat).at? [("pets", 1)] = some cat ∧
        cat.field "species" = some (.text "cat") ∧ cat.field "age" = some (.int 17) ∧
        cat.related "pets" = [] := by
  obtain ⟨hpaths, hreads, horder⟩ := ofJson_reads_back Json.distinctKeys_birdAndOldCat
  have hcat : Json.birdAndOldCat.Reaches [("pets", 1)] _ := .step rfl rfl .here
  refine ⟨Json.distinctKeys_birdAndOldCat, Json.shuffled_birdAndOldCat,
    horder _ Json.shuffled_birdAndOldCat, _, (hpaths _ _).2 ⟨_, hcat, rfl⟩, ?_, ?_, ?_⟩
  · exact ((hreads _ _ hcat).field _ _).2 ⟨_, rfl, .text "cat"⟩
  · exact ((hreads _ _ hcat).field _ _).2 ⟨_, rfl, .int 17⟩
  · exact (hreads _ _ hcat).noRelated _ fun _ h => nomatch h

end Criteria
