import Criteria.Proofs.Compile.Objects

/-! # What rules are bound to
Each time a schema binds a rule, it hands the rule an operation and an operand. The operand is
always one that the operation can use: a list for `Operation.oneOf` and one scalar for every other
operation, with exactly the text and the numbers that the node holds (`Constraint.Usable`). That the
rule offers the operation is not asked for a filter to be made, it is only reported; so it is known
where nothing is reported, and then every comparison has an answer of its own.

* `Json.Holds`: the scalar that a JSON value is.
* `Constraint.Usable`: the operands that may be bound for a value.
* `Schema.BoundBy`: a filter is put together from bound rules, each of them with a property.
* `Operation.accepts?`: the comparisons that have an answer of their own, and `Filter.Handled`:
  filters that make no other.

Main statement: `Schema.bound_operands_usable`. -/

namespace Criteria

/-! ## Usable operands -/

/-- The scalar that a JSON value **holds**: text itself, an integer of 64 bits itself, and for any
other number a double. -/
inductive Json.Holds : Json → Scalar → Prop where
  /-- Text. -/
  | text (s : String) : Holds (.string s) (.text s)
  /-- An integer of 64 bits. -/
  | int (n : Int64) : Holds (.integer n.toInt) (.int n)
  /-- A number with a fraction or an exponent. -/
  | float (x : Float) : Holds (.decimal x) (.float x)
  /-- An integer that 64 bits do not hold. -/
  | wide {n : Int} (h : n < Int64.minValue.toInt ∨ Int64.maxValue.toInt < n) :
      Holds (.integer n) (.float (.ofInt n))

/-- A value holds the scalar that it is read as. -/
theorem Json.holds_of_ofJson? {v : Json} {a : Scalar} (h : Scalar.ofJson? v = some a) :
    v.Holds a := by
  cases v with
  | string s =>
    cases h
    exact .text s
  | integer n =>
    -- An integer that 64 bits hold is itself, and any other the nearest double.
    rw [Scalar.ofJson?] at h
    split at h
    · next hrange =>
      cases h
      have hn : (Int64.ofInt n).toInt = n :=
        Int64.toInt_ofInt_of_le hrange.1 (Int.lt_of_le_of_lt hrange.2 (by decide))
      have hholds := Holds.int (Int64.ofInt n)
      rw [hn] at hholds
      exact hholds
    · next hrange =>
      cases h
      refine .wide ?_
      omega
  | decimal x =>
    cases h
    exact .float x
  | _ => cases h

/-- The items of a list that was read are held by the values it was read from. -/
theorem Json.holds_of_mapM_ofJson? {items : List Json} {scalars : List Scalar}
    (h : items.mapM Scalar.ofJson? = some scalars) : List.Forall₂ Json.Holds items scalars := by
  induction items generalizing scalars with
  | nil =>
    cases h
    exact .nil
  | cons v items ih =>
    rw [List.mapM_cons] at h
    obtain ⟨a, ha, h⟩ := Option.bind_eq_some_iff.1 h
    obtain ⟨rest, hrest, h⟩ := Option.bind_eq_some_iff.1 h
    cases h
    exact .cons (holds_of_ofJson? ha) (ih hrest)

/-- An operand is **usable** for an operation and a value, under a constraint. -/
inductive Constraint.Usable (c : Constraint) : Operation → Json → Operand → Prop where
  /-- A list of choices: what the items of the array hold, in their order. -/
  | list {items : List Json} {scalars : List Scalar} (each : List.Forall₂ Json.Holds items scalars)
      (nonempty : c = .dropdown → scalars ≠ []) : Usable c .oneOf (.array items) (.list scalars)
  /-- What the value holds, of the kind that the constraint asks for. -/
  | single {o : Operation} {x : Json} {a : Scalar} (ho : o ≠ .oneOf) (holds : x.Holds a)
      (text : c = .string → ∃ t, a = .text t) (number : c = .number → a.isNumber) :
      Usable c o x (.single a)

/-- The operand that a value gives is usable. -/
theorem Constraint.usable_of_operand {c : Constraint} {o : Operation} {x : Json} {w : Operand}
    (h : c.operand o x = .ok w) : c.Usable o x w := by
  -- Choices are read as a list, and for every other operation one scalar is.
  by_cases ho : o = .oneOf
  · subst ho
    rw [operand] at h
    split at h
    · next scalars hread =>
      obtain ⟨items, hitems, hscalars⟩ := Option.bind_eq_some_iff.1 hread
      obtain rfl := Json.array?_eq_some_iff.1 hitems
      split at h
      · cases h
      · next hnonempty =>
        cases h
        refine .list (Json.holds_of_mapM_ofJson? hscalars) fun hc hnil => ?_
        exact hnonempty ⟨by rw [hnil]; rfl, hc⟩
    · cases h
  · rw [operand] at h
    · split at h
      · next a ha =>
        cases h
        obtain ⟨hread, hadmits⟩ := Option.filter_eq_some_iff.1 ha
        refine .single ho (Json.holds_of_ofJson? hread) ?_ ?_
        · rintro rfl
          cases a with
          | text t => exact ⟨t, rfl⟩
          | _ => cases hadmits
        · rintro rfl
          exact hadmits
      · cases h
    · exact ho

/-! ## Comparisons with an answer of their own -/

/-- Whether a scalar passes an operation against an operand, where the pairing of the two **has an
answer of its own**; nothing where it is only false for want of one. -/
def Operation.accepts? : Operation → Operand → Scalar → Option Bool
  | equals, .single s, a => some (a.equals s)
  | oneOf, .list items, a => some (items.any a.equals)
  | startsWith, .single (.text t), a => some (a.startsWith t)
  | lessThan, .single s, a => some (a.compare? s == some .lt)
  | greaterThan, .single s, a => some (a.compare? s == some .gt)
  | _, _, _ => none

/-- Without an answer of its own a comparison is false. -/
theorem Operation.accepts_eq_getD (o : Operation) (w : Operand) (a : Scalar) :
    o.accepts w a = (o.accepts? w a).getD false := by
  fun_cases accepts? o w a with
  | case6 =>
    rw [accepts]
    · rfl
    all_goals assumption
  | _ => rfl

namespace Constraint

variable {c : Constraint} {o : Operation} {x : Json} {w : Operand}

/-- Only the constraint to text permits beginnings. -/
theorem eq_string_of_startsWith (h : .startsWith ∈ c.operations) : c = .string := by
  cases c with
  | string => rfl
  | _ => simp [operations] at h

/-- Only the constraint to numbers permits bounds. -/
theorem eq_number_of_order (ho : o = .lessThan ∨ o = .greaterThan) (h : o ∈ c.operations) :
    c = .number := by
  cases c with
  | number => rfl
  | _ => rcases ho with rfl | rfl <;> simp [operations] at h

namespace Usable

/-- A usable beginning is text, where beginnings are permitted. -/
theorem exists_text (h : c.Usable .startsWith x w) (permitted : .startsWith ∈ c.operations) :
    ∃ t, w = .single (.text t) := by
  cases h with
  | single _ _ text _ =>
    obtain ⟨t, rfl⟩ := text (eq_string_of_startsWith permitted)
    exact ⟨t, rfl⟩

/-- A usable bound is a number, where bounds are permitted. -/
theorem exists_number (h : c.Usable o x w) (ho : o = .lessThan ∨ o = .greaterThan)
    (permitted : o ∈ c.operations) : ∃ a, w = .single a ∧ a.isNumber := by
  cases h with
  | list => rcases ho with ho | ho <;> cases ho
  | single _ _ _ number => exact ⟨_, rfl, number (eq_number_of_order ho permitted)⟩

/-- With a usable operand a permitted comparison has an answer of its own. -/
theorem accepts?_eq_some (h : c.Usable o x w) (permitted : o ∈ c.operations) (a : Scalar) :
    o.accepts? w a = some (o.accepts w a) := by
  have hsome : ∃ b, o.accepts? w a = some b := by
    cases h with
    | list => exact ⟨_, rfl⟩
    | single ho holds text number =>
      cases o with
      | oneOf => exact absurd rfl ho
      -- Only a beginning takes more than a single operand: it has to be text.
      | startsWith =>
        obtain ⟨t, rfl⟩ := text (eq_string_of_startsWith permitted)
        exact ⟨_, rfl⟩
      | _ => exact ⟨_, rfl⟩
  obtain ⟨b, hb⟩ := hsome
  rw [Operation.accepts_eq_getD, hb]
  rfl

end Usable

end Constraint

/-- What is known of a rule that is bound **without a message**. -/
structure Rule.Offers ⦃F : Type⦄ (rule : Rule F) (o : Operation) (x : Json) (w : Operand) :
    Prop where
  /-- The operand is usable. -/
  usable : rule.constraint.Usable o x w
  /-- The rule offers the operation. -/
  offered : o ∈ rule.operations
  /-- A beginning is text. -/
  text_of_startsWith : o = .startsWith → ∃ t, w = .single (.text t)
  /-- A bound is a number. -/
  number_of_order : o = .lessThan ∨ o = .greaterThan → ∃ a, w = .single a ∧ a.isNumber
  /-- The comparison has an answer of its own, whatever scalar it is asked about. -/
  answered : ∀ a, o.accepts? w a = some (o.accepts w a)

/-- An offered operation with a usable operand is all that it takes: the constraint permits what is
offered, and asks for the kind of value that the operation needs. -/
theorem Rule.offers_of_usable {F : Type} {rule : Rule F} {o : Operation} {x : Json} {w : Operand}
    (usable : rule.constraint.Usable o x w) (offered : o ∈ rule.operations) :
    rule.Offers o x w := by
  have hpermitted : o ∈ rule.constraint.operations :=
    Constraint.permits_iff.1 (rule.permitted o offered)
  refine ⟨usable, offered, ?_, fun ho => usable.exists_number ho hpermitted,
    usable.accepts?_eq_some hpermitted⟩
  rintro rfl
  exact usable.exists_text hpermitted

/-! ## How a filter is put together -/

/-- A filter is **put together from bound rules**, each with a property: what a value makes is a
rule bound to an operation and an operand, or what the target or a relation makes of the filters of
the children, and each of these filters is put together in the same way. -/
inductive Schema.BoundBy
    (p : ⦃F : Type⦄ → Rule F → Operation → Json → Operand → Prop) :
    {F : Type} → Schema F → Role F → Json → UInt64 → F → Prop where
  /-- A group. -/
  | group {F : Type} {s : Schema F} {v : Json} {depth : UInt64} {c : Combinator} {items : List Json}
      (shape : v.groupShape? = some (c, items))
      (each : ∀ w ∈ items, ∀ f, s.filterOf w (depth + 1) = some f →
        BoundBy p s (s.roleOf w) w (depth + 1) f) :
      BoundBy p s .group v depth (s.target.group c (items.filterMap (s.filterOf · (depth + 1))))
  /-- A rule: its bind function is called with the operation of the node and an operand. -/
  | rule {F : Type} {s : Schema F} {v x : Json} {depth : UInt64} {rule : Rule F} {o : Operation}
      {w : Operand} (operation : v.text? "operation" = some o.token)
      (value : v.member? "value" = some x) (property : p rule o x w) :
      BoundBy p s (.entry (.rule rule)) v depth (rule.bind o w)
  /-- A relation. -/
  | relation {F G : Type} {s : Schema F} {v : Json} {depth : UInt64} {name : String}
      {bind : Combinator → List G → F} {child : Schema G} {c : Combinator} {items : List Json}
      (shape : v.relationShape = .ok (c, items))
      (each : ∀ w ∈ items, ∀ g, child.filterOf w (depth + 1) = some g →
        BoundBy p child (child.roleOf w) w (depth + 1) g) :
      BoundBy p s (.entry (.relation name bind child)) v depth
        (bind c (items.filterMap (child.filterOf · (depth + 1))))

namespace Schema

variable {F : Type} {s : Schema F}

/-- **Every filter is put together from rules that are bound to usable operands**, with or without
messages; and without messages each of them is bound to an operation that it offers. -/
theorem boundBy_of_filterAs {p : ⦃F : Type⦄ → Rule F → Operation → Json → Operand → Prop}
    (silent : Prop)
    (hp : ∀ ⦃F : Type⦄ (rule : Rule F) (v : Json) o x w, (silent → rule.problems v = []) →
      v.text? "operation" = some o.token → rule.constraint.Usable o x w → p rule o x w)
    {role : Role F} {v : Json} {depth : UInt64} {f : F}
    (hsilent : silent → s.messagesAs role v depth = []) (h : s.filterAs role v depth = some f) :
    s.BoundBy p role v depth f := by
  induction v using Json.treeInduction generalizing F depth with
  | step v ih =>
    rw [messagesAs_eq] at hsilent
    rw [filterAs_eq] at h
    revert hsilent h
    -- Three of the nine kinds of step make a filter: at a group, at a rule and at a relation.
    fun_cases step s v (depth + 1) role with
    | case4 c items hshape _ =>
      intro hsilent h
      have hchildren := Json.children_of_groupShape? hshape
      cases h
      refine .group hshape fun w hw f hf => ih w (hchildren ▸ hw) (fun hs => ?_) hf
      exact List.flatMap_eq_nil_iff.1 (hsilent hs) w hw
    | case6 rule =>
      intro hsilent h
      obtain ⟨o, x, w, ho, hx, hw, rfl⟩ := Rule.exists_of_filter?_eq_some h
      have hproblems (hs : silent) : rule.problems v = [] := List.map_eq_nil_iff.1 (hsilent hs)
      exact .rule ho hx (hp rule v o x w hproblems ho (Constraint.usable_of_operand hw))
    | case9 G name bind child c items hshape _ =>
      intro hsilent h
      have hchildren := Json.children_of_relationShape hshape
      cases h
      refine .relation hshape fun w hw g hg => ih w (hchildren ▸ hw) (fun hs => ?_) hg
      exact List.flatMap_eq_nil_iff.1 (hsilent hs) w hw
    | _ => rintro - ⟨⟩

end Schema

/-! ## Filters that are handled -/

/-- A filter is **handled** if each comparison that it makes, at every nesting, has an answer of its
own whenever there is a scalar to compare. -/
inductive Filter.Handled : {α : Type} → Filter α → Prop where
  /-- A group of handled filters. -/
  | group {α : Type} {c : Combinator} {fs : List (Filter α)} (each : ∀ f ∈ fs, Handled f) :
      Handled (.group c fs)
  /-- A comparison. -/
  | rule {α : Type} {o : Operation} {w : Operand} {read : α → Reading}
      (answered : ∀ x a, read x = some a → o.accepts? w a = some (o.accepts w a)) :
      Handled (.rule o w read)
  /-- A relation over handled filters. -/
  | relate {α β : Type} {related : α → List β} {c : Combinator} {fs : List (Filter β)}
      (each : ∀ f ∈ fs, Handled f) : Handled (Filter.relate related c fs)

namespace Schema

variable {F : Type}

/-- In a run without messages every rule is bound to an operation that it offers. -/
theorem boundBy_offers {s : Schema F} {role : Role F} {v : Json} {depth : UInt64} {f : F}
    (hmessages : s.messagesAs role v depth = []) (h : s.filterAs role v depth = some f) :
    s.BoundBy Rule.Offers role v depth f := by
  refine boundBy_of_filterAs True ?_ (fun _ => hmessages) h
  intro G rule v o x w hproblems ho husable
  obtain ⟨o', x', hword, -, hoffered, -, -⟩ := Rule.problems_eq_nil_iff.1 (hproblems trivial)
  obtain rfl : o' = o := Vocabulary.token_inj (Option.some.inj (hword.symm.trans ho))
  exact Rule.offers_of_usable husable hoffered

/-- Over objects, rules whose comparisons have answers of their own make a handled filter. -/
theorem handled_of_boundBy {α : Type} {s : Schema (Filter α)} (hs : s.OverObjects Rule.ReadsField)
    {role : Role (Filter α)} (hrole : role.OverObjects Rule.ReadsField) {v : Json} {depth : UInt64}
    {f : Filter α} (h : s.BoundBy Rule.Offers role v depth f) : f.Handled := by
  induction v using Json.treeInduction generalizing α depth with
  | step v ih =>
    cases h with
    | @group _ _ _ _ c items shape each =>
      rw [hs.group_eq]
      refine .group fun g hg => ?_
      obtain ⟨w, hw, hg⟩ := List.mem_filterMap.1 hg
      have hchildren := Json.children_of_groupShape? shape
      exact ih w (hchildren ▸ hw) hs (hs.roleOf w) (each w hw g hg)
    | @rule _ _ _ _ _ rule o w operation value offers =>
      -- Over objects a rule compares what it reads of a field, so its operand is all that matters.
      cases hrole _ rfl with
      | rule reads =>
        obtain ⟨read, hbind⟩ := reads
        rw [hbind]
        exact .rule fun _ a _ => offers.answered a
    | @relation _ G _ _ _ name bind child c items shape each =>
      cases hrole _ rfl with
      | relation below =>
        refine .relate fun g hg => ?_
        obtain ⟨w, hw, hg⟩ := List.mem_filterMap.1 hg
        have hchildren := Json.children_of_relationShape shape
        exact ih w (hchildren ▸ hw) below (below.roleOf w) (each w hw g hg)

/-- **Every rule is bound to an operand that its operation can use**. The filter that a payload
gives, with or without messages, is put together from rules that are bound to usable operands; in a
run that adds no message they are bound to operations that they offer, and each comparison has an
answer of its own; so the filters of accepted payloads over objects are handled. -/
theorem bound_operands_usable :
    (∀ {F : Type} (s : Schema F) payload depth r f, (s.compileGroup payload depth r).1 = some f →
      s.BoundBy (fun _ rule o x w => rule.constraint.Usable o x w) .group payload depth f) ∧
    (∀ {F : Type} (s : Schema F) payload depth r f, s.compileGroup payload depth r = (some f, r) →
      s.BoundBy Rule.Offers .group payload depth f) ∧
    ∀ {α : Type} (s : Schema (Filter α)), s.OverObjects Rule.ReadsField →
      ∀ payload f, s.compile payload = .ok f → f.Handled := by
  refine ⟨fun s payload depth r f h => ?_, fun s payload depth r f h => ?_,
    fun s hs payload f h => ?_⟩
  · rw [compileGroup_eq] at h
    exact boundBy_of_filterAs False (fun _ _ _ _ _ _ _ _ husable => husable) False.elim h
  · rw [compileGroup_eq] at h
    have hreport : (r.extend (s.messagesAs .group payload depth)).toList = r.toList :=
      congrArg (fun out => out.2.toList) h
    have hmessages : s.messagesAs .group payload depth = [] := by
      simpa using hreport
    exact boundBy_offers hmessages (congrArg Prod.fst h)
  · obtain ⟨hmessages, hfilter⟩ := compile_eq_ok_iff.1 h
    exact handled_of_boundBy hs Role.overObjects_group (boundBy_offers hmessages hfilter)

/-- What is bound of the faulty payload for owners is usable, and what is bound of the accepted one
is also offered. -/
theorem bound_olderWithPets :
    ∃ s f g, Declaration.owners.schema = .ok s ∧ s.OverObjects Rule.ReadsField ∧
      (s.compileGroup .faultyOwners 0 .empty).1 = some g ∧
      s.BoundBy (fun _ rule o x w => rule.constraint.Usable o x w) .group .faultyOwners 0 g ∧
      s.compileGroup .olderWithPets 0 .empty = (some f, .empty) ∧
      s.BoundBy Rule.Offers .group .olderWithPets 0 f ∧
      s.compile .olderWithPets = .ok f ∧ f.Handled := by
  have hs := @Declaration.overObjects_of_schema .owners _ rfl
  refine ⟨_, _, _, rfl, hs, rfl, ?_, rfl, ?_, rfl, ?_⟩
  · exact bound_operands_usable.1 _ .faultyOwners 0 .empty _ rfl
  · exact bound_operands_usable.2.1 _ .olderWithPets 0 .empty _ rfl
  · exact bound_operands_usable.2.2 _ hs .olderWithPets _ rfl

end Schema

end Criteria
