import Criteria.Proofs.Compile.Step
import Mathlib.Data.List.Basic

/-! # Nothing is lost
A part of a payload that means something never vanishes without a message. Whatever gives no filter
is reported, so the filter of an accepted payload holds one bound part for each node of the payload
(`Schema.Binds`), and a failed payload always comes with messages.

Main statements: `Schema.accounted`, what becomes of one child; `Schema.binds_of_messagesAs_eq_nil`,
without messages every node is bound; `Schema.nothing_lost`, both for the functions that a caller
uses. -/

namespace Criteria

/-- A report that has **grown** by at least one message. -/
def Report.Grown (r r' : Report) : Prop := ∃ m ms, r'.toList = r.toList ++ m :: ms

/-- A report grows by any messages but none. -/
theorem Report.grown_extend {r : Report} {ms : List String} (h : ms ≠ []) :
    r.Grown (r.extend ms) := by
  obtain ⟨m, rest, rfl⟩ := List.exists_cons_of_ne_nil h
  exact ⟨m, rest, rfl⟩

namespace Schema

/-! ## Every node is bound -/

/-- A filter is **bound for every node** of a value that stands for something: each group, rule and
relation of the value has its own part of the filter, in the order of the value, and the parts are
put together by the schema they stand in. A pair is a child with the filter bound for it; the
children without a pair are those that mean nothing. -/
inductive Binds : {F : Type} → Schema F → Role F → Json → F → Prop where
  /-- A group is bound through the target. -/
  | group {F : Type} {s : Schema F} {v : Json} {c : Combinator} {items : List Json}
      {pairs : List (Json × F)} (shape : v.groupShape? = some (c, items))
      (paired : pairs.map Prod.fst = items.filter Json.isMeant)
      (each : ∀ p ∈ pairs, Binds s (s.roleOf p.1) p.1 p.2) :
      Binds s .group v (s.target.group c (pairs.map Prod.snd))
  /-- A rule is bound to an operation and an operand. -/
  | rule {F : Type} {s : Schema F} {v x : Json} {rule : Rule F} {o : Operation} {w : Operand}
      (operation : v.text? "operation" = some o.token) (value : v.member? "value" = some x)
      (operand : rule.constraint.operand o x = .ok w) :
      Binds s (.entry (.rule rule)) v (rule.bind o w)
  /-- A relation is bound through its entry, and its children under the schema of the relation. -/
  | relation {F G : Type} {s : Schema F} {v : Json} {name : String}
      {bind : Combinator → List G → F} {child : Schema G} {c : Combinator} {items : List Json}
      {pairs : List (Json × G)} (shape : v.relationShape = .ok (c, items))
      (paired : pairs.map Prod.fst = items.filter Json.isMeant)
      (each : ∀ p ∈ pairs, Binds child (child.roleOf p.1) p.1 p.2) :
      Binds s (.entry (.relation name bind child)) v (bind c (pairs.map Prod.snd))

variable {F : Type}

/-- The pairs are of children. -/
theorem mem_children_of_paired {v : Json} {items : List Json} {pairs : List (Json × F)}
    (hitems : v.items? "children" = some items)
    (paired : pairs.map Prod.fst = items.filter Json.isMeant) {p : Json × F} (hp : p ∈ pairs) :
    p.1 ∈ v.children := by
  have hmem : p.1 ∈ items.filter Json.isMeant := paired ▸ List.mem_map_of_mem hp
  rw [Json.children_of_items hitems]
  exact List.mem_of_mem_filter hmem

/-- What means nothing gives no filter. -/
theorem filterOf_of_not_isMeant {s : Schema F} {v : Json} (h : ¬ v.isMeant) (depth : UInt64) :
    s.filterOf v depth = none := by
  rw [filterOf, roleOf_eq_ignored_iff.2 h, filterAs_eq]
  rfl

/-- What means nothing gets no message. -/
theorem messagesOf_of_not_isMeant {s : Schema F} {v : Json} (h : ¬ v.isMeant) (depth : UInt64) :
    s.messagesOf v depth = [] := by
  rw [messagesOf, roleOf_eq_ignored_iff.2 h, messagesAs_eq]
  rfl

/-- What means something and gives no filter gets a message. -/
theorem messagesOf_ne_nil_of_filterOf_eq_none {s : Schema F} {v : Json} {depth : UInt64}
    (hmeant : v.isMeant) (h : s.filterOf v depth = none) : s.messagesOf v depth ≠ [] :=
  messagesAs_ne_nil_of_filterAs_eq_none (fun hrole => roleOf_eq_ignored_iff.1 hrole hmeant) h

/-- Children without messages are paired with their filters, save those that mean nothing. -/
theorem exists_pairs {s : Schema F} {items : List Json} {depth : UInt64}
    (each : ∀ w ∈ items, ∀ f, s.messagesOf w depth = [] → s.filterOf w depth = some f →
      s.Binds (s.roleOf w) w f)
    (h : items.flatMap (s.messagesOf · depth) = []) :
    ∃ pairs : List (Json × F), pairs.map Prod.fst = items.filter Json.isMeant ∧
      pairs.map Prod.snd = items.filterMap (s.filterOf · depth) ∧
        ∀ p ∈ pairs, s.Binds (s.roleOf p.1) p.1 p.2 := by
  induction items with
  | nil => exact ⟨[], rfl, rfl, by simp⟩
  | cons w items ih =>
    rw [List.flatMap_cons, List.append_eq_nil_iff] at h
    obtain ⟨pairs, hfst, hsnd, hpairs⟩ :=
      ih (fun w' hw' => each w' (List.mem_cons_of_mem w hw')) h.2
    by_cases hmeant : w.isMeant
    · cases hf : s.filterOf w depth with
      | none => exact absurd h.1 (messagesOf_ne_nil_of_filterOf_eq_none hmeant hf)
      | some f =>
        refine ⟨(w, f) :: pairs, by simp [hmeant, hfst], by simp [hf, hsnd], ?_⟩
        intro p hp
        rcases List.mem_cons.1 hp with rfl | hp
        · exact each w (by simp) f h.1 hf
        · exact hpairs p hp
    · -- What means nothing has no filter, and no pair.
      have hf : s.filterOf w depth = none := filterOf_of_not_isMeant hmeant depth
      exact ⟨pairs, by simp [hmeant, hfst], by simp [hf, hsnd], hpairs⟩

/-- **Without messages every node is bound**. -/
theorem binds_of_messagesAs_eq_nil {s : Schema F} {role : Role F} {v : Json} {depth : UInt64} {f : F}
    (hmessages : s.messagesAs role v depth = []) (hfilter : s.filterAs role v depth = some f) :
    s.Binds role v f := by
  induction v using Json.treeInduction generalizing F depth with
  | step v ih =>
    rw [messagesAs_eq] at hmessages
    rw [filterAs_eq] at hfilter
    revert hmessages hfilter
    -- Three of the nine kinds of step make a filter: at a group, at a rule and at a relation.
    fun_cases step s v (depth + 1) role with
    | case4 c items hshape _ =>
      intro hmessages hfilter
      have hchildren := Json.children_of_groupShape? hshape
      obtain ⟨pairs, hfst, hsnd, hpairs⟩ :=
        exists_pairs (fun w hw f hm hf => ih w (hchildren ▸ hw) hm hf) hmessages
      cases hfilter
      exact hsnd ▸ .group hshape hfst hpairs
    | case6 rule =>
      intro _ hfilter
      obtain ⟨o, x, w, ho, hx, hw, rfl⟩ := Rule.exists_of_filter?_eq_some hfilter
      exact .rule ho hx hw
    | case9 G name bind child c items hshape _ =>
      intro hmessages hfilter
      have hchildren := Json.children_of_relationShape hshape
      obtain ⟨pairs, hfst, hsnd, hpairs⟩ :=
        exists_pairs (fun w hw f hm hf => ih w (hchildren ▸ hw) hm hf) hmessages
      cases hfilter
      exact hsnd ▸ .relation hshape hfst hpairs
    | _ => rintro - ⟨⟩

/-! ## What becomes of a child -/

/-- A child is **accounted for**: a run on it alone gives one filter, or no filter and at least one
message, or neither, and the last only if the child is neither a group nor an object with a name. -/
def Accounted (s : Schema F) (depth : UInt64) (v : Json) : Prop :=
  match s.compileChildren [v] depth .empty with
  | (fs, r) =>
    (∃ f, fs = [f]) ∨ (fs = [] ∧ r.toList ≠ []) ∨ (fs = [] ∧ r.toList = [] ∧ ¬ v.isMeant)

/-- A list of one value has the filter and the messages of that value. -/
theorem compileChildren_singleton (s : Schema F) (v : Json) (depth : UInt64) :
    s.compileChildren [v] depth .empty =
      ((s.filterOf v depth).toList, .ofList (s.messagesOf v depth)) := by
  rw [compileChildren_eq]
  cases hf : s.filterOf v depth <;> simp [hf, Report.extend]

/-- **Every child is accounted for**. -/
theorem accounted (s : Schema F) (depth : UInt64) (v : Json) : s.Accounted depth v := by
  simp only [Accounted, compileChildren_singleton, Report.toList_ofList]
  cases hf : s.filterOf v depth with
  | some f => exact .inl ⟨f, rfl⟩
  | none =>
    by_cases hmeant : v.isMeant
    · exact .inr (.inl ⟨rfl, messagesOf_ne_nil_of_filterOf_eq_none hmeant hf⟩)
    · exact .inr (.inr ⟨rfl, messagesOf_of_not_isMeant hmeant depth, hmeant⟩)

/-- A run over a list is made of the runs on each of its items alone. -/
theorem compileChildren_eq_flatMap_singleton (s : Schema F) (items : List Json) (depth : UInt64)
    (r : Report) :
    s.compileChildren items depth r =
      (items.flatMap fun v => (s.compileChildren [v] depth .empty).1,
        r.extend (items.flatMap fun v => (s.compileChildren [v] depth .empty).2.toList)) := by
  simp only [compileChildren_singleton, Report.toList_ofList]
  rw [compileChildren_eq, List.filterMap_eq_flatMap_toList]

/-! ## Payloads -/

/-- A payload is accepted with a filter bound for every node, or refused with messages. -/
theorem compile_cases (s : Schema F) (payload : Json) :
    (∃ f, s.compile payload = .ok f ∧ s.Binds .group payload f) ∨
      ∃ r, s.compile payload = .error (.validation r) ∧ r.toList ≠ [] := by
  rw [compile_eq]
  cases hmessages : s.messagesAs .group payload 0 with
  | nil =>
    cases hfilter : s.filterAs .group payload 0 with
    | none => exact absurd hmessages (messagesAs_ne_nil_of_filterAs_eq_none (by simp) hfilter)
    | some f => exact .inl ⟨f, rfl, binds_of_messagesAs_eq_nil hmessages hfilter⟩
  | cons m ms => exact .inr ⟨_, rfl, by simp⟩

/-- **Nothing is lost**. A group or an entry that gives no filter leaves a message; each child gives
a filter or leaves a message or means nothing, whatever stands beside it; and a payload is accepted
with a filter bound for every node or refused with at least one message. -/
theorem nothing_lost (s : Schema F) :
    (∀ payload depth r, (s.compileGroup payload depth r).1 = none →
      r.Grown (s.compileGroup payload depth r).2) ∧
    (∀ e payload depth r, (s.compileEntry e payload depth r).1 = none →
      r.Grown (s.compileEntry e payload depth r).2) ∧
    (∀ items depth r, s.compileChildren items depth r =
      (items.flatMap fun v => (s.compileChildren [v] depth .empty).1,
        r.extend (items.flatMap fun v => (s.compileChildren [v] depth .empty).2.toList)) ∧
      ∀ v ∈ items, s.Accounted depth v) ∧
    ∀ payload, (∃ f, s.compile payload = .ok f ∧ s.Binds .group payload f) ∨
      ∃ r, s.compile payload = .error (.validation r) ∧ r.toList ≠ [] := by
  refine ⟨fun payload depth r h => ?_, fun e payload depth r h => ?_,
    fun items depth r => ⟨s.compileChildren_eq_flatMap_singleton items depth r,
      fun v _ => s.accounted depth v⟩, s.compile_cases⟩
  · rw [compileGroup_eq] at h ⊢
    exact Report.grown_extend (messagesAs_ne_nil_of_filterAs_eq_none (by simp) h)
  · rw [compileEntry_eq] at h ⊢
    exact Report.grown_extend (messagesAs_ne_nil_of_filterAs_eq_none (by simp) h)

/-- The faulty payload for owners, as a group and as pets below the third level, child by child, and
as a whole; and one that is accepted. -/
theorem accounted_faultyOwners :
    ∃ s e, Declaration.owners.schema = .ok s ∧ s.find? "pets" = some e ∧
      (s.compileGroup .faultyOwners 3 .empty).1 = none ∧
      Report.Grown .empty (s.compileGroup .faultyOwners 3 .empty).2 ∧
      (s.compileEntry e .faultyOwners 3 (.ofList ["?"])).1 = none ∧
      Report.Grown (.ofList ["?"]) (s.compileEntry e .faultyOwners 3 (.ofList ["?"])).2 ∧
      (s.compileChildren Json.faultyOwners.children 1 .empty).1.length = 3 ∧
      (∀ v ∈ Json.faultyOwners.children, s.Accounted 1 v) ∧
      (∃ r, s.compile .faultyOwners = .error (.validation r) ∧ r.toList ≠ []) ∧
      ∃ f, s.compile .olderWithPets = .ok f ∧ s.Binds .group .olderWithPets f := by
  refine ⟨_, _, rfl, rfl, rfl, (nothing_lost _).1 .faultyOwners 3 .empty rfl, rfl,
    (nothing_lost _).2.1 _ .faultyOwners 3 (.ofList ["?"]) rfl, rfl,
    ((nothing_lost _).2.2.1 Json.faultyOwners.children 1 .empty).2,
    ((nothing_lost _).2.2.2 .faultyOwners).resolve_left ?_,
    ((nothing_lost _).2.2.2 .olderWithPets).resolve_right ?_⟩
  · rintro ⟨f, haccepted, -⟩
    cases haccepted
  · rintro ⟨r, hrefused, -⟩
    cases hrefused

end Schema

end Criteria
