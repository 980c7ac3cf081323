import Criteria.Schema.Rule
import Mathlib.Data.List.Basic
import Mathlib.Data.List.Induction
import Mathlib.Data.List.Perm.Basic

/-! # Declaring a rule
A declaration reads the operations that are listed for a rule one by one, and what was selected of
them is the first occurrences, in their order.

* `FirstOccurrences`: of what was read, the first occurrences and nothing else, in their order.
* `Rule.Outcome`: what a reading has come to so far. `Rule.Outcome.step` is one operation more, and
  `Rule.outcome_select` the whole list.

Main statements: `Rule.declare_of_forbidden`, the first operation that is not permitted is the error;
`Rule.operations_of_declare`, else the rule offers what is left of the list without its later copies;
`Rule.declare_keeps_first_occurrences`, both at once, and what the rule supports. -/

namespace Criteria

/-! ## First occurrences -/

/-- What was **kept** of what was read: the first occurrences, in the order in which they stand. -/
structure FirstOccurrences {α : Type} [DecidableEq α] (seen kept : List α) : Prop where
  /-- Nothing is kept twice. -/
  nodup : kept.Nodup
  /-- What is kept stands in what was read, in this order. -/
  sublist : kept.Sublist seen
  /-- Whatever was read is kept. -/
  mem : ∀ a ∈ seen, a ∈ kept
  /-- What occurs first earlier is kept earlier. -/
  order : kept.Pairwise fun a b => seen.idxOf a < seen.idxOf b

namespace FirstOccurrences

variable {α : Type} [DecidableEq α] {seen kept kept' : List α} {a : α}

/-- Of nothing, nothing is kept. -/
theorem nil : FirstOccurrences ([] : List α) [] :=
  ⟨.nil, .slnil, nofun, .nil⟩

/-- What is kept is exactly what was read. -/
theorem mem_iff (h : FirstOccurrences seen kept) : a ∈ kept ↔ a ∈ seen :=
  ⟨fun ha => h.sublist.subset ha, h.mem a⟩

/-- The first occurrences stay where they are when more is read. -/
theorem order_append (h : FirstOccurrences seen kept) (after : List α) :
    kept.Pairwise fun b c => (seen ++ after).idxOf b < (seen ++ after).idxOf c := by
  refine h.order.imp_of_mem fun {b c} hb hc hbc => ?_
  rw [List.idxOf_append_of_mem (h.mem_iff.1 hb), List.idxOf_append_of_mem (h.mem_iff.1 hc)]
  exact hbc

/-- What is kept already is passed over. -/
theorem pass (h : FirstOccurrences seen kept) (ha : a ∈ kept) :
    FirstOccurrences (seen ++ [a]) kept where
  nodup := h.nodup
  sublist := h.sublist.trans (List.sublist_append_left seen [a])
  mem b hb := by
    rcases List.mem_append.1 hb with hseen | hnew
    · exact h.mem b hseen
    · exact List.mem_singleton.1 hnew ▸ ha
  order := h.order_append [a]

/-- What is new is kept behind the rest. -/
theorem snoc (h : FirstOccurrences seen kept) (ha : a ∉ kept) :
    FirstOccurrences (seen ++ [a]) (kept ++ [a]) where
  nodup := by
    have hfresh : ∀ b ∈ kept, b ≠ a := by
      rintro b hb rfl
      exact ha hb
    simpa [List.nodup_append, h.nodup] using hfresh
  sublist := h.sublist.append (List.Sublist.refl [a])
  mem b hb := by
    rcases List.mem_append.1 hb with hseen | hnew
    · exact List.mem_append_left _ (h.mem b hseen)
    · exact List.mem_append_right _ hnew
  order := by
    -- What is new occurs behind all that was read, and what is kept occurs in it.
    have hnew : a ∉ seen := fun hseen => ha (h.mem a hseen)
    refine List.pairwise_append.2 ⟨h.order_append [a], List.pairwise_singleton _ a, ?_⟩
    intro b hb c hc
    obtain rfl := List.mem_singleton.1 hc
    have hseen : b ∈ seen := h.mem_iff.1 hb
    rw [List.idxOf_append_of_mem hseen, List.idxOf_append_of_notMem hnew]
    exact Nat.lt_of_lt_of_le (List.idxOf_lt_length_of_mem hseen) (Nat.le_add_right _ _)

/-- There is just one list of first occurrences. -/
theorem unique (h : FirstOccurrences seen kept) (h' : FirstOccurrences seen kept') :
    kept = kept' := by
  have hperm : kept.Perm kept' := by
    rw [List.perm_ext_iff_of_nodup h.nodup h'.nodup]
    exact fun a => h.mem_iff.trans h'.mem_iff.symm
  refine hperm.eq_of_pairwise ?_ h.order h'.order
  intro a b _ _ hab hba
  exact absurd hab (Nat.lt_asymm hba)

end FirstOccurrences

/-- One item more is left at the end, unless it stands before. -/
theorem eraseDups_snoc {α : Type} [DecidableEq α] (l : List α) (a : α) :
    (l ++ [a]).eraseDups = if a ∈ l.eraseDups then l.eraseDups else l.eraseDups ++ [a] := by
  rw [List.eraseDups_append]
  by_cases ha : a ∈ l
  · simp [List.removeAll, ha]
  · simp [List.removeAll, ha, List.eraseDups_cons]

/-- What is left of a list without its later copies is its first occurrences. -/
theorem firstOccurrences_eraseDups {α : Type} [DecidableEq α] (l : List α) :
    FirstOccurrences l l.eraseDups := by
  induction l using List.reverseRecOn with
  | nil => exact .nil
  | append_singleton l a ih =>
    rw [eraseDups_snoc]
    split
    · next hold => exact ih.pass hold
    · next hnew => exact ih.snoc hnew

/-! ## Reading operations -/

namespace Rule

open Constraint (Selection)

variable {F : Type} {name : String} {constraint : Constraint} {seen operations : List Operation}
  {bind : Operation → Operand → F}

/-- The **outcome** of a reading so far: either all that was read is permitted, and its first
occurrences are selected, or the reading ended at the first operation that is not. -/
inductive Outcome (name : String) (constraint : Constraint) :
    List Operation → Except BuildError (Selection constraint) → Prop where
  /-- Everything is permitted. -/
  | selected {seen : List Operation} {s : Selection constraint}
      (permitted : ∀ o ∈ seen, constraint.permits o) (first : FirstOccurrences seen s.operations) :
      Outcome name constraint seen (.ok s)
  /-- Something is not permitted, and what stands before it is. -/
  | ended {before after : List Operation} {o : Operation}
      (permitted : ∀ o' ∈ before, constraint.permits o') (forbidden : ¬ constraint.permits o) :
      Outcome name constraint (before ++ o :: after)
        (.error (.unsupportedOperation name o constraint))

/-- **One operation more** is read from what was selected, unless the reading has ended. -/
theorem Outcome.step {x : Except BuildError (Selection constraint)}
    (h : Outcome name constraint seen x) (o : Operation) :
    Outcome name constraint (seen ++ [o]) (x >>= fun s => s.read name o) := by
  cases h with
  | @selected _ s permitted first =>
    show Outcome name constraint (seen ++ [o]) (s.read name o)
    by_cases ho : constraint.permits o
    · rw [Selection.read_of_permits ho]
      refine .selected ?_ ?_
      · simpa [or_imp, forall_and] using ⟨permitted, ho⟩
      · by_cases hold : o ∈ s.operations
        · rw [Selection.operations_add_of_mem hold]
          exact first.pass hold
        · rw [Selection.operations_add_of_not_mem hold]
          exact first.snoc hold
    · rw [Selection.read_of_not_permits ho]
      exact .ended permitted ho
  | @ended before after o' permitted forbidden =>
    rw [List.append_assoc, List.cons_append]
    exact .ended permitted forbidden

namespace Outcome

variable {x : Except BuildError (Selection constraint)}

/-- A reading ends well exactly if everything is permitted. -/
theorem ok_iff (h : Outcome name constraint seen x) :
    (∃ s, x = .ok s) ↔ ∀ o ∈ seen, constraint.permits o := by
  cases h with
  | selected permitted first => exact iff_of_true ⟨_, rfl⟩ permitted
  | ended permitted forbidden =>
    refine iff_of_false nofun fun hall => forbidden (hall _ ?_)
    exact List.mem_append_right _ List.mem_cons_self

/-- A reading that ends well has selected the first occurrences. -/
theorem first {s : Selection constraint} (h : Outcome name constraint seen (.ok s)) :
    FirstOccurrences seen s.operations := by
  cases h with
  | selected _ first => exact first

/-- The operation that ends a reading is the first that is not permitted. -/
theorem eq_error_iff (h : Outcome name constraint seen x) {e : BuildError} :
    x = .error e ↔ ∃ before o after, seen = before ++ o :: after ∧
      (∀ o' ∈ before, constraint.permits o') ∧ ¬ constraint.permits o ∧
      e = .unsupportedOperation name o constraint := by
  have hfirst {before after : List Operation} {o : Operation}
      (permitted : ∀ o' ∈ before, constraint.permits o') (forbidden : ¬ constraint.permits o) :
      (before ++ o :: after).find? (!constraint.permits ·) = some o := by
    refine List.find?_eq_some_iff_append.2 ⟨by simpa using forbidden, before, after, rfl, ?_⟩
    simpa using permitted
  constructor
  · rintro rfl
    cases h with
    | ended permitted forbidden => exact ⟨_, _, _, rfl, permitted, forbidden, rfl⟩
  · rintro ⟨before, o, after, hseen, permitted, forbidden, rfl⟩
    cases h with
    | selected hall _ =>
      subst hseen
      exact absurd (hall o (List.mem_append_right _ List.mem_cons_self)) forbidden
    | ended permitted' forbidden' =>
      -- Two splits of one list at the first that is not permitted are the same.
      have hsame : (before ++ o :: after).find? (!constraint.permits ·) = some o :=
        hfirst permitted forbidden
      rw [← hseen, hfirst permitted' forbidden'] at hsame
      rw [Option.some.inj hsame]

end Outcome

/-- The outcome of reading **a whole list**. -/
theorem outcome_select (constraint : Constraint) (name : String) (operations : List Operation) :
    Outcome name constraint operations (constraint.select name operations) := by
  -- The list grows at its end, since a step is about all that was read before it.
  induction operations using List.reverseRecOn with
  | nil => exact .selected (List.forall_mem_nil _) .nil
  | append_singleton seen o ih =>
    have hsnoc : constraint.select name (seen ++ [o]) =
        constraint.select name seen >>= fun s => s.read name o := by
      simp only [Constraint.select, List.foldlM_append, List.foldlM_cons, List.foldlM_nil, bind_pure]
    rw [hsnoc]
    exact ih.step o

/-! ## Declarations -/

/-- The first operation that is not permitted is the error. -/
theorem declare_of_forbidden {o : Operation}
    (h : operations.find? (!constraint.permits ·) = some o) :
    declare name constraint operations bind = .error (.unsupportedOperation name o constraint) := by
  obtain ⟨hforbidden, before, after, rfl, hbefore⟩ := List.find?_eq_some_iff_append.1 h
  rw [declare_eq_error_iff, (outcome_select constraint name _).eq_error_iff]
  exact ⟨before, o, after, rfl, by simpa using hbefore, by simpa using hforbidden, rfl⟩

/-- A declaration of permitted operations makes a rule. -/
theorem declare_of_permitted (h : operations.find? (!constraint.permits ·) = none) :
    ∃ r, declare name constraint operations bind = .ok r := by
  have hpermitted : ∀ o ∈ operations, constraint.permits o := by simpa using h
  obtain ⟨s, hs⟩ := (outcome_select constraint name operations).ok_iff.2 hpermitted
  exact ⟨_, declare_eq_ok_iff.2 ⟨s, hs, rfl⟩⟩

/-- A rule offers the first occurrences of what was listed for it. -/
theorem firstOccurrences_of_declare {r : Rule F}
    (h : declare name constraint operations bind = .ok r) :
    FirstOccurrences operations r.operations := by
  obtain ⟨s, hs, rfl⟩ := declare_eq_ok_iff.1 h
  have houtcome := outcome_select constraint name operations
  rw [hs] at houtcome
  exact houtcome.first

/-- A rule offers what is left of the list without its later copies. -/
theorem operations_of_declare {r : Rule F} (h : declare name constraint operations bind = .ok r) :
    r.operations = operations.eraseDups :=
  (firstOccurrences_of_declare h).unique (firstOccurrences_eraseDups operations)

/-- **A declaration keeps the first occurrences**. It makes a rule exactly if every operation is
permitted. The rule then offers the first occurrences, which make just one list, so it offers an
operation exactly if it is listed. Else the error names the first operation that is not permitted,
whatever stands before and after it. -/
theorem declare_keeps_first_occurrences (name : String) (constraint : Constraint)
    (operations : List Operation) (bind : Operation → Operand → F) :
    ((∃ r, declare name constraint operations bind = .ok r) ↔
      ∀ o ∈ operations, constraint.permits o) ∧
    (∀ r, declare name constraint operations bind = .ok r →
      FirstOccurrences operations r.operations ∧
      (∀ kept, FirstOccurrences operations kept → kept = r.operations) ∧
      ∀ o, (r.supports o ↔ o ∈ operations) ∧ (r.supports o → constraint.permits o)) ∧
    ∀ e, declare name constraint operations bind = .error e ↔
      ∃ before o after, operations = before ++ o :: after ∧
        (∀ o' ∈ before, constraint.permits o') ∧ ¬ constraint.permits o ∧
        e = .unsupportedOperation name o constraint := by
  have houtcome := outcome_select constraint name operations
  have hok : (∃ r, declare name constraint operations bind = .ok r) ↔
      ∀ o ∈ operations, constraint.permits o := by
    rw [← houtcome.ok_iff]
    simp only [declare_eq_ok_iff]
    constructor
    · rintro ⟨-, s, hs, -⟩
      exact ⟨s, hs⟩
    · rintro ⟨s, hs⟩
      exact ⟨_, s, hs, rfl⟩
  refine ⟨hok, fun r hr => ?_, fun e => declare_eq_error_iff.trans houtcome.eq_error_iff⟩
  -- What a rule supports is read off the first occurrences, and what they are is determined.
  have hfirst : FirstOccurrences operations r.operations := firstOccurrences_of_declare hr
  refine ⟨hfirst, fun kept hkept => hkept.unique hfirst, fun o => ?_⟩
  have hsupports : r.supports o ↔ o ∈ operations := supports_iff.trans hfirst.mem_iff
  exact ⟨hsupports, fun ho => hok.1 ⟨r, hr⟩ o (hsupports.1 ho)⟩

/-- A choice that is offered twice is kept where it stands first, and of two operations that are no
choices the first is refused. -/
theorem declare_species :
    (∃ r, declare "species" .dropdown [.oneOf, .equals, .oneOf] Prod.mk = .ok r ∧
      FirstOccurrences [.oneOf, .equals, .oneOf] r.operations ∧ r.operations = [.oneOf, .equals] ∧
      r.supports .oneOf ∧ ¬ r.supports .startsWith) ∧
    declare "species" .dropdown [.equals, .lessThan, .startsWith] Prod.mk =
      .error (.unsupportedOperation "species" .lessThan .dropdown) := by
  obtain ⟨hok, hkept, -⟩ :=
    declare_keeps_first_occurrences "species" .dropdown [.oneOf, .equals, .oneOf] Prod.mk
  obtain ⟨-, -, herror⟩ :=
    declare_keeps_first_occurrences "species" .dropdown [.equals, .lessThan, .startsWith] Prod.mk
  obtain ⟨r, hr⟩ := hok.2 (by decide)
  obtain ⟨hfirst, hunique, hsupports⟩ := hkept r hr
  have hlist : FirstOccurrences [Operation.oneOf, .equals, .oneOf] [.oneOf, .equals] :=
    ⟨by decide, by decide, by decide, by decide⟩
  refine ⟨⟨r, hr, hfirst, (hunique _ hlist).symm, (hsupports _).1.2 (by decide), ?_⟩, ?_⟩
  · rw [(hsupports _).1]
    decide
  · exact (herror _).2 ⟨[.equals], .lessThan, [.startsWith], rfl, by decide, by decide, rfl⟩

end Rule

end Criteria
