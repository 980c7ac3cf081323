import Criteria.Proofs.Declaration.Lookup
import Criteria.Proofs.Schema.Declaring

/-! # Declarations that fail
A declaration makes a schema unless some rule, at any nesting, lists an operation that the constraint
of the rule does not permit. It does not matter whether the rule would count: one that a later
declaration of its name replaces is checked as well. The error names the first such operation in the
order in which the parts of the schema are made: the rules of the declaration in their order, then the
declarations of its relations in theirs, each with all that it holds.

* `Declaration.offers`: the declared operations of all rules in that order.
* `Declaration.Declares`: the rules that are declared at any nesting.
* `FailsOn`: the first operation of a list that is not permitted, as the error of a computation.

Main statements: `Declaration.schema_failsOn`, making a schema fails on the first operation that is
not permitted; `Declaration.schema_eq_error_iff`, when it fails and with which error. -/

namespace Criteria

/-! ## Offers -/

/-- An **offer**: an operation that a declared rule lists. -/
structure Offer where
  /-- The rule. -/
  rule : RuleDeclaration
  /-- The operation. -/
  operation : Operation
deriving DecidableEq, Repr

namespace Offer

/-- Whether the constraint of the rule permits the operation. -/
def isPermitted (f : Offer) : Bool := f.rule.constraint.permits f.operation

/-- The error about an offer that is not permitted. -/
def error (f : Offer) : BuildError :=
  .unsupportedOperation f.rule.name f.operation f.rule.constraint

end Offer

/-- The offers of a declared rule. -/
def RuleDeclaration.offers (d : RuleDeclaration) : List Offer := d.operations.map (Offer.mk d)

/-- The first offer of a list that is not permitted. -/
def firstForbidden? (fs : List Offer) : Option Offer := fs.find? (!·.isPermitted)

/-- The first offer of two lists that is not permitted is that of the first list, if it has one. -/
theorem firstForbidden?_append (fs gs : List Offer) :
    firstForbidden? (fs ++ gs) = (firstForbidden? fs).or (firstForbidden? gs) :=
  List.find?_append

/-- The first offer that is not permitted has only permitted ones before it. -/
theorem firstForbidden?_eq_some_iff {fs : List Offer} {f : Offer} :
    firstForbidden? fs = some f ↔
      ¬ f.isPermitted ∧
        ∃ before after, fs = before ++ f :: after ∧ ∀ g ∈ before, g.isPermitted := by
  simp [firstForbidden?, List.find?_eq_some_iff_append]

/-- A list has a first offer that is not permitted exactly if it has one. -/
theorem isSome_firstForbidden?_iff {fs : List Offer} :
    (firstForbidden? fs).isSome ↔ ∃ f ∈ fs, ¬ f.isPermitted := by
  simp [firstForbidden?]

/-- The first offer of a rule that is not permitted is its first operation that the constraint does
not permit. -/
theorem RuleDeclaration.firstForbidden?_offers (d : RuleDeclaration) :
    firstForbidden? d.offers = (d.operations.find? (!d.constraint.permits ·)).map (Offer.mk d) := by
  rw [firstForbidden?, offers, List.find?_map]
  rfl

namespace Declaration

mutual

/-- The **offers** of a declaration, in order: those of its rules, and then those of the
declarations of its relations. -/
def offers : Declaration → List Offer
  | mk rules relations _ _ => rules.flatMap RuleDeclaration.offers ++ offersBelow relations

/-- The offers of the declarations of relations, in order. -/
def offersBelow : List (String × Declaration) → List Offer
  | [] => []
  | (_, d) :: rest => offers d ++ offersBelow rest

end

/-- The offers below are those of each relation in turn. -/
theorem offersBelow_eq_flatMap (relations : List (String × Declaration)) :
    offersBelow relations = relations.flatMap (·.2.offers) := by
  induction relations with
  | nil => simp [offersBelow]
  | cons m rest ih => simp [offersBelow, ih]

/-- The offers of a declaration are those of its rules and then those of its relations. -/
theorem offers_eq (d : Declaration) :
    d.offers = d.rules.flatMap RuleDeclaration.offers ++ d.relations.flatMap (·.2.offers) := by
  cases d with
  | mk rules relations locale maxDepth? => rw [offers, offersBelow_eq_flatMap]; rfl

/-- The rules that are **declared**, at any nesting. -/
inductive Declares : Declaration → RuleDeclaration → Prop where
  /-- A rule of the declaration itself. -/
  | own {d : Declaration} {rule : RuleDeclaration} (mem : rule ∈ d.rules) : Declares d rule
  /-- A rule that the declaration of a relation declares. -/
  | nested {d d' : Declaration} {name : String} {rule : RuleDeclaration}
      (mem : (name, d') ∈ d.relations) (inside : Declares d' rule) : Declares d rule

/-- The declaration of a relation is smaller than the one it stands in. -/
theorem sizeOf_lt_of_mem_relations {d d' : Declaration} {name : String}
    (h : (name, d') ∈ d.relations) : sizeOf d' < sizeOf d := by
  cases d with
  | mk rules relations locale maxDepth? =>
    have hlt := List.sizeOf_lt_of_mem (show (name, d') ∈ relations from h)
    simp only [Prod.mk.sizeOf_spec] at hlt
    simp only [mk.sizeOf_spec]
    omega

/-- An offer is among those of a declaration exactly if its rule is declared and lists its
operation. -/
theorem mem_offers_iff {d : Declaration} {f : Offer} :
    f ∈ d.offers ↔ d.Declares f.rule ∧ f.operation ∈ f.rule.operations := by
  rw [offers_eq, List.mem_append, List.mem_flatMap, List.mem_flatMap]
  constructor
  · rintro (⟨rule, hrule, hf⟩ | ⟨⟨name, d'⟩, hmem, hf⟩)
    · obtain ⟨o, ho, rfl⟩ := List.mem_map.1 hf
      exact ⟨.own hrule, ho⟩
    · have := sizeOf_lt_of_mem_relations hmem
      obtain ⟨hinside, ho⟩ := mem_offers_iff.1 hf
      exact ⟨.nested hmem hinside, ho⟩
  · rintro ⟨hdeclares, ho⟩
    cases hdeclares with
    | own hrule => exact .inl ⟨f.rule, hrule, List.mem_map.2 ⟨f.operation, ho, rfl⟩⟩
    | nested hmem hinside =>
      have := sizeOf_lt_of_mem_relations hmem
      exact .inr ⟨_, hmem, mem_offers_iff.2 ⟨hinside, ho⟩⟩
termination_by sizeOf d

end Declaration

/-! ## Failing on an offer -/

/-- A computation that **fails on an offer**: with the error about the offer if there is one, and
not at all if there is none. -/
def FailsOn {α : Type _} (x : Except BuildError α) : Option Offer → Prop
  | some f => x = .error f.error
  | none => ∃ a, x = .ok a

namespace FailsOn

variable {α β : Type _} {x : Except BuildError α} {f? : Option Offer}

/-- Of two parts of a computation the first that fails decides. -/
theorem bind {g : α → Except BuildError β} {g? : Option Offer} (hx : FailsOn x f?)
    (hg : ∀ a, FailsOn (g a) g?) : FailsOn (x >>= g) (f?.or g?) := by
  cases f? with
  | some f =>
    obtain rfl : x = .error f.error := hx
    rfl
  | none =>
    obtain ⟨a, rfl⟩ := hx
    exact hg a

/-- What is made of the result does not change on what a computation fails. -/
theorem map {g : α → β} (hx : FailsOn x f?) : FailsOn (x.map g) f? := by
  cases f? with
  | some f =>
    obtain rfl : x = .error f.error := hx
    rfl
  | none =>
    obtain ⟨a, rfl⟩ := hx
    exact ⟨g a, rfl⟩

/-- A computation that fails on an offer fails with the error about it, and else not at all. -/
theorem eq_error_iff (hx : FailsOn x f?) {e : BuildError} :
    x = .error e ↔ ∃ f, f? = some f ∧ e = f.error := by
  cases f? with
  | some f =>
    obtain rfl : x = .error f.error := hx
    simp [eq_comm]
  | none =>
    obtain ⟨a, rfl⟩ := hx
    simp

end FailsOn

/-- Declaring a rule fails on its first offer that is not permitted. -/
theorem Rule.declare_failsOn {F : Type} (d : RuleDeclaration) (bind : Operation → Operand → F) :
    FailsOn (declare d.name d.constraint d.operations bind) (firstForbidden? d.offers) := by
  rw [d.firstForbidden?_offers]
  cases h : d.operations.find? (!d.constraint.permits ·) with
  | some o => exact declare_of_forbidden h
  | none => exact declare_of_permitted h

namespace Declaration

/-- Registering rules fails on the first of their offers that is not permitted. -/
theorem registerRules_failsOn (rules : List RuleDeclaration) (s : Schema (Filter Record)) :
    FailsOn (rules.foldlM registerRule s)
      (firstForbidden? (rules.flatMap RuleDeclaration.offers)) := by
  induction rules generalizing s with
  | nil => exact ⟨s, rfl⟩
  | cons d rules ih =>
    rw [List.foldlM_cons, List.flatMap_cons, firstForbidden?_append]
    exact (Rule.declare_failsOn d _).map.bind ih

mutual

/-- **Making a schema fails on the first offer that is not permitted**. -/
theorem schema_failsOn (d : Declaration) : FailsOn d.schema (firstForbidden? d.offers) := by
  cases d with
  | mk rules relations locale maxDepth? =>
    rw [schema, offers, firstForbidden?_append]
    exact (registerRules_failsOn rules _).bind fun s => registerRelations_failsOn relations s
termination_by sizeOf d

/-- Registering relations fails on the first of the offers below them that is not permitted. -/
theorem registerRelations_failsOn (relations : List (String × Declaration))
    (s : Schema (Filter Record)) :
    FailsOn (registerRelations relations s) (firstForbidden? (offersBelow relations)) := by
  match relations with
  | [] => exact ⟨s, by rw [registerRelations]⟩
  | (name, d) :: rest =>
    rw [registerRelations, offersBelow, firstForbidden?_append]
    exact (schema_failsOn d).bind fun child => registerRelations_failsOn rest _
termination_by sizeOf relations

end

/-- **When a declaration fails, and with which error**. It fails exactly if a rule that is declared
at any nesting lists an operation that its constraint does not permit. The error names the first
offer that is not permitted: all that stand before it are. -/
theorem schema_eq_error_iff (d : Declaration) :
    ((∃ e, d.schema = .error e) ↔
      ∃ rule o, d.Declares rule ∧ o ∈ rule.operations ∧ ¬ rule.constraint.permits o) ∧
    ∀ e, d.schema = .error e ↔
      ∃ (rule : RuleDeclaration) (o : Operation) (before after : List Offer),
        e = .unsupportedOperation rule.name o rule.constraint ∧
          d.offers = before ++ ⟨rule, o⟩ :: after ∧ ¬ rule.constraint.permits o ∧
            ∀ f ∈ before, f.rule.constraint.permits f.operation := by
  -- Both parts are about the first offer that is not permitted.
  have herror (e : BuildError) :
      d.schema = .error e ↔ ∃ f, firstForbidden? d.offers = some f ∧ e = f.error :=
    d.schema_failsOn.eq_error_iff
  constructor
  · calc (∃ e, d.schema = .error e)
        ↔ (firstForbidden? d.offers).isSome := by simp [herror, Option.isSome_iff_exists]
      _ ↔ ∃ f ∈ d.offers, ¬ f.isPermitted := isSome_firstForbidden?_iff
      _ ↔ ∃ rule o, d.Declares rule ∧ o ∈ rule.operations ∧ ¬ rule.constraint.permits o := by
        constructor
        · rintro ⟨f, hf, hforbidden⟩
          obtain ⟨hdeclares, ho⟩ := mem_offers_iff.1 hf
          exact ⟨f.rule, f.operation, hdeclares, ho, hforbidden⟩
        · rintro ⟨rule, o, hdeclares, ho, hforbidden⟩
          exact ⟨⟨rule, o⟩, mem_offers_iff.2 ⟨hdeclares, ho⟩, hforbidden⟩
  · intro e
    rw [herror]
    constructor
    · rintro ⟨⟨rule, o⟩, hfirst, rfl⟩
      obtain ⟨hforbidden, before, after, hoffers, hbefore⟩ := firstForbidden?_eq_some_iff.1 hfirst
      exact ⟨rule, o, before, after, rfl, hoffers, hforbidden, hbefore⟩
    · rintro ⟨rule, o, before, after, rfl, hoffers, hforbidden, hbefore⟩
      exact ⟨⟨rule, o⟩,
        firstForbidden?_eq_some_iff.2 ⟨hforbidden, before, after, hoffers, hbefore⟩, rfl⟩

/-- A rule counts before every relation, and one that is declared again is checked all the same. -/
example :
    (mk [⟨"age", .number, [.equals, .startsWith]⟩, ⟨"age", .number, [.equals]⟩]
      [("pets", mk [⟨"species", .dropdown, [.lessThan]⟩] [] .english none)] .english none).schema =
        .error (.unsupportedOperation "age" .startsWith .number) := rfl

end Declaration

end Criteria
