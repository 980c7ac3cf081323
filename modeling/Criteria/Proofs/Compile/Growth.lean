import Criteria.Proofs.Compile.Coverage
import Criteria.Proofs.Declaration.Lookup

/-! # Schemas that grow
A schema **extends** another if it accepts at least as much for the same reasons: it builds groups
alike, its limit is no lower, and each name that the other knows stands for the same kind of entry,
a rule that offers at least the same operations or a relation whose schema extends the other's. It
may know further names and word its messages in another way.

* `Entry.Extends`, `Schema.Extends`: the relation, at every nesting.

Main statement: `Schema.compile_of_extends`, a payload that a schema accepts is accepted by every
schema that extends it, with the same filter. -/

namespace Criteria

mutual

/-- An entry that **extends** another of its kind. -/
inductive Entry.Extends : {F : Type} → Entry F → Entry F → Prop where
  /-- A rule that offers at least the same operations. -/
  | rule {F : Type} {rule rule' : Rule F} (constraint : rule'.constraint = rule.constraint)
      (bind : rule'.bind = rule.bind) (complaints : ∀ x, rule'.complaints x = rule.complaints x)
      (operations : ∀ o ∈ rule.operations, o ∈ rule'.operations) :
      Entry.Extends (.rule rule) (.rule rule')
  /-- A relation whose schema extends that of the other. -/
  | relation {F G : Type} {name name' : String} {bind : Combinator → List G → F}
      {child child' : Schema G} (below : Schema.Extends child child') :
      Entry.Extends (.relation name bind child) (.relation name' bind child')

/-- A schema that **extends** another. -/
inductive Schema.Extends : {F : Type} → Schema F → Schema F → Prop where
  /-- Same target, no lower limit, and each name of the first stands for an entry that extends the
  one that it stood for. -/
  | mk {F : Type} {s s' : Schema F} (target : s'.target = s.target)
      (maxDepth : s.maxDepth ≤ s'.maxDepth)
      (registered : ∀ name, (s.find? name).isSome → (s'.find? name).isSome)
      (entries : ∀ name e e', s.find? name = some e → s'.find? name = some e' →
        Entry.Extends e e') : Schema.Extends s s'

end

namespace Schema

variable {F : Type} {s s' : Schema F}

namespace Extends

/-- A schema and one that extends it make groups alike. -/
theorem target_eq (h : s.Extends s') : s'.target = s.target := by
  cases h with
  | mk target _ _ _ => exact target

/-- A level that the limit admits is admitted after the schema has grown. -/
theorem not_maxDepth_lt (h : s.Extends s') {level : UInt64} (hlevel : ¬ s.maxDepth < level) :
    ¬ s'.maxDepth < level := by
  cases h with
  | mk _ maxDepth _ _ => exact fun hlt => hlevel (UInt64.lt_of_le_of_lt maxDepth hlt)

/-- A name that stands for an entry stands for one that extends it. -/
theorem exists_entry (h : s.Extends s') {name : String} {e : Entry F} (he : s.find? name = some e) :
    ∃ e', s'.find? name = some e' ∧ e.Extends e' := by
  cases h with
  | mk _ _ registered entries =>
    have hsome := registered name (by rw [he]; rfl)
    obtain ⟨e', he'⟩ := Option.isSome_iff_exists.1 hsome
    exact ⟨e', he', entries name e e' he he'⟩

end Extends

end Schema

/-- A role that **extends** another: what stands for an entry stands for one that extends it. -/
inductive Role.Extends {F : Type} : Role F → Role F → Prop where
  /-- Nothing. -/
  | ignored : Extends .ignored .ignored
  /-- A group. -/
  | group : Extends .group .group
  /-- An entry. -/
  | entry {e e' : Entry F} (h : e.Extends e') : Extends (.entry e) (.entry e')

namespace Schema

variable {F : Type} {s s' : Schema F}

/-- A child that stood for something known stands for what extends it. -/
theorem Extends.roleOf (h : s.Extends s') {v : Json}
    (hknown : ∀ name, s.roleOf v ≠ .unregistered name) :
    (s.roleOf v).Extends (s'.roleOf v) := by
  by_cases hgroup : v.isGroup
  · rw [roleOf_of_isGroup hgroup, roleOf_of_isGroup hgroup]
    exact .group
  cases hn : v.text? "name" with
  | none =>
    rw [roleOf_of_no_name hgroup hn, roleOf_of_no_name hgroup hn]
    exact .ignored
  | some name =>
    cases he : s.find? name with
    | none => exact absurd (roleOf_of_find?_eq_none hgroup hn he) (hknown name)
    | some e =>
      obtain ⟨e', he', hextends⟩ := h.exists_entry he
      rw [roleOf_of_find? hgroup hn he, roleOf_of_find? hgroup hn he']
      exact .entry hextends

/-- A name without an entry leaves a message. -/
theorem ne_unregistered_of_messagesOf_eq_nil {v : Json} {depth : UInt64}
    (h : s.messagesOf v depth = []) (name : String) : s.roleOf v ≠ .unregistered name := by
  intro hrole
  rw [messagesOf, hrole, messagesAs_eq] at h
  cases h

end Schema

/-- A rule node without problems has none under a rule that offers more. -/
theorem Rule.problems_eq_nil_of_offers_more {F : Type} {rule rule' : Rule F} {v : Json}
    (constraint : rule'.constraint = rule.constraint)
    (complaints : ∀ x, rule'.complaints x = rule.complaints x)
    (operations : ∀ o ∈ rule.operations, o ∈ rule'.operations) (h : rule.problems v = []) :
    rule'.problems v = [] := by
  obtain ⟨o, x, hword, hx, hoffered, hown, hfits⟩ := problems_eq_nil_iff.1 h
  refine problems_eq_nil_iff.2 ⟨o, x, hword, hx, operations o hoffered, ?_, ?_⟩
  · rw [complaints, hown]
  · rw [constraint]
    exact hfits

/-- A step that **extends** another: it settles a value in the same way without a problem, or
descends to the same children under a schema that extends the other. -/
inductive Step.Extends {F : Type} : Step F → Step F → Prop where
  /-- The value is settled without a problem. -/
  | settled {f? : Option F} : Extends (.settled f? []) (.settled f? [])
  /-- The children are compiled under a schema that extends the other. -/
  | descend {G : Type} {below below' : Schema G} {items : List Json} {bind : List G → F}
      (h : below.Extends below') : Extends (.descend below items bind) (.descend below' items bind)

namespace Schema

variable {F : Type} {s s' : Schema F}

/-- Where the step of a schema has no problem, that of a schema that extends it extends the step. -/
theorem Extends.step (h : s.Extends s') {role role' : Role F} (hrole : role.Extends role')
    (v : Json) (level : UInt64)
    (hclean : ∀ f? problems, s.step v level role = .settled f? problems → problems = []) :
    (s.step v level role).Extends (s'.step v level role') := by
  -- Where the first schema reports something there is nothing to show; what passes its checks
  -- passes those of the other, which admits more.
  cases hrole with
  | ignored => exact .settled
  | group =>
    unfold Schema.step at hclean ⊢
    cases hshape : v.groupShape? with
    | none =>
      rw [hshape] at hclean
      cases hclean _ _ rfl
    | some shape =>
      by_cases hlevel : s.maxDepth < level
      · simp only [hshape, if_pos hlevel] at hclean
        cases hclean _ _ rfl
      · simp only [if_neg hlevel, if_neg (h.not_maxDepth_lt hlevel), h.target_eq]
        exact .descend h
  | entry hentry =>
    cases hentry with
    | @rule _ rule rule' constraint bind complaints operations =>
      have hproblems : rule.problems v = [] := hclean _ _ rfl
      have hproblems' : rule'.problems v = [] :=
        Rule.problems_eq_nil_of_offers_more constraint complaints operations hproblems
      show (Step.settled (rule.filter? v) (rule.problems v)).Extends
        (.settled (rule'.filter? v) (rule'.problems v))
      rw [hproblems, hproblems', Rule.filter?_congr constraint bind]
      exact .settled
    | @relation _ G name name' bind child child' hbelow =>
      unfold Schema.step at hclean ⊢
      cases hshape : v.relationShape with
      | error i =>
        rw [hshape] at hclean
        cases hclean _ _ rfl
      | ok shape =>
        by_cases hlevel : s.maxDepth < level
        · simp only [hshape, if_pos hlevel] at hclean
          cases hclean _ _ rfl
        · simp only [if_neg hlevel, if_neg (h.not_maxDepth_lt hlevel)]
          exact .descend hbelow

/-- **Without messages nothing changes**: a value about which there is no message has none after the
schema has grown, and gives the same filter. -/
theorem Extends.compileAs_eq (h : s.Extends s') {role role' : Role F} (hrole : role.Extends role')
    {v : Json} {depth : UInt64} (hmessages : s.messagesAs role v depth = []) :
    s'.messagesAs role' v depth = [] ∧ s'.filterAs role' v depth = s.filterAs role v depth := by
  induction v using Json.treeInduction generalizing F depth with
  | step v ih =>
    rw [messagesAs_eq] at hmessages
    rw [messagesAs_eq, filterAs_eq, filterAs_eq]
    have hclean : ∀ f? problems,
        s.step v (depth + 1) role = .settled f? problems → problems = [] := by
      intro f? problems hstep
      rw [hstep] at hmessages
      exact List.map_eq_nil_iff.1 hmessages
    have hstep := h.step hrole v (depth + 1) hclean
    generalize hfirst : s.step v (depth + 1) role = step at hstep hmessages ⊢
    generalize s'.step v (depth + 1) role' = step' at hstep ⊢
    cases hstep with
    | settled => exact ⟨rfl, rfl⟩
    | @descend G below below' items bind hbelow =>
      -- Each child is known, since a name without an entry would leave a message.
      have hchild : ∀ w ∈ items, below'.messagesOf w (depth + 1) = [] ∧
          below'.filterOf w (depth + 1) = below.filterOf w (depth + 1) := by
        intro w hw
        have hnone : below.messagesOf w (depth + 1) = [] :=
          List.flatMap_eq_nil_iff.1 hmessages w hw
        have hrole := hbelow.roleOf (ne_unregistered_of_messagesOf_eq_nil hnone)
        exact ih w (mem_children_of_descend hfirst hw) hbelow hrole hnone
      constructor
      · exact List.flatMap_eq_nil_iff.2 fun w hw => (hchild w hw).1
      · have hfilters := List.filterMap_congr fun w hw => (hchild w hw).2
        exact congrArg (fun fs => some (bind fs)) hfilters

/-- **Growing never breaks a payload**: a payload that a schema accepts is accepted by each schema
that extends it, and gives the same filter. -/
theorem compile_of_extends {payload : Json} {f : F} (h : s.Extends s')
    (hf : s.compile payload = .ok f) : s'.compile payload = .ok f := by
  obtain ⟨hmessages, hfilter⟩ := compile_eq_ok_iff.1 hf
  obtain ⟨hmessages', hfilter'⟩ := h.compileAs_eq .group hmessages
  exact compile_eq_ok_iff.2 ⟨hmessages', hfilter'.trans hfilter⟩

end Schema

/-! ## Ways to grow -/

namespace Schema.Extends

variable {F : Type} {s s' : Schema F}

/-- Registering an entry, and one that extends it under the same name, keeps an extension. -/
theorem register (h : s.Extends s') {e e' : Entry F} (hname : e'.name = e.name)
    (he : e.Extends e') : (s.register e).Extends (s'.register e') := by
  cases h with
  | mk target maxDepth registered entries =>
    -- Under the name of the entry both find what was registered, and elsewhere what they found.
    refine .mk target maxDepth (fun name hfind => ?_) fun name f f' hfind hfind' => ?_
    · rw [find?_register] at hfind ⊢
      by_cases heq : e.name = name
      · rw [hname, if_pos heq]
        rfl
      · rw [if_neg heq] at hfind
        rw [hname, if_neg heq]
        exact registered name hfind
    · rw [find?_register] at hfind hfind'
      rw [hname] at hfind'
      by_cases heq : e.name = name
      · rw [if_pos heq] at hfind hfind'
        cases hfind
        cases hfind'
        exact he
      · rw [if_neg heq] at hfind hfind'
        exact entries name f f' hfind hfind'

/-- Registering an entry under a name that the first schema does not know keeps an extension. -/
theorem register_new (h : s.Extends s') {e' : Entry F} (hnew : s.find? e'.name = none) :
    s.Extends (s'.register e') := by
  cases h with
  | mk target maxDepth registered entries =>
    have hother {name : String} (hsome : (s.find? name).isSome) : e'.name ≠ name := by
      rintro rfl
      rw [hnew] at hsome
      cases hsome
    refine .mk target maxDepth (fun name hfind => ?_) fun name f f' hfind hfind' => ?_
    · rw [find?_register, if_neg (hother hfind)]
      exact registered name hfind
    · rw [find?_register, if_neg (hother (by rw [hfind]; rfl))] at hfind'
      exact entries name f f' hfind hfind'

end Schema.Extends

/-- A blank schema extends one whose limit is no higher, whatever the languages. -/
theorem Declaration.blankSchema_extends {locale locale' : Locale}
    {maxDepth? maxDepth?' : Option UInt64}
    (h : (blankSchema locale maxDepth?).maxDepth ≤ (blankSchema locale' maxDepth?').maxDepth) :
    (blankSchema locale maxDepth?).Extends (blankSchema locale' maxDepth?') := by
  refine .mk ?_ h (fun name hfind => ?_) fun name e e' hfind _ => ?_
  · rw [target_blankSchema, target_blankSchema]
  · rw [find?_blankSchema] at hfind
    cases hfind
  · rw [find?_blankSchema] at hfind
    cases hfind

/-- Owners with more to ask for: ages may be equal too, pets have legs, owners have a city, the
limit is higher, and messages are in Dutch. -/
def Declaration.ownersGrown : Declaration :=
  .mk [⟨"age", .number, [.equals, .greaterThan, .oneOf]⟩, ⟨"city", .string, [.startsWith]⟩]
    [("pets", .mk [⟨"species", .dropdown, [.equals, .oneOf]⟩, ⟨"legs", .number, [.lessThan]⟩] []
      .english none)] .dutch (some 5)

/-- A payload that owners accept gives the same filter once there is more to say of owners and
pets. -/
theorem Schema.compile_olderWithPets_of_grown :
    ∃ s s' f, Declaration.owners.schema = .ok s ∧ Declaration.ownersGrown.schema = .ok s' ∧
      s.Extends s' ∧ s.compile .olderWithPets = .ok f ∧ s'.compile .olderWithPets = .ok f := by
  refine ⟨_, _, _, rfl, rfl, ?grown, rfl, compile_of_extends ?grown rfl⟩
  apply Extends.register
  case h =>
    apply Extends.register_new
    · apply Extends.register
      · exact Declaration.blankSchema_extends (by decide)
      · rfl
      · exact .rule rfl rfl (fun _ => rfl) (by decide)
    · rfl
  case hname => rfl
  case he =>
    apply Entry.Extends.relation
    apply Extends.register_new
    · apply Extends.register
      · exact Declaration.blankSchema_extends (by decide)
      · rfl
      · exact .rule rfl rfl (fun _ => rfl) fun _ h => h
    · rfl

end Criteria
