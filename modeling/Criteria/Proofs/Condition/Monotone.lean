import Criteria.Condition
import Mathlib.Data.List.Forall2

/-! # Conditions and growing records
A condition never counts on the absence of data: an absent field passes no rule, a relation asks for
one related record, and nothing negates. So an answer of yes stays a yes when a record is given more
data; and since a condition only reads what it names, nothing else can change its answer.

What "more data" means depends on what is read. `Condition.Extends` compares two records along a
condition: the fields that it names, and the collections that it names, record by record, with what
it asks of the related records. `Record.Within` compares them in whole.

* `Condition.Extends`: a record extends another as far as a condition reads them.
* `Record.Within`: a record holds all that another holds, at every nesting.
* `Condition.Agrees`: two records agree on everything that a condition names.

Main statement: `Condition.adheres_monotone`. -/

namespace Criteria

/-! ## Records within records -/

namespace Record

/-- A related record is smaller than the record it belongs to. -/
theorem sizeOf_lt_of_mem_related {r x : Record} {name : String} (h : x ∈ r.related name) :
    sizeOf x < sizeOf r := by
  obtain ⟨fields, collections⟩ := r
  change x ∈ (collections.lookup name).getD [] at h
  cases hfind : collections.lookup name with
  | none => simp [hfind] at h
  | some records =>
    rw [hfind, Option.getD_some] at h
    obtain ⟨before, after, rfl, -⟩ := List.lookup_eq_some_iff.1 hfind
    have hrecords : sizeOf (name, records) < sizeOf (before ++ (name, records) :: after) :=
      List.sizeOf_lt_of_mem (by simp)
    have hx : sizeOf x < sizeOf records := List.sizeOf_lt_of_mem h
    simp only [Record.mk.sizeOf_spec, Prod.mk.sizeOf_spec] at hrecords ⊢
    omega

/-- A record **within** another: each field is absent or the same there, and each related record has
one there that it is within. -/
def Within (r r' : Record) : Prop :=
  (∀ name, r.field name = none ∨ r'.field name = r.field name) ∧
    ∀ name, ∀ x ∈ r.related name, ∃ x' ∈ r'.related name, x.Within x'
termination_by sizeOf r
decreasing_by exact sizeOf_lt_of_mem_related ‹_›

/-- The record within another, one level down. -/
theorem within_iff {r r' : Record} :
    r.Within r' ↔ (∀ name, r.field name = none ∨ r'.field name = r.field name) ∧
      ∀ name, ∀ x ∈ r.related name, ∃ x' ∈ r'.related name, x.Within x' := by
  rw [Within]

/-- A record is within itself. -/
theorem Within.refl (r : Record) : r.Within r :=
  within_iff.2 ⟨fun _ => .inr rfl, fun _ x hx => ⟨x, hx, Within.refl x⟩⟩
termination_by sizeOf r
decreasing_by exact sizeOf_lt_of_mem_related ‹_›

/-- A record is within what it becomes by a field that it did not have. -/
theorem within_setField {r : Record} {name : String} (h : r.field name = none) (v : Reading) :
    r.Within (r.setField name v) := by
  refine within_iff.2 ⟨fun other => ?_, fun _ x hx => ⟨x, hx, .refl x⟩⟩
  rw [field_setField]
  split
  · next heq => exact .inl (heq ▸ h)
  · exact .inr rfl

/-- A record is within what it becomes by a collection that holds all that was related before. -/
theorem within_setRelated {r : Record} {name : String} {records : List Record}
    (h : ∀ x ∈ r.related name, ∃ x' ∈ records, x.Within x') :
    r.Within (r.setRelated name records) := by
  refine within_iff.2 ⟨fun _ => .inr rfl, fun other x hx => ?_⟩
  rw [related_setRelated]
  split
  · next heq => exact h x (heq ▸ hx)
  · exact ⟨x, hx, .refl x⟩

end Record

namespace Condition

/-- **Induction over conditions**: what holds of a condition if it holds of its children holds of
every condition. -/
@[elab_as_elim, induction_eliminator] theorem treeInduction {motive : Condition → Prop}
    (group : ∀ c children, (∀ child ∈ children, motive child) → motive (.group c children))
    (rule : ∀ field o v, motive (.rule field o v))
    (relation : ∀ field c children, (∀ child ∈ children, motive child) →
      motive (.relation field c children)) (c : Condition) : motive c := by
  match c with
  | .group c children =>
    exact group c children fun child _ => treeInduction group rule relation child
  | .rule field o v => exact rule field o v
  | .relation field c children =>
    exact relation field c children fun child _ => treeInduction group rule relation child

/-! ## Answers along the condition -/

/-- A record passes a group by joining the answers of the children. -/
@[simp] theorem adheres_group (c : Combinator) (children : List Condition) (r : Record) :
    (group c children).toFilter.adheres r = c.join (·.toFilter.adheres r) children := by
  rw [toFilter, toFilters_eq_map, Filter.adheres_group, Combinator.join_map]
  rfl

/-- A record passes a rule if the operation holds of its field. -/
@[simp] theorem adheres_rule (field : String) (o : Operation) (v : Operand) (r : Record) :
    (rule field o v).toFilter.adheres r = o.holds v (r.field field) := by
  rw [toFilter, Record.rule, Filter.adheres_rule]

/-- A record passes a relation if a related record passes the group of the children. -/
@[simp] theorem adheres_relation (field : String) (c : Combinator) (children : List Condition)
    (r : Record) :
    (relation field c children).toFilter.adheres r =
      (r.related field).any fun x => (group c children).toFilter.adheres x := by
  rw [toFilter, toFilter]
  exact Filter.adheres_relate _ c _ r

/-! ## Records that extend others along a condition -/

/-- A record **extends** another as far as a condition reads them: each field that it compares was
absent or is the same, and each record in a collection that it asks for has one that extends it, as
far as the children of the relation read them. -/
def Extends : Condition → Record → Record → Prop
  | group _ children, r, r' => ∀ child ∈ children, child.Extends r r'
  | rule field _ _, r, r' => r.field field = none ∨ r'.field field = r.field field
  | relation field _ children, r, r' =>
    ∀ x ∈ r.related field, ∃ x' ∈ r'.related field, ∀ child ∈ children, child.Extends x x'

/-- Two records **agree** on everything that a condition names: each field that it compares reads
the same, and in each collection that it asks for stand as many records, agreeing one by one on
everything that the children of the relation name. -/
def Agrees : Condition → Record → Record → Prop
  | group _ children, r, r' => ∀ child ∈ children, child.Agrees r r'
  | rule field _ _, r, r' => r'.field field = r.field field
  | relation field _ children, r, r' =>
    List.Forall₂ (fun x x' => ∀ child ∈ children, child.Agrees x x') (r.related field)
      (r'.related field)

/-- **What passes still passes** when it is extended as far as the condition reads it. -/
theorem Extends.adheres {c : Condition} {r r' : Record} (h : c.Extends r r')
    (hr : c.toFilter.adheres r) : c.toFilter.adheres r' := by
  induction c generalizing r r' with
  | group c children ih =>
    rw [Extends] at h
    rw [adheres_group] at hr ⊢
    exact Combinator.join_mono (fun child hmem => ih child hmem (h child hmem)) hr
  | rule field o v =>
    rw [Extends] at h
    rw [adheres_rule] at hr ⊢
    rcases h with habsent | hsame
    · rw [habsent, Operation.holds_none] at hr
      cases hr
    · rw [hsame]
      exact hr
  | relation field c children ih =>
    rw [Extends] at h
    rw [adheres_relation, List.any_eq_true] at hr ⊢
    -- The record that passes has one that extends it, and that one passes too.
    obtain ⟨x, hx, hpasses⟩ := hr
    obtain ⟨x', hx', hextends⟩ := h x hx
    refine ⟨x', hx', ?_⟩
    rw [adheres_group] at hpasses ⊢
    exact Combinator.join_mono (fun child hmem => ih child hmem (hextends child hmem)) hpasses

/-- A record that holds all that another holds extends it, whatever is read. -/
theorem extends_of_within (c : Condition) {r r' : Record} (h : r.Within r') : c.Extends r r' := by
  induction c generalizing r r' with
  | group c children ih =>
    rw [Extends]
    exact fun child hmem => ih child hmem h
  | rule field o v =>
    rw [Extends]
    exact (Record.within_iff.1 h).1 field
  | relation field c children ih =>
    rw [Extends]
    intro x hx
    obtain ⟨x', hx', hwithin⟩ := (Record.within_iff.1 h).2 field x hx
    exact ⟨x', hx', fun child hmem => ih child hmem hwithin⟩

/-- Records agree in either direction. -/
theorem Agrees.symm {c : Condition} {r r' : Record} (h : c.Agrees r r') : c.Agrees r' r := by
  induction c generalizing r r' with
  | group c children ih =>
    rw [Agrees] at h ⊢
    exact fun child hmem => ih child hmem (h child hmem)
  | rule field o v =>
    rw [Agrees] at h ⊢
    exact h.symm
  | relation field c children ih =>
    rw [Agrees] at h ⊢
    exact (h.imp fun _ _ hagree child hmem => ih child hmem (hagree child hmem)).flip

/-- Of two records that agree each extends the other. -/
theorem Agrees.extends {c : Condition} {r r' : Record} (h : c.Agrees r r') : c.Extends r r' := by
  induction c generalizing r r' with
  | group c children ih =>
    rw [Agrees] at h
    rw [Extends]
    exact fun child hmem => ih child hmem (h child hmem)
  | rule field o v =>
    rw [Agrees] at h
    rw [Extends]
    exact .inr h
  | relation field c children ih =>
    rw [Agrees] at h
    rw [Extends]
    intro x hx
    obtain ⟨i, hi, rfl⟩ := List.getElem_of_mem hx
    have hi' : i < (r'.related field).length := h.length_eq ▸ hi
    exact ⟨_, List.getElem_mem hi', fun child hmem => ih child hmem (h.get hi hi' child hmem)⟩

/-- **More data never turns a yes into a no, and only what is named counts**. A condition that
passes a record passes each record that extends it as far as the condition reads them, and so each
record that holds all that it holds; and records that agree on everything that the condition names
get the same answer. -/
theorem adheres_monotone (c : Condition) :
    (∀ r r', c.Extends r r' → c.toFilter.adheres r → c.toFilter.adheres r') ∧
    (∀ r r', r.Within r' → c.toFilter.adheres r → c.toFilter.adheres r') ∧
    ∀ r r', c.Agrees r r' → c.toFilter.adheres r = c.toFilter.adheres r' := by
  refine ⟨fun r r' h hr => h.adheres hr, fun r r' h hr => (c.extends_of_within h).adheres hr,
    fun r r' h => ?_⟩
  rw [Bool.eq_iff_iff]
  exact ⟨h.extends.adheres, h.symm.extends.adheres⟩

end Condition

/-! ## An owner who gets a bird and moves -/

/-- Owners older than thirty with a cat. -/
def Condition.olderWithCat : Condition :=
  .group .and [.rule "age" .greaterThan (.single (.int 30)),
    .relation "pets" .or [.rule "species" .equals (.single (.text "cat"))]]

/-- A cat of which only the species is known. -/
def Record.cat : Record := .mk [("species", .text "cat")] []

/-- An owner of a cat, in Ghent. -/
def Record.ownerOfCat : Record :=
  .mk [("age", .int 42), ("city", .text "Ghent")] [("pets", [cat])]

/-- The same owner with a bird beside the cat, whose legs have been counted. -/
def Record.withBird : Record :=
  ownerOfCat.setRelated "pets"
    [.mk [("species", .text "bird")] [], cat.setField "legs" (some (.int 4))]

/-- A record after a move. -/
def Record.moved (r : Record) : Record := r.setField "city" (some (.text "Bruges"))

/-- The owner is within what becomes of the owner by the bird. -/
theorem Record.within_withBird : ownerOfCat.Within withBird := by
  refine within_setRelated fun x hx => ⟨cat.setField "legs" (some (.int 4)), by simp, ?_⟩
  obtain rfl : x = cat := List.mem_singleton.1 hx
  exact within_setField rfl _

/-- After the move with the bird, the owner extends the owner before along the condition, although
the city is another. -/
theorem Condition.extends_moved_withBird :
    olderWithCat.Extends .ownerOfCat Record.withBird.moved := by
  have hspecies : (rule "species" .equals (.single (.text "cat"))).Extends .cat
      (Record.cat.setField "legs" (some (.int 4))) := by
    rw [Extends]
    exact .inr rfl
  rw [olderWithCat, Extends]
  refine List.forall_mem_cons.2 ⟨?_, List.forall_mem_singleton.2 ?_⟩
  · rw [Extends]
    exact .inr rfl
  · rw [Extends]
    intro x hx
    obtain rfl : x = .cat := List.mem_singleton.1 hx
    exact ⟨_, .tail _ (.head _), List.forall_mem_singleton.2 hspecies⟩

/-- The condition does not name the city, so the owner agrees before and after the move. -/
theorem Condition.agrees_moved : olderWithCat.Agrees .ownerOfCat Record.ownerOfCat.moved := by
  have hspecies : (rule "species" .equals (.single (.text "cat"))).Agrees .cat .cat := by
    rw [Agrees]
  rw [olderWithCat, Agrees]
  refine List.forall_mem_cons.2 ⟨?_, List.forall_mem_singleton.2 ?_⟩
  · rw [Agrees]
    rfl
  · rw [Agrees]
    exact .cons (List.forall_mem_singleton.2 hspecies) .nil

/-- The owner passes before, with the bird, and after the move. -/
theorem Condition.adheres_olderWithCat :
    olderWithCat.toFilter.adheres .ownerOfCat ∧
      olderWithCat.Extends .ownerOfCat Record.withBird.moved ∧
      olderWithCat.toFilter.adheres Record.withBird.moved ∧
      Record.ownerOfCat.Within .withBird ∧ olderWithCat.toFilter.adheres .withBird ∧
      olderWithCat.Agrees .ownerOfCat Record.ownerOfCat.moved ∧
      olderWithCat.toFilter.adheres .ownerOfCat =
        olderWithCat.toFilter.adheres Record.ownerOfCat.moved := by
  have hpasses : olderWithCat.toFilter.adheres .ownerOfCat := by decide
  refine ⟨hpasses, extends_moved_withBird, ?_, Record.within_withBird, ?_, agrees_moved, ?_⟩
  · exact olderWithCat.adheres_monotone.1 _ _ extends_moved_withBird hpasses
  · exact olderWithCat.adheres_monotone.2.1 _ _ Record.within_withBird hpasses
  · exact olderWithCat.adheres_monotone.2.2 _ _ agrees_moved

end Criteria
