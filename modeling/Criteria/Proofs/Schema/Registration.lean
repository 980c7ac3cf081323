import Criteria.Proofs.Declaration.Lookup
import Criteria.Proofs.Schema.ByteOrder
import Criteria.Proofs.Schema.Declaring

/-! # Schemas that are made call by call
A schema starts empty and takes calls (`Schema.Call`): some register an entry, some set the
translator, some set the limit on nesting, in any order. What a run of calls leaves behind can be
told from the calls alone: `latest?` is the entry that was registered last under a name,
`translatorAfter` and `maxDepthAfter` are what was set last, or the default.

`Reflects` is the invariant. A call does one of three things (`Call.apply_cases`) and keeps it
(`Reflects.step`), and so does a run of calls (`Reflects.run`).

Main statement: `registry_of_run`, what lookups, names, size and limit of a schema are after any
run. -/

namespace Criteria.Schema

variable {F : Type}

/-! ## Calls -/

/-- A **call** that changes a schema for filters of type `F`. -/
inductive Call (F : Type) : Type 1 where
  /-- Registers a rule, with a check of its own or without. -/
  | rule (name : String) (constraint : Constraint) (operations : List Operation)
      (bind : Operation → Operand → F) (check? : Option Check)
  /-- Registers a relation. -/
  | relation {G : Type} (name : String) (bind : Combinator → List G → F) (child : Schema G)
  /-- Registers an entry that was made before. -/
  | entry (e : Entry F)
  /-- Sets the translator. -/
  | translator (t : Translator)
  /-- Sets the translator of a built-in language. -/
  | locale (l : Locale)
  /-- Sets the limit on nesting. -/
  | maxDepth (n : UInt64)

namespace Call

/-- What a call makes of a schema. -/
def apply : Call F → Schema F → Except BuildError (Schema F)
  | rule name constraint operations bind check?, s =>
    s.registerRule name constraint operations bind check?
  | relation name bind child, s => .ok (s.registerRelation name bind child)
  | entry e, s => .ok (s.register e)
  | translator t, s => .ok (s.withTranslator t)
  | locale l, s => .ok (s.withTranslator l.translator)
  | maxDepth n, s => .ok (s.withMaxDepth n)

/-- The name under which a call registers. -/
def name? : Call F → Option String
  | rule name _ _ _ _ => some name
  | relation name _ _ => some name
  | entry e => some e.name
  | _ => none

/-- The entry that a call registers. -/
def registers? : Call F → Option (Entry F)
  | rule name constraint operations bind check? =>
    (Rule.declare name constraint operations bind).toOption.map fun r => .rule { r with check? }
  | relation name bind child => some (.relation name bind child)
  | entry e => some e
  | _ => none

/-- The translator that a call sets. -/
def translator? : Call F → Option Translator
  | translator t => some t
  | locale l => some l.translator
  | _ => none

/-- The limit that a call sets. -/
def maxDepth? : Call F → Option UInt64
  | maxDepth n => some n
  | _ => none

/-- **What a call does**: it registers an entry under the name that the entry has, or it sets the
translator, or it sets the limit. -/
theorem apply_cases {c : Call F} {s s' : Schema F} (h : c.apply s = .ok s') :
    (∃ e, c.name? = some e.name ∧ c.registers? = some e ∧ c.translator? = none ∧
      c.maxDepth? = none ∧ s' = s.register e) ∨
    (∃ t, c.name? = none ∧ c.translator? = some t ∧ c.maxDepth? = none ∧
      s' = s.withTranslator t) ∨
    (∃ n, c.name? = none ∧ c.translator? = none ∧ c.maxDepth? = some n ∧
      s' = s.withMaxDepth n) := by
  cases c with
  | rule name constraint operations bind check? =>
    obtain ⟨r, hr, rfl⟩ := declare_of_registerRule h
    -- The name that the call gives is the one that the rule keeps.
    obtain ⟨hname, -⟩ := Rule.bind_of_declare hr
    refine .inl ⟨.rule { r with check? }, congrArg some hname.symm, ?_, rfl, rfl, rfl⟩
    rw [registers?, hr]
    rfl
  | relation name bind child => exact .inl ⟨_, rfl, rfl, rfl, rfl, (Except.ok.inj h).symm⟩
  | entry e => exact .inl ⟨e, rfl, rfl, rfl, rfl, (Except.ok.inj h).symm⟩
  | translator t => exact .inr (.inl ⟨t, rfl, rfl, rfl, (Except.ok.inj h).symm⟩)
  | locale l => exact .inr (.inl ⟨l.translator, rfl, rfl, rfl, (Except.ok.inj h).symm⟩)
  | maxDepth n => exact .inr (.inr ⟨n, rfl, rfl, rfl, (Except.ok.inj h).symm⟩)

variable {c : Call F} {s s' : Schema F}

/-- After a call the name that it registers under finds the entry of the call, and all other names
find what they found. -/
theorem find?_of_apply (h : c.apply s = .ok s') (name : String) :
    s'.find? name = if c.name? = some name then c.registers? else s.find? name := by
  rcases apply_cases h with ⟨e, hname, hentry, -, -, rfl⟩ | ⟨t, hname, -, -, rfl⟩ |
    ⟨n, hname, -, -, rfl⟩
  · simp only [find?_register, hname, hentry, Option.some.injEq]
  · rw [hname]
    rfl
  · rw [hname]
    rfl

/-- A call that does not fail registers an entry if it gives a name. -/
theorem isSome_registers?_of_apply {name : String} (h : c.apply s = .ok s')
    (hname : c.name? = some name) : c.registers?.isSome := by
  rcases apply_cases h with ⟨e, -, hentry, -⟩ | ⟨t, hnone, -⟩ | ⟨n, hnone, -⟩
  · exact Option.isSome_of_eq_some hentry
  · cases hnone.symm.trans hname
  · cases hnone.symm.trans hname

/-- A call keeps the names in strictly increasing order. -/
theorem pairwise_names_of_apply (h : c.apply s = .ok s') (hs : s.names.Pairwise (· < ·)) :
    s'.names.Pairwise (· < ·) := by
  rcases apply_cases h with ⟨e, -, -, -, -, rfl⟩ | ⟨t, -, -, -, rfl⟩ | ⟨n, -, -, -, rfl⟩
  · exact Registry.pairwise_names_insert hs
  · exact hs
  · exact hs

/-- After a call the translator is the one that it sets, or the one from before. -/
theorem translator_of_apply (h : c.apply s = .ok s') :
    s'.translator = c.translator?.getD s.translator := by
  rcases apply_cases h with ⟨e, -, -, ht, -, rfl⟩ | ⟨t, -, ht, -, rfl⟩ | ⟨n, -, ht, -, rfl⟩ <;>
    rw [ht] <;> rfl

/-- After a call the limit is the one that it sets, or the one from before. -/
theorem maxDepth_of_apply (h : c.apply s = .ok s') :
    s'.maxDepth = c.maxDepth?.getD s.maxDepth := by
  rcases apply_cases h with ⟨e, -, -, -, hn, rfl⟩ | ⟨t, -, -, hn, rfl⟩ | ⟨n, -, -, hn, rfl⟩ <;>
    rw [hn] <;> rfl

end Call

/-- A **run** of calls: one after the other, until one fails. -/
def run (calls : List (Call F)) (s : Schema F) : Except BuildError (Schema F) :=
  calls.foldlM (fun s c => c.apply s) s

/-! ## What the calls say -/

/-- The names under which calls register. -/
def registered (calls : List (Call F)) : List String := calls.filterMap Call.name?

/-- The entry of the **latest** call that registers under the name. -/
def latest? (calls : List (Call F)) (name : String) : Option (Entry F) :=
  (calls.reverse.find? (·.name? == some name)).bind Call.registers?

/-- The translator that is set last; English, if none is. -/
def translatorAfter (calls : List (Call F)) : Translator :=
  (calls.reverse.findSome? Call.translator?).getD .english

/-- The limit that is set last; the default, if none is. -/
def maxDepthAfter (calls : List (Call F)) : UInt64 :=
  (calls.reverse.findSome? Call.maxDepth?).getD defaultMaxDepth

/-- One call more adds the name that it registers under. -/
theorem mem_registered_snoc {calls : List (Call F)} {c : Call F} {name : String} :
    name ∈ registered (calls ++ [c]) ↔ c.name? = some name ∨ name ∈ registered calls := by
  simp [registered, or_comm]

/-- One call more is the latest under its name. -/
theorem latest?_snoc (calls : List (Call F)) (c : Call F) (name : String) :
    latest? (calls ++ [c]) name =
      if c.name? = some name then c.registers? else latest? calls name := by
  by_cases h : c.name? = some name <;> simp [latest?, h]

/-- One call more sets its translator last, if it sets one. -/
theorem translatorAfter_snoc (calls : List (Call F)) (c : Call F) :
    translatorAfter (calls ++ [c]) = c.translator?.getD (translatorAfter calls) := by
  cases h : c.translator? <;> simp [translatorAfter, h]

/-- One call more sets its limit last, if it sets one. -/
theorem maxDepthAfter_snoc (calls : List (Call F)) (c : Call F) :
    maxDepthAfter (calls ++ [c]) = c.maxDepth?.getD (maxDepthAfter calls) := by
  cases h : c.maxDepth? <;> simp [maxDepthAfter, h]

/-! ## Schemas that reflect calls -/

/-- A schema **reflects** calls: it is what the calls say. -/
structure Reflects (s : Schema F) (calls : List (Call F)) : Prop where
  /-- A name finds the entry that was registered last under it. -/
  find? : ∀ name, s.find? name = latest? calls name
  /-- A name finds an entry exactly if it was registered. -/
  found : ∀ name, (s.find? name).isSome ↔ name ∈ registered calls
  /-- The names are in strictly increasing order. -/
  increasing : s.names.Pairwise (· < ·)
  /-- The translator is the one that was set last. -/
  translator : s.translator = translatorAfter calls
  /-- The limit is the one that was set last. -/
  maxDepth : s.maxDepth = maxDepthAfter calls

namespace Reflects

variable {calls : List (Call F)} {s s' : Schema F}

/-- An empty schema reflects no calls. -/
theorem empty (target : Target F) : (empty target).Reflects [] where
  find? _ := rfl
  found name := by simp [Schema.empty, Schema.find?, registry, registered]
  increasing := .nil
  translator := rfl
  maxDepth := rfl

/-- After one call more, the schema reflects one call more. -/
theorem step {c : Call F} (hs : s.Reflects calls) (h : c.apply s = .ok s') :
    s'.Reflects (calls ++ [c]) where
  find? name := by rw [latest?_snoc, ← hs.find?, Call.find?_of_apply h]
  found name := by
    rw [Call.find?_of_apply h, mem_registered_snoc, ← hs.found]
    by_cases hname : c.name? = some name
    · simp [hname, Call.isSome_registers?_of_apply h hname]
    · simp [hname]
  increasing := Call.pairwise_names_of_apply h hs.increasing
  translator := by rw [translatorAfter_snoc, ← hs.translator, Call.translator_of_apply h]
  maxDepth := by rw [maxDepthAfter_snoc, ← hs.maxDepth, Call.maxDepth_of_apply h]

/-- After a run, the schema reflects the calls of the run too. -/
theorem run {more : List (Call F)} (hs : s.Reflects calls) (h : run more s = .ok s') :
    s'.Reflects (calls ++ more) := by
  induction more generalizing s calls with
  | nil =>
    cases h
    rwa [List.append_nil]
  | cons c more ih =>
    rw [Schema.run, List.foldlM_cons] at h
    obtain ⟨t, ht, h⟩ := exists_of_bind_eq_ok h
    -- The first call of the run goes over to the calls that are reflected already.
    rw [List.append_cons]
    exact ih (hs.step ht) h

/-- The names of a schema are those under which the calls register. -/
theorem mem_names_iff (hs : s.Reflects calls) {name : String} :
    name ∈ s.names ↔ name ∈ registered calls :=
  Registry.mem_names_iff.trans (hs.found name)

/-- The names are as many as there are different names among the registered ones. -/
theorem size_eq (hs : s.Reflects calls) : s.size = (registered calls).eraseDups.length := by
  have hnodup : s.names.Nodup := hs.increasing.imp fun hlt => ne_of_lt hlt
  have hperm : s.names.Perm (registered calls).eraseDups := by
    rw [List.perm_ext_iff_of_nodup hnodup (firstOccurrences_eraseDups _).nodup]
    intro name
    rw [hs.mem_names_iff, List.mem_eraseDups]
  exact hperm.length_eq

end Reflects

/-- **What any run of calls leaves behind**, whatever the order of the calls. A name that was
registered finds the entry that was registered last under it, and the entry has that name. Any other
name finds nothing, which the translator that was set last tells, however early the registrations
were. The names are those that were registered, in the strictly increasing order of their bytes, and
the limit is the one that was set last. -/
theorem registry_of_run {target : Target F} {calls : List (Call F)} {s : Schema F}
    (h : run calls (.empty target) = .ok s) :
    (∀ name ∈ registered calls,
      ∃ e, latest? calls name = some e ∧ e.name = name ∧ s.lookup name = .ok e) ∧
    (∀ name, s.contains name ↔ name ∈ registered calls) ∧
    (∀ name ∉ registered calls, s.lookup name =
      .error (.missingEntry name ((translatorAfter calls).fieldIssue .missingEntry name))) ∧
    s.names.Pairwise (fun a b => Text.bytes a < Text.bytes b) ∧
    (∀ name, name ∈ s.names ↔ name ∈ registered calls) ∧
    s.size = (registered calls).eraseDups.length ∧
    s.maxDepth = maxDepthAfter calls := by
  have hs : s.Reflects calls := (Reflects.empty target).run h
  refine ⟨fun name hname => ?_, hs.found, fun name hname => ?_, ?_, fun _ => hs.mem_names_iff,
    hs.size_eq, hs.maxDepth⟩
  · obtain ⟨e, he⟩ := Option.isSome_iff_exists.1 ((hs.found name).2 hname)
    exact ⟨e, (hs.find? name).symm.trans he, Registry.name_of_find? he, by rw [lookup, he]⟩
  · have hnone : s.find? name = none := Option.not_isSome_iff_eq_none.1 (mt (hs.found name).1 hname)
    rw [lookup, hnone, missingEntry, hs.translator]
  · exact hs.increasing.imp Text.bytes_lt_bytes_iff.2

/-- A rule for pets gives way to a relation, and the language is set in between. -/
def ownerCalls : List (Call (Filter Record)) :=
  [.rule "pets" .dropdown [.equals] (Record.rule "pets") none, .maxDepth 8,
    .relation "pets" (Record.relation "pets") (.empty (Filter.target Record)), .locale .dutch,
    .rule "age" .number [.greaterThan, .oneOf] (Record.rule "age") none, .maxDepth 3]

/-- After the calls for owners, pets are a relation, a missing name is reported in Dutch and the
limit is three. -/
theorem registry_ownerCalls :
    ∃ s, run ownerCalls (.empty (Filter.target Record)) = .ok s ∧
      s.lookup "pets" =
        .ok (.relation "pets" (Record.relation "pets") (.empty (Filter.target Record))) ∧
      s.lookup "zip" =
        .error (.missingEntry "zip" "De configuratie bevat geen regel voor 'zip'") ∧
      s.names.Pairwise (fun a b => Text.bytes a < Text.bytes b) ∧
      s.size = 2 ∧ s.maxDepth = 3 := by
  obtain ⟨s, hs⟩ : ∃ s, run ownerCalls (.empty (Filter.target Record)) = .ok s := ⟨_, rfl⟩
  obtain ⟨hfound, -, hmissing, hincreasing, -, hsize, hdepth⟩ := registry_of_run hs
  obtain ⟨e, he, -, hlookup⟩ := hfound "pets" (by decide)
  cases he
  exact ⟨s, hs, hlookup, hmissing "zip" (by decide), hincreasing, hsize, hdepth⟩

end Criteria.Schema
