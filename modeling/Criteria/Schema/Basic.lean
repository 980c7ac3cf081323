import Criteria.Filter.Basic
import Criteria.Schema.Rule

/-! # Schemas
A schema says what a payload may contain and what becomes of it: named entries, the target that
groups are built for, the translator of its messages, and the limit on nesting. An entry is a rule
or a relation. A relation has a schema of its own, which may build filters of another type, so
schemas form a tree; a schema may stand at several places of it.

The entries are kept in strictly increasing order of their names, one entry to a name. Registering a
name again replaces its entry.

Main statements: `Registry.find?_insert`, what a name finds after an entry is registered;
`Registry.mem_names_iff`, the names are those that find an entry; `Registry.pairwise_names_insert`,
the order is kept. -/

namespace Criteria

/-- A **target**: how groups become filters of type `F`. -/
structure Target (F : Type) where
  /-- The name under which descriptions show the target. -/
  name : String
  /-- The filter that bound children make under a combinator. -/
  group : Combinator → List F → F

/-- The target of filters over in-memory objects. -/
def Filter.target (α : Type) : Target (Filter α) := ⟨"ObjectStrategy", .group⟩

mutual

/-- An **entry** of a schema for filters of type `F`. -/
inductive Entry : Type → Type 1 where
  /-- A scalar field. -/
  | rule {F : Type} (r : Rule F) : Entry F
  /-- A related collection: `bind` makes the filter out of the children, which are built by the
  schema of the relation. -/
  | relation {F G : Type} (name : String) (bind : Combinator → List G → F) (child : Schema G) :
      Entry F

/-- The **registry** of a schema: its entries in the order of their names. -/
inductive Registry : Type → Type 1 where
  /-- No entries. -/
  | nil {F : Type} : Registry F
  /-- The entry with the least name, and the others. -/
  | cons {F : Type} (entry : Entry F) (rest : Registry F) : Registry F

/-- A **schema** for filters of type `F`. -/
inductive Schema : Type → Type 1 where
  /-- The entries, the target, the translator and the limit on nesting. -/
  | mk {F : Type} (registry : Registry F) (target : Target F) (translator : Translator)
      (maxDepth : UInt64) : Schema F

end

variable {F : Type}

/-! ## Entries -/

namespace Entry

/-- The name of an entry. -/
def name : Entry F → String
  | rule r => r.name
  | relation name _ _ => name

/-- Whether the entry is a rule. -/
def isRule : Entry F → Bool
  | rule _ => true
  | relation .. => false

/-- Whether the entry is a relation. -/
def isRelation : Entry F → Bool
  | rule _ => false
  | relation .. => true

end Entry

/-! ## Registries -/

namespace Registry

/-- The entry under a name. -/
def find? (name : String) : Registry F → Option (Entry F)
  | nil => none
  | cons e rest => if e.name = name then some e else find? name rest

/-- Puts an entry in its place, over the entry that has its name. -/
def insert (e : Entry F) : Registry F → Registry F
  | nil => cons e nil
  | cons e' rest =>
    if e.name = e'.name then cons e rest
    else if e.name < e'.name then cons e (cons e' rest)
    else cons e' (insert e rest)

/-- The names in increasing order. -/
def names : Registry F → List String
  | nil => []
  | cons e rest => e.name :: names rest

/-- An empty registry has no entries. -/
@[simp] theorem find?_nil (name : String) : (nil : Registry F).find? name = none := rfl

/-- What is found under a name has that name. -/
theorem name_of_find? {name : String} {r : Registry F} {e : Entry F}
    (h : r.find? name = some e) : e.name = name := by
  match r with
  | nil => simp at h
  | cons e' rest =>
    by_cases he : e'.name = name
    · rw [find?, if_pos he] at h
      exact Option.some.inj h ▸ he
    · rw [find?, if_neg he] at h
      exact name_of_find? h

/-- After registering an entry, its name finds it and every other name finds what it found. -/
theorem find?_insert (name : String) (e : Entry F) (r : Registry F) :
    (r.insert e).find? name = if e.name = name then some e else r.find? name := by
  match r with
  | nil => simp [insert, find?]
  | cons e' rest =>
    rw [insert]
    split
    · next h =>
      by_cases he : e.name = name
      · simp [find?, he]
      · simp [find?, he, h ▸ he]
    · split
      · rw [find?]
      · next hne _ =>
        rw [find?, find?_insert name e rest, find?]
        by_cases he : e.name = name
        · subst he
          simp [Ne.symm hne]
        · simp [he]

/-- The names are those that find an entry. -/
theorem mem_names_iff {name : String} {r : Registry F} :
    name ∈ r.names ↔ (r.find? name).isSome := by
  match r with
  | nil => simp [names]
  | cons e rest =>
    rw [names, List.mem_cons, mem_names_iff, find?]
    by_cases he : e.name = name
    · simp [he]
    · simp [he, Ne.symm he]

/-- Inserting an entry adds its name to those of the registry, and removes none. -/
theorem mem_names_insert {name : String} {e : Entry F} {r : Registry F} :
    name ∈ (r.insert e).names ↔ name = e.name ∨ name ∈ r.names := by
  rw [mem_names_iff, find?_insert, mem_names_iff]
  by_cases he : e.name = name
  · simp [he]
  · simp [he, Ne.symm he]

/-- Registering keeps the names in strictly increasing order. -/
theorem pairwise_names_insert {e : Entry F} {r : Registry F} (h : r.names.Pairwise (· < ·)) :
    (r.insert e).names.Pairwise (· < ·) := by
  -- The entry takes the place of the one with its name, or stands before the first greater name.
  match r with
  | nil => simp [insert, names]
  | cons e' rest =>
    obtain ⟨hlt, hrest⟩ := List.pairwise_cons.1 h
    rw [insert]
    split
    · next heq => exact List.pairwise_cons.2 ⟨heq ▸ hlt, hrest⟩
    · split
      · next _ hless =>
        refine List.pairwise_cons.2 ⟨fun n hn => ?_, h⟩
        rcases List.mem_cons.1 hn with rfl | hn
        · exact hless
        · exact String.lt_trans hless (hlt n hn)
      · next hne hless =>
        refine List.pairwise_cons.2 ⟨fun n hn => ?_, pairwise_names_insert hrest⟩
        rcases mem_names_insert.1 hn with rfl | hn
        · exact Std.lt_of_le_of_ne (String.not_lt.1 hless) (Ne.symm hne)
        · exact hlt n hn

end Registry

/-! ## Schemas -/

namespace Schema

/-- The entries. -/
def registry : Schema F → Registry F
  | mk registry _ _ _ => registry

/-- The target that groups are built for. -/
def target : Schema F → Target F
  | mk _ target _ _ => target

/-- The translator of the messages. -/
def translator : Schema F → Translator
  | mk _ _ translator _ => translator

/-- The number of nested groups and relations that is accepted. -/
def maxDepth : Schema F → UInt64
  | mk _ _ _ maxDepth => maxDepth

/-- The limit of a schema that sets none. -/
def defaultMaxDepth : UInt64 := 32

/-- The schema without entries, with English messages and the default limit. -/
def empty (target : Target F) : Schema F := mk .nil target .english defaultMaxDepth

/-- Registers an entry under its name. -/
def register (s : Schema F) (e : Entry F) : Schema F :=
  mk (s.registry.insert e) s.target s.translator s.maxDepth

/-- Declares a rule and registers it. -/
def registerRule (s : Schema F) (name : String) (constraint : Constraint)
    (operations : List Operation) (bind : Operation → Operand → F) (check? : Option Check := none) :
    Except BuildError (Schema F) :=
  (Rule.declare name constraint operations bind).map fun r =>
    s.register (.rule { r with check? })

/-- Registers a relation with a schema of its own. -/
def registerRelation {G : Type} (s : Schema F) (name : String) (bind : Combinator → List G → F)
    (child : Schema G) : Schema F :=
  s.register (.relation name bind child)

/-- Sets the translator. -/
def withTranslator (s : Schema F) (translator : Translator) : Schema F :=
  mk s.registry s.target translator s.maxDepth

/-- Sets the limit on nesting. -/
def withMaxDepth (s : Schema F) (maxDepth : UInt64) : Schema F :=
  mk s.registry s.target s.translator maxDepth

/-- The entry under a name. -/
def find? (s : Schema F) (name : String) : Option (Entry F) := s.registry.find? name

/-- Whether there is an entry under a name. -/
def contains (s : Schema F) (name : String) : Bool := (s.find? name).isSome

/-- The names of the entries in increasing order. -/
def names (s : Schema F) : List String := s.registry.names

/-- The number of entries. -/
def size (s : Schema F) : Nat := s.names.length

/-- Whether there is no entry. -/
def isEmpty (s : Schema F) : Bool := s.names.isEmpty

/-- The error for a name without an entry. -/
def missingEntry (s : Schema F) (name : String) : BuildError :=
  .missingEntry name (s.translator.fieldIssue .missingEntry name)

/-- The entry under a name, or the error that there is none. -/
def lookup (s : Schema F) (name : String) : Except BuildError (Entry F) :=
  match s.find? name with
  | some e => .ok e
  | none => .error (s.missingEntry name)

end Schema

end Criteria
