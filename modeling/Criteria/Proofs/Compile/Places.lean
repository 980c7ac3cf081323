import Criteria.Proofs.Compile.Step
import Mathlib.Data.List.FinRange
import Mathlib.Data.List.Infix

/-! # The report, place by place
Which messages a payload gets, said without compiling. A **path** is a list of positions among
children, and everything about the node at a path is read off the path: the schema that the node
belongs to, what it stands for there (`Place`), its level, the problems it has by itself, and
whether the nodes above let it be looked at.

* `Json.paths`: the paths of a payload in document order, which is the lexicographic one.
* `Place.at?`: the place at a path, `Place.level`: its level, `Place.ownMessages`: the texts of its own
  problems.
* `Place.Visited`: every node properly above is a group or relation without a problem of its own.

Main statement: `Place.compileGroup_report`, the report of a payload is made of the texts of the
visited nodes' own problems, in document order, each in the words of the node's schema. -/

namespace Criteria

/-! ## Paths -/

namespace Json

/-- The node at a **path** of positions among children. -/
def at? : Json → List Nat → Option Json
  | v, [] => some v
  | v, i :: path => v.children[i]?.bind (·.at? path)

/-- The paths of a payload **in document order**: a node stands before its children, and a child
with all below it before the next child. -/
def paths (v : Json) : List (List Nat) :=
  [] :: (List.finRange v.children.length).flatMap fun i =>
    (paths v.children[i]).map (i.val :: ·)
termination_by v.nesting
decreasing_by
  exact Nat.lt_of_succ_lt (nesting_lt_of_mem_children (List.getElem_mem i.isLt))

/-- A list of positions is among the paths exactly if it leads to a node. -/
theorem mem_paths_iff {v : Json} {path : List Nat} : path ∈ v.paths ↔ (v.at? path).isSome := by
  induction v using treeInduction generalizing path with
  | step v ih =>
    rw [paths, List.mem_cons]
    cases path with
    | nil => simp [at?]
    | cons i path =>
      simp only [reduceCtorEq, false_or, List.mem_flatMap, List.mem_finRange, true_and,
        List.mem_map, List.cons.injEq, at?]
      constructor
      · rintro ⟨j, q, hq, rfl, rfl⟩
        have hmem := List.getElem_mem j.isLt
        simpa using (ih _ hmem).1 hq
      · intro h
        by_cases hi : i < v.children.length
        · rw [List.getElem?_eq_getElem hi, Option.bind_some] at h
          exact ⟨⟨i, hi⟩, path, (ih _ (List.getElem_mem hi)).2 h, rfl, rfl⟩
        · rw [List.getElem?_eq_none (Nat.le_of_not_lt hi)] at h
          cases h

/-- The empty path leads to the root, so it is among the paths. -/
theorem nil_mem_paths (v : Json) : [] ∈ v.paths := mem_paths_iff.2 rfl

/-- A path is no longer than the payload is nested. -/
theorem length_le_nesting {v : Json} {path : List Nat} (h : path ∈ v.paths) :
    path.length ≤ v.nesting := by
  rw [mem_paths_iff] at h
  induction path generalizing v with
  | nil => exact Nat.zero_le _
  | cons i path ih =>
    obtain ⟨w, hw⟩ := Option.isSome_iff_exists.1 h
    obtain ⟨child, hchild, hat⟩ := Option.bind_eq_some_iff.1 hw
    have hlength := ih (v := child) (by rw [hat]; rfl)
    have hnesting := nesting_lt_of_mem_children (List.mem_of_getElem? hchild)
    rw [List.length_cons]
    omega

/-- Document order is the **lexicographic** order of paths, without repetition. -/
theorem pairwise_paths (v : Json) : v.paths.Pairwise (· < ·) := by
  induction v using treeInduction with
  | step v ih =>
    rw [paths, List.pairwise_cons]
    constructor
    -- The empty path stands first, and is less than all others.
    · intro path hpath
      obtain ⟨i, -, hpath⟩ := List.mem_flatMap.1 hpath
      obtain ⟨q, -, rfl⟩ := List.mem_map.1 hpath
      exact List.nil_lt_cons _ _
    · rw [List.pairwise_flatMap]
      constructor
      -- Two paths below one child are ordered as they are from the child on.
      · intro i _
        rw [List.pairwise_map]
        refine (ih _ (List.getElem_mem i.isLt)).imp fun hlt => ?_
        exact List.cons_lt_cons_iff.2 (.inr ⟨rfl, hlt⟩)
      -- Two paths below different children are ordered as the children are.
      · refine (List.pairwise_lt_finRange _).imp fun {i j} hij p hp q hq => ?_
        obtain ⟨p, -, rfl⟩ := List.mem_map.1 hp
        obtain ⟨q, -, rfl⟩ := List.mem_map.1 hq
        exact List.cons_lt_cons_iff.2 (.inl hij)

/-- No path occurs twice. -/
theorem nodup_paths (v : Json) : v.paths.Nodup := by
  refine List.Pairwise.imp ?_ v.pairwise_paths
  rintro p q hlt rfl
  exact List.lt_irrefl p hlt

/-- What is collected along the paths is collected at the root and then child by child. -/
theorem flatMap_paths {β : Type} (v : Json) (g : List Nat → List β) :
    v.paths.flatMap g =
      g [] ++ (List.finRange v.children.length).flatMap fun i =>
        v.children[i].paths.flatMap fun path => g (i.val :: path) := by
  rw [paths, List.flatMap_cons, List.flatMap_assoc]
  simp only [List.flatMap_map]

/-- What is collected child by child, by position. -/
theorem flatMap_children {β : Type} (v : Json) (g : Json → List β) :
    v.children.flatMap g =
      (List.finRange v.children.length).flatMap fun i => g v.children[i] := by
  conv => lhs; rw [← List.map_getElem_finRange v.children]
  rw [List.flatMap_map]
  rfl

end Json

/-! ## Places -/

/-- The **problems of a node by itself**, on a level. -/
def Schema.problemsAs {F : Type} (s : Schema F) (v : Json) (level : Nat) : Role F → List Problem
  | .ignored => []
  | .group =>
    match v.groupShape? with
    | none => [.issue .invalidGroup]
    | some _ => if s.maxDepth.toNat < level then [.issue .depthExceeded] else []
  | .unregistered name => [.fieldIssue .missingEntry name]
  | .entry (.rule rule) => rule.problems v
  | .entry (.relation name _ _) =>
    match v.relationShape with
    | .error i => [.fieldIssue i name]
    | .ok _ => if s.maxDepth.toNat < level then [.issue .depthExceeded] else []

/-- A **place**: a value with the schema it belongs to and what it stands for there. -/
structure Place : Type 1 where
  /-- The type of the filters of the schema. -/
  {F : Type}
  /-- The schema that the value belongs to. -/
  schema : Schema F
  /-- What the value stands for. -/
  role : Role F
  /-- The value. -/
  value : Json

namespace Place

/-- The root of a payload, which has to be a group. -/
def root {F : Type} (s : Schema F) (payload : Json) : Place := ⟨s, .group, payload⟩

/-- The place of a value among the children under a schema. -/
def among {F : Type} (s : Schema F) (v : Json) : Place := ⟨s, s.roleOf v, v⟩

/-- The schema that the children belong to: that of the relation at a relation, and the same as that
of the place at all else. -/
def below (p : Place) : Σ G : Type, Schema G :=
  match p.role with
  | .entry (.relation _ _ child) => ⟨_, child⟩
  | _ => ⟨_, p.schema⟩

/-- Whether the place counts as a level: it is a group or a relation. -/
def isNested (p : Place) : Bool :=
  match p.role with
  | .group => true
  | .entry (.relation _ _ _) => true
  | _ => false

/-- The place of a child. -/
def child? (p : Place) (i : Nat) : Option Place := p.value.children[i]?.map (among p.below.2)

/-- The place **at a path**. -/
def at? : Place → List Nat → Option Place
  | p, [] => some p
  | p, i :: path => (p.child? i).bind (·.at? path)

/-- The number of groups and relations **on a path**, the place at its end included. -/
def level (p : Place) (path : List Nat) : Nat :=
  path.inits.countP fun q => (p.at? q).any isNested

/-- The texts of the problems that the node at a path has **by itself**, below a number of levels. -/
def ownMessages (p : Place) (levels : Nat) (path : List Nat) : List String :=
  match p.at? path with
  | none => []
  | some q =>
    (q.schema.problemsAs q.value (levels + p.level path) q.role).map (·.text q.schema.translator)

/-- Whether the node at a path is **visited**: each node properly above it is a group or a relation
without a problem of its own. -/
def Visited (p : Place) (levels : Nat) (path : List Nat) : Prop :=
  ∀ q ∈ path.inits, q ≠ path → (p.at? q).any isNested ∧ p.ownMessages levels q = []

instance (p : Place) (levels : Nat) (path : List Nat) : Decidable (p.Visited levels path) :=
  inferInstanceAs (Decidable (∀ q ∈ path.inits, q ≠ path → _ ∧ _))

/-- The messages about the node at a path: its own, if it is visited. -/
def messagesAt (p : Place) (levels : Nat) (path : List Nat) : List String :=
  if p.Visited levels path then p.ownMessages levels path else []

/-! ## From a place to its children -/

/-- Beyond the first position a path goes on at the child. -/
theorem at?_cons {p c : Place} {i : Nat} (h : p.child? i = some c) (path : List Nat) :
    p.at? (i :: path) = c.at? path := by
  rw [at?, h, Option.bind_some]

/-- A group or a relation is a level of its own, and nothing else is. -/
@[simp] theorem level_nil (p : Place) : p.level [] = if p.isNested then 1 else 0 := by
  cases h : p.isNested <;> simp [level, at?, h]

/-- The levels on a path are that of the place and those on the rest of the path. -/
theorem level_cons {p c : Place} {i : Nat} (h : p.child? i = some c) (path : List Nat) :
    p.level (i :: path) = p.level [] + c.level path := by
  have hchild : (path.inits.map (i :: ·)).countP (fun q => (p.at? q).any isNested) =
      c.level path := by
    rw [List.countP_map]
    exact List.countP_congr fun q _ => by simp [at?_cons h]
  rw [level, List.inits_cons, List.countP_cons, hchild, level_nil]
  cases hn : p.isNested <;> simp [at?, hn, Nat.add_comm]

/-- Below a group or a relation, what a node has by itself is what it has below the child, one level
further down. -/
theorem ownMessages_cons {p c : Place} {i : Nat} (h : p.child? i = some c) (hn : p.isNested)
    (levels : Nat) (path : List Nat) :
    p.ownMessages levels (i :: path) = c.ownMessages (levels + 1) path := by
  rw [ownMessages, ownMessages, at?_cons h, level_cons h, level_nil, if_pos hn, ← Nat.add_assoc]

/-- The root of a place is visited, as nothing is above it. -/
@[simp] theorem visited_nil (p : Place) (levels : Nat) : p.Visited levels [] := by
  intro q hq hne
  simp at hq
  exact absurd hq hne

/-- A node below a child is visited if the place is a group or relation without a problem of its
own, and the node is visited from the child on, one level further down. -/
theorem visited_cons {p c : Place} {i : Nat} (h : p.child? i = some c) (levels : Nat)
    (path : List Nat) :
    p.Visited levels (i :: path) ↔
      (p.isNested ∧ p.ownMessages levels [] = []) ∧ c.Visited (levels + 1) path := by
  constructor
  · intro hv
    have hroot := hv [] (by simp) (by simp)
    refine ⟨hroot, fun q hq hne => ?_⟩
    have hq := hv (i :: q) (by simpa using hq) (by simpa using hne)
    rw [at?_cons h, ownMessages_cons h hroot.1] at hq
    exact hq
  -- A node properly above `i :: path` is the place itself, or one properly above `path` at the child.
  · rintro ⟨⟨hn, hown⟩, hv⟩ q hq hne
    rw [List.inits_cons, List.mem_cons, List.mem_map] at hq
    rcases hq with rfl | ⟨q, hq, rfl⟩
    · exact ⟨hn, hown⟩
    · rw [at?_cons h, ownMessages_cons h hn]
      exact hv q hq (by simpa using hne)

/-- The messages about a node below a child are those from the child on, if the place is entered,
and none otherwise. -/
theorem messagesAt_cons {p c : Place} {i : Nat} (h : p.child? i = some c) (levels : Nat)
    (path : List Nat) :
    p.messagesAt levels (i :: path) =
      if p.isNested ∧ p.ownMessages levels [] = [] then c.messagesAt (levels + 1) path else [] := by
  rw [messagesAt, messagesAt]
  by_cases hopen : p.isNested ∧ p.ownMessages levels [] = []
  · simp only [visited_cons h, hopen, true_and, and_self, if_true, ownMessages_cons h hopen.1]
  · simp only [visited_cons h, hopen, false_and, if_false]

/-! ## The report -/

/-- The levels of the nodes that are visited **fit in 64 bits**. -/
def LevelsFit (p : Place) (levels : Nat) : Prop :=
  ∀ path ∈ p.value.paths, p.Visited levels path → levels + p.level path < UInt64.size

/-- The levels fit if the payload is not nested deeper than 64 bits can count. -/
theorem levelsFit_of_nesting {p : Place} {levels : Nat}
    (h : levels + p.value.nesting + 1 < UInt64.size) : p.LevelsFit levels := by
  intro path hpath _
  have hlevel : p.level path ≤ path.length + 1 := by
    rw [level, ← List.length_inits]
    exact List.countP_le_length
  have hlength := Json.length_le_nesting hpath
  omega

/-- Where the levels fit, they fit from each child on that is entered. -/
theorem LevelsFit.child {p c : Place} {i : Nat} {levels : Nat} (hfit : p.LevelsFit levels)
    (h : p.child? i = some c) (hopen : p.isNested ∧ p.ownMessages levels [] = []) :
    c.LevelsFit (levels + 1) := by
  intro path hpath hv
  have hcons : i :: path ∈ p.value.paths := by
    obtain ⟨w, hw, rfl⟩ := Option.map_eq_some_iff.1 h
    rw [Json.mem_paths_iff, Json.at?, hw, Option.bind_some]
    exact Json.mem_paths_iff.1 hpath
  have hlt := hfit (i :: path) hcons ((visited_cons h levels path).2 ⟨hopen, hv⟩)
  rw [level_cons h, level_nil, if_pos hopen.1] at hlt
  omega

/-- A place that is not entered has only its own messages. -/
theorem flatMap_messagesAt_of_closed {p : Place} {levels : Nat}
    (hclosed : ¬ (p.isNested ∧ p.ownMessages levels [] = [])) :
    p.value.paths.flatMap (p.messagesAt levels) = p.ownMessages levels [] := by
  have hbelow : ∀ i ∈ List.finRange p.value.children.length,
      (p.value.children[i].paths.flatMap fun path => p.messagesAt levels (i.val :: path)) = [] := by
    intro i _
    have hchild : p.child? i = some (among p.below.2 p.value.children[i]) := by
      simp [child?]
    simp [messagesAt_cons hchild, hclosed]
  rw [Json.flatMap_paths, List.flatMap_eq_nil_iff.2 hbelow, List.append_nil, messagesAt,
    if_pos (visited_nil p levels)]

/-- A place that is entered has the messages of its children. -/
theorem flatMap_messagesAt_of_open {p : Place} {levels : Nat}
    (hopen : p.isNested ∧ p.ownMessages levels [] = []) :
    p.value.paths.flatMap (p.messagesAt levels) =
      p.value.children.flatMap fun w =>
        w.paths.flatMap ((among p.below.2 w).messagesAt (levels + 1)) := by
  rw [Json.flatMap_paths, Json.flatMap_children, messagesAt, if_pos (visited_nil p levels),
    hopen.2, List.nil_append]
  refine congrArg₂ List.flatMap (funext fun i => ?_) rfl
  have hchild : p.child? i = some (among p.below.2 p.value.children[i]) := by
    simp [child?]
  simp only [messagesAt_cons hchild, if_pos hopen]

end Place

/-- The problems of a step; a step to the children has none. -/
def Step.problems {F : Type} : Step F → List Problem
  | settled _ problems => problems
  | descend _ _ _ => []

namespace Schema

variable {F : Type}

/-- The problems that a node has by itself are those of the step taken at it. -/
theorem problemsAs_eq (s : Schema F) (v : Json) (level : UInt64) (role : Role F) :
    s.problemsAs v level.toNat role = (s.step v level role).problems := by
  fun_cases step s v level role with
  | case2 hshape => simp [problemsAs, Step.problems, hshape]
  | case3 c items hshape hlevel | case4 c items hshape hlevel =>
    rw [UInt64.lt_iff_toNat_lt] at hlevel
    simp [problemsAs, Step.problems, hshape, hlevel]
  | case7 G name bind child i hshape => simp [problemsAs, Step.problems, hshape]
  | case8 G name bind child c items hshape hlevel | case9 G name bind child c items hshape hlevel =>
    rw [UInt64.lt_iff_toNat_lt] at hlevel
    simp [problemsAs, Step.problems, hshape, hlevel]
  | _ => rfl

/-- A group or relation that is settled has a problem. -/
theorem problems_ne_nil_of_isNested {s : Schema F} {v : Json} {level : UInt64} {role : Role F}
    {f? : Option F} {problems : List Problem} (hn : (Place.mk s role v).isNested)
    (h : s.step v level role = .settled f? problems) : problems ≠ [] := by
  revert h
  fun_cases step s v level role with
  | case1 | case5 | case6 => cases hn
  | _ => rintro ⟨⟩ <;> simp

/-- A schema descends at groups and relations, to the schema below the place. -/
theorem isNested_of_descend {G : Type} {s : Schema F} {v : Json} {level : UInt64} {role : Role F}
    {below : Schema G} {items : List Json} {bind : List G → F}
    (h : s.step v level role = .descend below items bind) :
    (Place.mk s role v).isNested ∧ (Place.mk s role v).below = ⟨G, below⟩ := by
  revert h
  fun_cases step s v level role with
  | case4 | case9 =>
    rintro ⟨⟩
    exact ⟨rfl, rfl⟩
  | _ => rintro ⟨⟩

/-- What a schema descends to are the children of the place. -/
theorem exists_child?_of_descend {G : Type} {s : Schema F} {v w : Json} {level : UInt64}
    {role : Role F} {below : Schema G} {items : List Json} {bind : List G → F}
    (h : s.step v level role = .descend below items bind) (hw : w ∈ items) :
    ∃ i, (Place.mk s role v).child? i = some (.among below w) := by
  obtain ⟨i, hi⟩ := List.mem_iff_getElem?.1 (mem_children_of_descend h hw)
  refine ⟨i, ?_⟩
  rw [Place.child?, (isNested_of_descend h).2, hi]
  rfl

/-- The level of a group or relation is counted without overflow. -/
theorem toNat_level_of_levelsFit {p : Place} {depth : UInt64} (hfit : p.LevelsFit depth.toNat)
    (hn : p.isNested) : (depth + 1).toNat = depth.toNat + 1 := by
  have hlt := hfit [] p.value.nil_mem_paths (p.visited_nil _)
  rw [Place.level_nil, if_pos hn] at hlt
  exact toNat_level hlt

/-- The messages that a node has by itself are those of the problems of the step, if its level is
counted without overflow. -/
theorem ownMessages_nil_of_toNat_level {s : Schema F} {role : Role F} {v : Json} {depth : UInt64}
    (hlevel : (Place.mk s role v).isNested → (depth + 1).toNat = depth.toNat + 1) :
    (Place.mk s role v).ownMessages depth.toNat [] =
      (s.step v (depth + 1) role).problems.map (·.text s.translator) := by
  have hproblems : s.problemsAs v (depth.toNat + (Place.mk s role v).level []) role =
      s.problemsAs v (depth + 1).toNat role := by
    cases hn : (Place.mk s role v).isNested with
    | true => rw [hlevel hn, Place.level_nil, if_pos hn]
    | false =>
      -- Only groups and relations are on a level, so no other node has a problem with it.
      cases role with
      | group => cases hn
      | entry e =>
        cases e with
        | rule rule => rfl
        | relation name bind child => cases hn
      | _ => rfl
  rw [← problemsAs_eq, ← hproblems]
  rfl

/-- Where the levels fit, the messages that a node has by itself are those of the problems of the
step. -/
theorem ownMessages_nil_eq {s : Schema F} {role : Role F} {v : Json} {depth : UInt64}
    (hfit : (Place.mk s role v).LevelsFit depth.toNat) :
    (Place.mk s role v).ownMessages depth.toNat [] =
      (s.step v (depth + 1) role).problems.map (·.text s.translator) :=
  ownMessages_nil_of_toNat_level (toNat_level_of_levelsFit hfit)

/-- Where a schema descends, the levels of the value and of all below it are counted without
overflow. -/
theorem levelsFit_of_descend {G : Type} {s : Schema F} {v : Json} {depth : UInt64} {role : Role F}
    {below : Schema G} {items : List Json} {bind : List G → F}
    (hfit : (Place.mk s role v).LevelsFit depth.toNat)
    (hstep : s.step v (depth + 1) role = .descend below items bind) :
    (depth + 1).toNat = depth.toNat + 1 ∧
      ∀ w ∈ items, (Place.among below w).LevelsFit (depth + 1).toNat := by
  have hn := (isNested_of_descend hstep).1
  have hlevel : (depth + 1).toNat = depth.toNat + 1 := toNat_level_of_levelsFit hfit hn
  refine ⟨hlevel, fun w hw => ?_⟩
  -- A step to the children leaves the place without a message of its own, so it is entered.
  have hown : (Place.mk s role v).ownMessages depth.toNat [] = [] := by
    rw [ownMessages_nil_eq hfit, hstep]
    rfl
  obtain ⟨i, hchild⟩ := exists_child?_of_descend hstep hw
  rw [hlevel]
  exact hfit.child hchild ⟨hn, hown⟩

/-- The messages about a value are those of its places, in document order. -/
theorem messagesAs_eq_flatMap_paths (s : Schema F) (role : Role F) (v : Json) (depth : UInt64)
    (hfit : (Place.mk s role v).LevelsFit depth.toNat) :
    s.messagesAs role v depth = v.paths.flatMap ((Place.mk s role v).messagesAt depth.toNat) := by
  induction v using Json.treeInduction generalizing F depth with
  | step v ih =>
    have hown := ownMessages_nil_eq hfit
    rw [messagesAs_eq]
    cases hstep : s.step v (depth + 1) role with
    | settled f? problems =>
      rw [hstep] at hown
      -- What is settled is no group or relation, or has a problem: nothing below is visited.
      have hclosed : ¬ ((Place.mk s role v).isNested ∧
          (Place.mk s role v).ownMessages depth.toNat [] = []) := by
        rintro ⟨hn, hnil⟩
        rw [hown, List.map_eq_nil_iff] at hnil
        exact problems_ne_nil_of_isNested hn hstep hnil
      exact hown.symm.trans (Place.flatMap_messagesAt_of_closed hclosed).symm
    | descend below items bind =>
      rw [hstep] at hown
      -- A step to the children leaves the place without a message of its own.
      obtain ⟨hn, hbelow⟩ := isNested_of_descend hstep
      obtain ⟨hlevel, hchildFit⟩ := levelsFit_of_descend hfit hstep
      have hchildren := Json.children_of_items (items_of_descend hstep)
      rw [Place.flatMap_messagesAt_of_open ⟨hn, hown⟩, hbelow, Step.messages, ← hchildren]
      refine List.flatMap_congr fun w hw => ?_
      rw [← hlevel]
      exact ih w hw below (below.roleOf w) (depth + 1) (hchildFit w (hchildren ▸ hw))

end Schema

end Criteria
