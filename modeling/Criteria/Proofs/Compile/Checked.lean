import Criteria.Proofs.Compile.Limit
import Criteria.Proofs.Compile.Places
import Criteria.Schema.Checked

/-! # Where checked levels stop
Compiling with checked levels is compiling, until it stops. It stops exactly where a node that is
visited asks for a level that 64 bits cannot hold, and where it does not stop it answers what
compiling answers.

* `Schema.asksLevel`: the nodes that ask for the level below them.
* `Place.Overflows`: some visited node asks for a level that does not fit.

Main statements: `Schema.compileGroup?_eq` and `Schema.compileChildren?_eq`, compiling with checked
levels place by place; `Place.not_overflows_of_levelsFit`, it never stops where the levels fit;
`Schema.compileChildren?_eq_none_iff_of_maxDepth_le`, from the limit on it stops only on the greatest
level, at a group or relation that is well formed. -/

namespace Criteria

/-- The next level is given exactly if 64 bits can hold it, and is then one more. -/
theorem nextLevel?_eq_some_iff {depth level : UInt64} :
    nextLevel? depth = some level ↔ depth.toNat + 1 < UInt64.size ∧ level = depth + 1 := by
  rw [nextLevel?, Option.ite_none_right_eq_some, Option.some.injEq, eq_comm (a := level)]

namespace Schema

variable {F : Type}

/-! ## Checked steps -/

/-- Whether a value in a role **asks for the level below** it: it is well formed, and a group or a
relation. -/
def asksLevel (v : Json) : Role F → Bool
  | .group => v.groupShape?.isSome
  | .entry (.relation _ _ _) =>
    match v.relationShape with
    | .ok _ => true
    | .error _ => false
  | _ => false

end Schema

/-- Takes a step with checked levels, from the report so far. -/
def Step.run? {F : Type} (t : Translator) (level : UInt64) (r : Report) :
    Step F → Option (Option F × Report)
  | settled f? problems => some (f?, r.extend (problems.map (·.text t)))
  | descend below items bind => do
    let (fs, r) ← below.compileChildren? items level r
    return (some (bind fs), r)

namespace Schema

variable {F : Type}

/-- A group takes its step with checked levels if it asks for a level, and is else compiled. -/
theorem compileAs?_group (s : Schema F) (v : Json) (depth : UInt64) (r : Report) :
    s.compileAs? .group (.ofJson v) depth r =
      if asksLevel v (.group : Role F) then
        (nextLevel? depth).bind fun level => (s.step v level .group).run? s.translator level r
      else some (s.compileAs .group (.ofJson v) depth r) := by
  cases hitems : v.items? "children" with
  | none =>
    rw [Node.ofJson_of_no_items hitems]
    simp [asksLevel, Json.groupShape?, hitems, compileAs?]
  | some items =>
    rw [Node.ofJson_of_items hitems, compileAs?, compileAs, Head.groupCombinator?,
      Head.isGroup_ofJson, Head.operation?_ofJson]
    cases hc : ((v.text? "operation").bind Vocabulary.parse? : Option Combinator) with
    | none => simp [asksLevel, Json.groupShape?, hc]
    | some c =>
      by_cases hgroup : v.isGroup
      -- Past the checks of the shape both sides ask for the level, and differ in it alone.
      · simp only [asksLevel, step, Json.groupShape?, hc, hitems, if_pos hgroup]
        refine congrArg _ (funext fun level => ?_)
        split
        · simp [Step.run?, Report.issue_eq_extend, Problem.text]
        · rfl
      · simp [asksLevel, Json.groupShape?, hc, hitems, hgroup]

/-- A relation takes its step with checked levels if it asks for a level, and is else compiled. -/
theorem compileAs?_relation {G : Type} (s : Schema F) (name : String)
    (bind : Combinator → List G → F) (child : Schema G) (v : Json) (depth : UInt64) (r : Report) :
    s.compileAs? (.entry (.relation name bind child)) (.ofJson v) depth r =
      if asksLevel v (.entry (.relation name bind child)) then
        (nextLevel? depth).bind fun level =>
          (s.step v level (.entry (.relation name bind child))).run? s.translator level r
      else some (s.compileAs (.entry (.relation name bind child)) (.ofJson v) depth r) := by
  cases hitems : v.items? "children" with
  | none =>
    rw [Node.ofJson_of_no_items hitems]
    simp [asksLevel, Json.relationShape, hitems, compileAs?]
  | some items =>
    rw [Node.ofJson_of_items hitems, compileAs?, compileAs, Head.operation?_ofJson]
    cases hword : v.text? "operation" with
    | none => simp [asksLevel, Json.relationShape, hword]
    | some word =>
      cases hc : (Vocabulary.parse? word : Option Combinator) with
      | none => simp [asksLevel, Json.relationShape, hword, hitems, hc]
      | some c =>
        by_cases hempty : items.isEmpty
        · simp [asksLevel, Json.relationShape, hword, hitems, hc, hempty]
        -- The level is asked for after the check for children, as in the step.
        · simp only [asksLevel, step, Json.relationShape, hword, hitems, hc, List.isEmpty_map,
            if_neg hempty]
          refine congrArg _ (funext fun level => ?_)
          split
          · simp [Step.run?, Report.issue_eq_extend, Problem.text]
          · rfl

/-- **Compiling with checked levels takes the step** where a level is asked for, once the level is
known to fit; all else is compiled as without the check. -/
theorem compileAs?_ofJson (s : Schema F) (role : Role F) (v : Json) (depth : UInt64) (r : Report) :
    s.compileAs? role (.ofJson v) depth r =
      if asksLevel v role then
        (nextLevel? depth).bind fun level => (s.step v level role).run? s.translator level r
      else some (s.compileAs role (.ofJson v) depth r) := by
  cases role with
  | ignored | unregistered name => simp [asksLevel, compileAs?]
  | group => exact s.compileAs?_group v depth r
  | entry e =>
    cases e with
    | rule rule => simp [asksLevel, compileAs?]
    | relation name bind child => exact s.compileAs?_relation name bind child v depth r

/-- A list of values is compiled with checked levels one after the other. -/
theorem compileChildren?_cons (s : Schema F) (v : Json) (vs : List Json) (depth : UInt64)
    (r : Report) :
    s.compileChildren? (v :: vs) depth r =
      (s.compileAs? (s.roleOf v) (.ofJson v) depth r).bind fun (f?, r) =>
        (s.compileChildren? vs depth r).bind fun (fs, r) => some (f?.toList ++ fs, r) := by
  rw [compileChildren?, List.map_cons, compileAll?, Node.head_ofJson]
  rfl

/-- A list stops if one of its values does, and is else compiled as without the check. -/
theorem compileChildren?_of_forall {s : Schema F} {vs : List Json} {depth : UInt64}
    {stops : Json → Prop} [DecidablePred stops]
    (each : ∀ v ∈ vs, ∀ r, s.compileAs? (s.roleOf v) (.ofJson v) depth r =
      if stops v then none else some (s.compileAs (s.roleOf v) (.ofJson v) depth r)) (r : Report) :
    s.compileChildren? vs depth r =
      if ∃ v ∈ vs, stops v then none else some (s.compileChildren vs depth r) := by
  induction vs generalizing r with
  | nil => simp [compileChildren?, compileAll?, compileChildren, compileAll]
  -- The first value that stops decides; what was reported before it is lost with the rest.
  | cons v vs ih =>
    have hrest := ih fun w hw => each w (List.mem_cons_of_mem v hw)
    rw [compileChildren?_cons, each v (by simp), compileChildren_cons]
    by_cases hv : stops v
    · simp [hv]
    · by_cases hvs : ∃ w ∈ vs, stops w <;> simp [hv, hvs, hrest]

end Schema

/-! ## Where it stops -/

namespace Place

/-- A place **overflows** below a number of levels if some node that is visited asks for a level
that 64 bits cannot hold. -/
def Overflows (p : Place) (levels : Nat) : Prop :=
  ∃ path ∈ p.value.paths, p.Visited levels path ∧
    (p.at? path).any (fun q => Schema.asksLevel q.value q.role) ∧
    UInt64.size ≤ levels + p.level path

instance (p : Place) (levels : Nat) : Decidable (p.Overflows levels) :=
  inferInstanceAs (Decidable (∃ path ∈ p.value.paths, _ ∧ _ ∧ _))

/-- **Where the levels fit nothing overflows**. -/
theorem not_overflows_of_levelsFit {p : Place} {levels : Nat} (h : p.LevelsFit levels) :
    ¬ p.Overflows levels := by
  rintro ⟨path, hpath, hv, -, hsize⟩
  exact absurd (h path hpath hv) (Nat.not_lt_of_le hsize)

/-- What asks for a level is a group or a relation. -/
theorem isNested_of_asksLevel {p : Place} (h : Schema.asksLevel p.value p.role) : p.isNested := by
  obtain ⟨s, role, v⟩ := p
  cases role with
  | group => rfl
  | entry e =>
    cases e with
    | rule rule => cases h
    | relation name bind child => rfl
  | _ => cases h

/-- A group or relation without a problem of its own asks for a level. -/
theorem asksLevel_of_open {p : Place} {levels : Nat} (hn : p.isNested)
    (hown : p.ownMessages levels [] = []) : Schema.asksLevel p.value p.role := by
  obtain ⟨s, role, v⟩ := p
  cases role with
  | group =>
    cases hshape : v.groupShape? with
    | none => simp [ownMessages, at?, Schema.problemsAs, hshape] at hown
    | some shape => simp [Schema.asksLevel, hshape]
  | entry e =>
    cases e with
    | rule rule => cases hn
    | relation name bind child =>
      cases hshape : v.relationShape with
      | error i => simp [ownMessages, at?, Schema.problemsAs, hshape] at hown
      | ok shape => simp [Schema.asksLevel, hshape]
  | _ => cases hn

/-- A group or relation beyond the limit has a problem of its own. -/
theorem ownMessages_ne_nil_of_lt {p : Place} {levels : Nat} (hn : p.isNested)
    (h : p.schema.maxDepth.toNat < levels + 1) : p.ownMessages levels [] ≠ [] := by
  intro hown
  have hasks := asksLevel_of_open hn hown
  rw [ownMessages, level_nil, if_pos hn] at hown
  obtain ⟨s, role, v⟩ := p
  cases role with
  | group =>
    obtain ⟨shape, hshape⟩ := Option.isSome_iff_exists.1 hasks
    simp [at?, Schema.problemsAs, hshape, h] at hown
  | entry e =>
    cases e with
    | rule rule => cases hn
    | relation name bind child =>
      cases hshape : v.relationShape <;> simp [at?, Schema.problemsAs, hshape, h] at hown
  | _ => cases hn

/-- A node overflows by itself, or is entered and one of its children overflows one level further
down. -/
theorem overflows_iff {p : Place} {levels : Nat} :
    p.Overflows levels ↔
      (Schema.asksLevel p.value p.role ∧ UInt64.size ≤ levels + 1) ∨
        ((p.isNested ∧ p.ownMessages levels [] = []) ∧
          ∃ w ∈ p.value.children, (among p.below.2 w).Overflows (levels + 1)) := by
  constructor
  -- The path to the node either stays at the place, or goes on at an entered child.
  · rintro ⟨path, hpath, hv, hasks, hsize⟩
    cases path with
    | nil =>
      rw [level_nil, if_pos (isNested_of_asksLevel hasks)] at hsize
      exact .inl ⟨hasks, hsize⟩
    | cons i path =>
      obtain ⟨w, hw, hat⟩ : ∃ w, p.value.children[i]? = some w ∧ (w.at? path).isSome := by
        obtain ⟨x, hx⟩ := Option.isSome_iff_exists.1 (Json.mem_paths_iff.1 hpath)
        obtain ⟨w, hw, hat⟩ := Option.bind_eq_some_iff.1 hx
        exact ⟨w, hw, by rw [hat]; rfl⟩
      have hchild : p.child? i = some (among p.below.2 w) := by rw [child?, hw]; rfl
      obtain ⟨hopen, hv⟩ := (visited_cons hchild levels path).1 hv
      rw [at?_cons hchild] at hasks
      rw [level_cons hchild, level_nil, if_pos hopen.1, ← Nat.add_assoc] at hsize
      exact .inr ⟨hopen, w, List.mem_of_getElem? hw, path, Json.mem_paths_iff.2 hat, hv, hasks,
        hsize⟩
  · rintro (⟨hasks, hsize⟩ | ⟨hopen, w, hw, path, hpath, hv, hasks, hsize⟩)
    · refine ⟨[], p.value.nil_mem_paths, p.visited_nil levels, hasks, ?_⟩
      rw [level_nil, if_pos (isNested_of_asksLevel hasks)]
      exact hsize
    · obtain ⟨i, hi⟩ := List.mem_iff_getElem?.1 hw
      have hchild : p.child? i = some (among p.below.2 w) := by rw [child?, hi]; rfl
      refine ⟨i :: path, ?_, (visited_cons hchild levels path).2 ⟨hopen, hv⟩, ?_, ?_⟩
      · rw [Json.mem_paths_iff, Json.at?, hi, Option.bind_some]
        exact Json.mem_paths_iff.1 hpath
      · rw [at?_cons hchild]
        exact hasks
      · rw [level_cons hchild, level_nil, if_pos hopen.1, ← Nat.add_assoc]
        exact hsize

/-- What does not ask for a level does not overflow, nor does anything below it. -/
theorem not_overflows_of_not_asksLevel {p : Place} {levels : Nat}
    (h : ¬ Schema.asksLevel p.value p.role) : ¬ p.Overflows levels := by
  rw [overflows_iff]
  rintro (⟨hasks, -⟩ | ⟨⟨hn, hown⟩, -⟩)
  · exact h hasks
  · exact h (asksLevel_of_open hn hown)

end Place

namespace Schema

variable {F : Type} {s : Schema F} {role : Role F} {v : Json} {depth : UInt64}

/-- What is settled on a level that fits does not overflow. -/
theorem not_overflows_of_settled {f? : Option F} {problems : List Problem}
    (hsize : depth.toNat + 1 < UInt64.size)
    (hstep : s.step v (depth + 1) role = .settled f? problems) :
    ¬ (Place.mk s role v).Overflows depth.toNat := by
  rw [Place.overflows_iff]
  rintro (⟨-, hle⟩ | ⟨⟨hn, hown⟩, -⟩)
  · exact absurd hsize (Nat.not_lt_of_le hle)
  · rw [ownMessages_nil_of_toNat_level fun _ => toNat_level hsize, hstep, List.map_eq_nil_iff]
      at hown
    exact problems_ne_nil_of_isNested hn hstep hown

/-- What is descended into on a level that fits overflows if one of its children does. -/
theorem overflows_iff_of_descend {G : Type} {below : Schema G} {items : List Json}
    {bind : List G → F} (hsize : depth.toNat + 1 < UInt64.size)
    (hstep : s.step v (depth + 1) role = .descend below items bind) :
    (Place.mk s role v).Overflows depth.toNat ↔
      ∃ w ∈ items, (Place.among below w).Overflows (depth + 1).toNat := by
  obtain ⟨hn, hbelow⟩ := isNested_of_descend hstep
  have hown : (Place.mk s role v).ownMessages depth.toNat [] = [] := by
    rw [ownMessages_nil_of_toNat_level fun _ => toNat_level hsize, hstep]
    rfl
  rw [Place.overflows_iff, hbelow, Json.children_of_items (items_of_descend hstep),
    toNat_level hsize]
  simp [hn, hown, Nat.not_le_of_lt hsize]

/-- **Checked levels, node by node**: a value stops if a visited node overflows, and is else
compiled as without the check. -/
theorem compileAs?_eq (s : Schema F) (role : Role F) (v : Json) (depth : UInt64) (r : Report) :
    s.compileAs? role (.ofJson v) depth r =
      if (Place.mk s role v).Overflows depth.toNat then none
      else some (s.compileAs role (.ofJson v) depth r) := by
  induction v using Json.treeInduction generalizing F depth r with
  | step v ih =>
    rw [compileAs?_ofJson]
    -- Only a value that asks for a level can differ from compiling, and only if the level fits is
    -- there anything below it to look at.
    by_cases hasks : asksLevel v role
    · by_cases hsize : depth.toNat + 1 < UInt64.size
      · rw [if_pos hasks, nextLevel?_eq_some_iff.2 ⟨hsize, rfl⟩, Option.bind_some, compileAs_ofJson]
        cases hstep : s.step v (depth + 1) role with
        | settled f? problems =>
          rw [if_neg (not_overflows_of_settled hsize hstep), Step.run?, Step.run]
        | descend below items bind =>
          have hitems : below.compileChildren? items (depth + 1) r =
              if ∃ w ∈ items, (Place.among below w).Overflows (depth + 1).toNat then none
              else some (below.compileChildren items (depth + 1) r) :=
            compileChildren?_of_forall
              (fun w hw r => ih w (mem_children_of_descend hstep hw) below (below.roleOf w) _ r) r
          simp only [overflows_iff_of_descend hsize hstep, Step.run?, Step.run, hitems]
          split <;> rfl
      · have hoverflows : (Place.mk s role v).Overflows depth.toNat :=
          Place.overflows_iff.2 (.inl ⟨hasks, Nat.le_of_not_lt hsize⟩)
        simp [hasks, hoverflows, nextLevel?, hsize]
    · rw [if_neg hasks, if_neg (Place.not_overflows_of_not_asksLevel hasks)]

/-- **A payload with checked levels** stops if a node that is visited overflows, and nowhere else. -/
theorem compileGroup?_eq (s : Schema F) (payload : Json) (depth : UInt64) (r : Report) :
    s.compileGroup? payload depth r =
      if (Place.root s payload).Overflows depth.toNat then none
      else some (s.compileGroup payload depth r) :=
  s.compileAs?_eq .group payload depth r

/-- **A list of children with checked levels** stops if one of them overflows, and nowhere else. -/
theorem compileChildren?_eq (s : Schema F) (items : List Json) (depth : UInt64) (r : Report) :
    s.compileChildren? items depth r =
      if ∃ v ∈ items, (Place.among s v).Overflows depth.toNat then none
      else some (s.compileChildren items depth r) :=
  compileChildren?_of_forall (fun v _ r => s.compileAs?_eq (s.roleOf v) v depth r) r

/-- **A value for an entry with checked levels** stops if a node that is visited overflows, and
nowhere else. -/
theorem compileEntry?_eq (s : Schema F) (e : Entry F) (payload : Json) (depth : UInt64)
    (r : Report) :
    s.compileEntry? e payload depth r =
      if (Place.mk s (.entry e) payload).Overflows depth.toNat then none
      else some (s.compileEntry e payload depth r) :=
  s.compileAs?_eq (.entry e) payload depth r

/-- Where the levels fit, compiling with checked levels is compiling. -/
theorem compileGroup?_of_levelsFit {payload : Json}
    (h : (Place.root s payload).LevelsFit depth.toNat) (r : Report) :
    s.compileGroup? payload depth r = some (s.compileGroup payload depth r) := by
  rw [compileGroup?_eq, if_neg (Place.not_overflows_of_levelsFit h)]

/-! ## At the limit -/

/-- What asks for a level among children is a well-formed group, or a well-formed relation under a
relation's name. -/
theorem asksLevel_roleOf_iff : asksLevel v (s.roleOf v) ↔ s.Nests v := by
  constructor
  · intro h
    cases hrole : s.roleOf v with
    | group =>
      rw [hrole, asksLevel, Option.isSome_iff_exists] at h
      exact .inl h
    | entry e =>
      cases e with
      | rule rule => simp [hrole, asksLevel] at h
      | relation field bind child =>
        rw [hrole, asksLevel] at h
        obtain ⟨-, name, hname, he⟩ := name_of_roleOf_entry hrole
        cases hshape : v.relationShape with
        | error i => simp [hshape] at h
        | ok shape => exact .inr ⟨name, _, shape, hname, he, rfl, hshape⟩
    | _ => simp [hrole, asksLevel] at h
  · intro h
    -- A node of the type of a group is a group, whatever its name.
    have hgroup {shape : Combinator × List Json} (hshape : v.groupShape? = some shape) :
        asksLevel v (s.roleOf v) := by
      rw [roleOf_of_isGroup (Json.groupShape?_eq_some_iff.1 hshape).1, asksLevel, hshape]
      rfl
    rcases h with ⟨shape, hshape⟩ | ⟨name, e, shape, hname, he, hrelation, hshape⟩
    · exact hgroup hshape
    · by_cases hisGroup : v.isGroup
      · exact hgroup (Json.groupShape?_of_relationShape hisGroup hshape)
      · rw [roleOf_of_find? hisGroup hname he]
        cases e with
        | rule rule => cases hrelation
        | relation field bind child =>
          rw [asksLevel, hshape]

/-- From the limit on, a value overflows among children exactly if it is nested itself on the
greatest level. -/
theorem overflows_iff_of_maxDepth_le (h : s.maxDepth ≤ depth) :
    (Place.among s v).Overflows depth.toNat ↔
      s.Nests v ∧ ¬ depth.toNat + 1 < UInt64.size := by
  have hclosed (hn : (Place.among s v).isNested) :
      (Place.among s v).ownMessages depth.toNat [] ≠ [] :=
    Place.ownMessages_ne_nil_of_lt hn (Nat.lt_succ_of_le (UInt64.le_iff_toNat_le.1 h))
  rw [Place.overflows_iff, Nat.not_lt, ← asksLevel_roleOf_iff]
  constructor
  · rintro (hasks | ⟨⟨hn, hown⟩, -⟩)
    · exact hasks
    · exact absurd hown (hclosed hn)
  · exact .inl

/-- **From the limit on, checked levels stop at what is nested on the greatest level**: a list of
children stops exactly if 64 bits cannot hold the next level and a group or relation in the list is
well formed. -/
theorem compileChildren?_eq_none_iff_of_maxDepth_le (h : s.maxDepth ≤ depth) {items : List Json}
    {r : Report} :
    s.compileChildren? items depth r = none ↔
      (∃ v ∈ items, s.Nests v) ∧ ¬ depth.toNat + 1 < UInt64.size := by
  rw [compileChildren?_eq, ite_eq_left_iff]
  simp only [reduceCtorEq, imp_false, not_not, overflows_iff_of_maxDepth_le h, ← and_assoc,
    exists_and_right]

end Schema

end Criteria
