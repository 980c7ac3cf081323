import Criteria.Schema.Compile

/-! # Checked levels
Compiling counts levels in 64 bits, and on the greatest of them the count goes on with zero. Where
additions are checked it stops there instead: what was under way gives nothing at all, no filter and
no report. `Schema.compileAs?` and what is built on it compile with that check, and are `none` where
they stop.

Only a group or relation that is well formed asks for the level below it, before it is held against
the limit; every other node is compiled as without the check. -/

namespace Criteria

/-- The level below a number of levels, if 64 bits can hold it. -/
def nextLevel? (depth : UInt64) : Option UInt64 :=
  if depth.toNat + 1 < UInt64.size then some (depth + 1) else none

namespace Schema

mutual

/-- Compiles a node in a role, and stops on the greatest level. -/
def compileAs? {F : Type} (s : Schema F) :
    Role F → Node → UInt64 → Report → Option (Option F × Report)
  | .group, .branch h children, depth, r =>
    match h.groupCombinator? with
    | none => some (none, r.issue s.translator .invalidGroup)
    | some c => do
      let level ← nextLevel? depth
      if s.maxDepth < level then return (none, r.issue s.translator .depthExceeded)
      else
        let (fs, r) ← compileAll? s children level r
        return (some (s.target.group c fs), r)
  | .entry (.relation name bind child), .branch h children, depth, r =>
    match h.operation? with
    | none => some (none, r.fieldIssue s.translator .invalidRule name)
    | some word =>
      match (Vocabulary.parse? word : Option Combinator) with
      | none => some (none, r.fieldIssue s.translator .invalidOperation name)
      | some c =>
        if children.isEmpty then some (none, r.fieldIssue s.translator .emptyRelation name)
        else do
          let level ← nextLevel? depth
          if s.maxDepth < level then return (none, r.issue s.translator .depthExceeded)
          else
            let (fs, r) ← compileAll? child children level r
            return (some (bind c fs), r)
  | role, n, depth, r => some (s.compileAs role n depth r)

/-- Compiles the nodes of a list, each in its own role, and stops on the greatest level. -/
def compileAll? {F : Type} (s : Schema F) : List Node → UInt64 → Report → Option (List F × Report)
  | [], _, r => some ([], r)
  | n :: ns, depth, r => do
    let (f?, r) ← compileAs? s (s.role n.head) n depth r
    let (fs, r) ← compileAll? s ns depth r
    return (f?.toList ++ fs, r)

end

variable {F : Type}

/-- Compiles a value that has to be a group, and stops on the greatest level. -/
def compileGroup? (s : Schema F) (payload : Json) (depth : UInt64) (r : Report) :
    Option (Option F × Report) :=
  s.compileAs? .group (.ofJson payload) depth r

/-- Compiles the values of a list of children, and stops on the greatest level. -/
def compileChildren? (s : Schema F) (payload : List Json) (depth : UInt64) (r : Report) :
    Option (List F × Report) :=
  s.compileAll? (payload.map .ofJson) depth r

/-- Compiles a value that stands for an entry, and stops on the greatest level. -/
def compileEntry? (s : Schema F) (e : Entry F) (payload : Json) (depth : UInt64) (r : Report) :
    Option (Option F × Report) :=
  s.compileAs? (.entry e) (.ofJson payload) depth r

end Schema

end Criteria
