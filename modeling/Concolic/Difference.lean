import Concolic.Json.Decode
import Concolic.Text.Lines

/-!
# Differences of outputs

A recorded and a replayed output are compared as texts. If they differ, their lines are compared place by
place.
-/

namespace Concolic

/-- What became of the line at one place. -/
inductive LineChange
  | added (line : String)
  | removed (line : String)
  | modified (old new : String)
  | unchanged (line : String)
  deriving DecidableEq, Repr

namespace LineChange

def toJson : LineChange → Json
  | added line => .object [("Added", .string line)]
  | removed line => .object [("Removed", .string line)]
  | modified old new =>
    .object [("Modified", .object [("old", .string old), ("new", .string new)])]
  | unchanged line => .object [("Unchanged", .string line)]

def ofJson? (j : Json) : Option LineChange := do
  match ← j.variant? with
  | ("Added", v) => v.string?.map added
  | ("Removed", v) => v.string?.map removed
  | ("Modified", v) =>
    match ← v.fullRecord? ["old", "new"] with
    | [old, new] => return modified (← old.string?) (← new.string?)
    | _ => none
  | ("Unchanged", v) => v.string?.map unchanged
  | _ => none

def isChange : LineChange → Bool
  | unchanged _ => false
  | _ => true

def between : List String → List String → List LineChange
  | old :: olds, new :: news =>
    (if old = new then unchanged old else modified old new) :: between olds news
  | [], news => news.map added
  | olds, [] => olds.map removed

end LineChange

def diffLines (old new : String) : List LineChange :=
  LineChange.between (textLines old) (textLines new)

/-- A replay whose output is not the recorded one. -/
structure Mismatch where
  index : Nat
  pathId : UInt64
  recorded : String
  replayed : String
  changes : List LineChange
  deriving DecidableEq, Repr

namespace Mismatch

def check (index : Nat) (pathId : UInt64) (recorded replayed : String) : Option Mismatch :=
  if recorded = replayed then none
  else some ⟨index, pathId, recorded, replayed, diffLines recorded replayed⟩

/-- The number of places at which the lines are not the same. -/
def changedLines (m : Mismatch) : Nat :=
  (m.changes.filter LineChange.isChange).length

def warnings (m : Mismatch) : List String :=
  let index := m.index
  let recorded := m.recorded
  let replayed := m.replayed
  [s!"Mismatched test case output (case {index}):", s!"Original: {recorded}",
    s!"Replayed: {replayed}"]

def toJson (m : Mismatch) : Json :=
  .object
    [("index", .natural m.index), ("high_level_path_id", .natural m.pathId.toNat),
      ("original", .string m.recorded), ("replayed", .string m.replayed),
      ("line_diff", .array (m.changes.map LineChange.toJson))]

def ofJson? (j : Json) : Option Mismatch := do
  match ← j.fullRecord? ["index", "high_level_path_id", "original", "replayed", "line_diff"] with
  | [index, pathId, recorded, replayed, changes] =>
    return ⟨← index.natBelow? UInt64.size, ← pathId.uint64?, ← recorded.string?, ← replayed.string?,
      ← changes.list? LineChange.ofJson?⟩
  | _ => none

end Mismatch

end Concolic
