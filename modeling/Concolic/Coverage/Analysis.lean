import Concolic.Json.Decode

/-!
# Analyses of source files

Which lines of a file hold statements, which are left out, and which were never reached. Sets of lines are
kept in ascending order.
-/

namespace Concolic

structure LineSet where
  lines : List UInt32
  ascending : lines.Pairwise (· < ·)
  deriving DecidableEq

namespace LineSet

def empty : LineSet := ⟨[], List.Pairwise.nil⟩

instance : Inhabited LineSet := ⟨empty⟩

def put (n : UInt32) : List UInt32 → List UInt32
  | [] => [n]
  | m :: ms => if n < m then n :: m :: ms else if n = m then m :: ms else m :: put n ms

theorem mem_put {n k : UInt32} {ms : List UInt32} : k ∈ put n ms ↔ k = n ∨ k ∈ ms := by
  induction ms with
  | nil => simp [put]
  | cons m ms ih =>
    simp only [put]
    split
    · simp
    · split
      · rename_i h
        subst h
        simp
      · simp only [List.mem_cons, ih]
        constructor
        · rintro (h | h | h) <;> simp [h]
        · rintro (h | h | h) <;> simp [h]

theorem pairwise_put {n : UInt32} {ms : List UInt32} (h : ms.Pairwise (· < ·)) :
    (put n ms).Pairwise (· < ·) := by
  induction ms with
  | nil => simp [put]
  | cons m ms ih =>
    rw [List.pairwise_cons] at h
    simp only [put]
    split
    · rename_i hn
      refine List.pairwise_cons.2 ⟨fun k hk => ?_, List.pairwise_cons.2 h⟩
      rcases List.mem_cons.1 hk with rfl | hk
      · exact hn
      · exact UInt32.lt_trans hn (h.1 k hk)
    · split
      · exact List.pairwise_cons.2 h
      · rename_i hn hne
        refine List.pairwise_cons.2 ⟨fun k hk => ?_, ih h.2⟩
        rcases mem_put.1 hk with rfl | hk
        · exact UInt32.lt_of_le_of_ne (UInt32.not_lt.1 hn) (Ne.symm hne)
        · exact h.1 k hk

def insert (s : LineSet) (n : UInt32) : LineSet := ⟨put n s.lines, pairwise_put s.ascending⟩

def ofList (ns : List UInt32) : LineSet :=
  ns.foldl insert empty

def size (s : LineSet) : Nat :=
  s.lines.length

instance : ToString LineSet where
  toString s := "\x7b" ++ ", ".intercalate (s.lines.map toString) ++ "\x7d"

def toJson (s : LineSet) : Json :=
  .array (s.lines.map fun n => .natural n.toNat)

def ofJson? (j : Json) : Option LineSet :=
  (j.list? Json.uint32?).map ofList

end LineSet

/-- How the lines of one file are classified. -/
structure FileAnalysis where
  executable : LineSet
  excluded : LineSet
  missing : LineSet
  deriving DecidableEq, Inhabited

namespace FileAnalysis

def toJson (a : FileAnalysis) : Json :=
  .object
    [("executable", a.executable.toJson), ("excluded", a.excluded.toJson),
      ("missing", a.missing.toJson)]

def ofJson? (j : Json) : Option FileAnalysis := do
  match ← j.fullRecord? ["executable", "excluded", "missing"] with
  | [executable, excluded, missing] =>
    return ⟨← LineSet.ofJson? executable, ← LineSet.ofJson? excluded, ← LineSet.ofJson? missing⟩
  | _ => none

end FileAnalysis

end Concolic
