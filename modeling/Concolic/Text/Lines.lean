/-!
# Lines

The lines of a text. A line feed ends a line, and one carriage return before it belongs to the ending.
What follows the last line feed is a line of its own, unless it is empty.
-/

namespace Concolic

namespace Lines

/-- A line from its characters in reverse, without the carriage return of its ending. -/
def close : List Char → List Char
  | '\r' :: line => line.reverse
  | line => line.reverse

/-- The lines of `s`, when `line` holds what stands before `s` on its first line, in reverse. -/
def split (line : List Char) : List Char → List (List Char)
  | [] => if line.isEmpty then [] else [line.reverse]
  | '\n' :: s => close line :: split [] s
  | c :: s => split (c :: line) s

theorem split_append {s : List Char} (h : '\n' ∉ s) (line t : List Char) :
    split line (s ++ t) = split (s.reverse ++ line) t := by
  induction s generalizing line with
  | nil => rfl
  | cons c s ih =>
    simp only [List.mem_cons, not_or] at h
    have hc : ¬ c = '\n' := fun hc => h.1 hc.symm
    rw [List.cons_append, split, ih h.2]
    · simp
    · exact hc

end Lines

def charLines (s : List Char) : List (List Char) :=
  Lines.split [] s

theorem charLines_append {s : List Char} (h : '\n' ∉ s) (t : List Char) :
    charLines (s ++ '\n' :: t) = Lines.close s.reverse :: charLines t := by
  rw [charLines, Lines.split_append h, List.append_nil, Lines.split, charLines]

theorem charLines_of_not_mem {s : List Char} (h : '\n' ∉ s) :
    charLines s = if s.isEmpty then [] else [s] := by
  have hsplit := Lines.split_append h [] []
  rw [List.append_nil, List.append_nil, Lines.split] at hsplit
  rw [charLines, hsplit]
  simp

def textLines (s : String) : List String :=
  (charLines s.toList).map String.ofList

end Concolic
