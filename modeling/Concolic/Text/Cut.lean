/-!
# Cutting text

Cutting a text at a character: at its first place, or at every place.
-/

namespace Concolic

/-- The text before and after the first `c`, if there is one. -/
def cut? (c : Char) : List Char → Option (List Char × List Char)
  | [] => none
  | x :: s => if x = c then some ([], s) else (cut? c s).map fun (a, b) => (x :: a, b)

theorem cut?_append {c : Char} {a : List Char} (h : c ∉ a) (b : List Char) :
    cut? c (a ++ c :: b) = some (a, b) := by
  induction a with
  | nil => simp [cut?]
  | cons x a ih =>
    simp only [List.mem_cons, not_or] at h
    simp [cut?, Ne.symm h.1, ih h.2]

theorem of_append_cons_eq {c : Char} {a a' b b' : List Char} (h : c ∉ a) (h' : c ∉ a')
    (heq : a ++ c :: b = a' ++ c :: b') : a = a' ∧ b = b' := by
  have hcut := congrArg (cut? c) heq
  rwa [cut?_append h, cut?_append h', Option.some.injEq, Prod.mk.injEq] at hcut

theorem cut?_eq_none {c : Char} {s : List Char} (h : c ∉ s) : cut? c s = none := by
  induction s with
  | nil => rfl
  | cons x s ih =>
    simp only [List.mem_cons, not_or] at h
    simp [cut?, Ne.symm h.1, ih h.2]

/-- The pieces of a text between the places of `c`. -/
def piecesAt (c : Char) : List Char → List (List Char)
  | [] => [[]]
  | x :: s =>
    if x = c then [] :: piecesAt c s
    else match piecesAt c s with
      | [] => [[x]]
      | p :: ps => (x :: p) :: ps

end Concolic
