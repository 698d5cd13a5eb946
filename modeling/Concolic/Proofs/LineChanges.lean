import Concolic.Difference

/-!
# Changes of lines

A list of changes keeps both texts. Where both of them have a line the two are compared, and what the longer text has
more comes after that; so the lines of either text can be read off the changes in order, and from either side.
-/

namespace Concolic

namespace LineChange

def old? : LineChange → Option String
  | added _ => none
  | removed line => some line
  | modified old _ => some old
  | unchanged line => some line

def new? : LineChange → Option String
  | added line => some line
  | removed _ => none
  | modified _ new => some new
  | unchanged line => some line

def swap : LineChange → LineChange
  | added line => removed line
  | removed line => added line
  | modified old new => modified new old
  | unchanged line => unchanged line

def isPaired : LineChange → Bool
  | added _ => false
  | removed _ => false
  | modified _ _ => true
  | unchanged _ => true

def compare (old new : String) : LineChange :=
  if old = new then unchanged old else modified old new

section Compare

variable (old new : String)

@[simp] theorem old?_compare : (compare old new).old? = some old := by
  unfold compare
  split <;> rfl

@[simp] theorem new?_compare : (compare old new).new? = some new := by
  unfold compare
  split
  · rename_i h
    rw [h, new?]
  · rfl

@[simp] theorem isPaired_compare : (compare old new).isPaired = true := by
  unfold compare
  split <;> rfl

theorem swap_compare : (compare old new).swap = compare new old := by
  by_cases h : old = new
  · subst h
    simp [compare, swap]
  · simp [compare, swap, h, Ne.symm h]

theorem ne_of_compare_eq_modified {old new a b : String} (h : compare old new = modified a b) : a ≠ b := by
  by_cases hlines : old = new
  · simp [compare, hlines] at h
  · simp only [compare, hlines, if_false, modified.injEq] at h
    rwa [← h.1, ← h.2]

end Compare

/-- The lines that both texts have are compared, and those that only one of them has are removed or added. -/
theorem between_eq (olds news : List String) :
    between olds news = List.zipWith compare olds news ++
      ((olds.drop news.length).map removed ++ (news.drop olds.length).map added) := by
  fun_induction between olds news with
  | case1 old olds new news ih => simpa [compare] using ih
  | case2 news => simp
  | case3 olds hne => simp

theorem exists_compare_of_mem {olds news : List String} {c : LineChange}
    (h : c ∈ List.zipWith compare olds news) : ∃ old new, c = compare old new := by
  obtain ⟨i, hi, rfl⟩ := List.getElem_of_mem h
  exact ⟨_, _, List.getElem_zipWith⟩

variable (olds news : List String)

theorem length_between : (between olds news).length = max olds.length news.length := by
  simp only [between_eq, List.length_append, List.length_zipWith, List.length_map, List.length_drop]
  omega

theorem between_swap : between news olds = (between olds news).map swap := by
  fun_induction between olds news with
  | case1 old olds new news ih =>
    rw [between, ih, List.map_cons]
    exact congrArg (· :: _) (swap_compare old new).symm
  | case2 news => cases news <;> simp [between, Function.comp_def, swap]
  | case3 olds hne => simp [between, Function.comp_def, swap]

theorem filterMap_old?_between : (between olds news).filterMap old? = olds := by
  fun_induction between olds news with
  | case1 old olds new news ih =>
    exact (List.filterMap_cons_some (old?_compare old new)).trans (congrArg (old :: ·) ih)
  | case2 news => simp [Function.comp_def, old?]
  | case3 olds hne => simp [Function.comp_def, old?]

theorem filterMap_new?_between : (between olds news).filterMap new? = news := by
  have hswap : new? = old? ∘ swap := by
    funext c
    cases c <;> rfl
  rw [hswap, ← List.filterMap_map, ← between_swap, filterMap_old?_between]

theorem ne_of_modified_mem_between {a b : String} (h : modified a b ∈ between olds news) : a ≠ b := by
  rw [between_eq, List.mem_append, List.mem_append, List.mem_map, List.mem_map] at h
  obtain hpaired | ⟨line, -, hremoved⟩ | ⟨line, -, hadded⟩ := h
  · obtain ⟨old, new, hcompare⟩ := exists_compare_of_mem hpaired
    exact ne_of_compare_eq_modified hcompare.symm
  · cases hremoved
  · cases hadded

/-- Only the longer of two texts has lines left when the shorter one ends. -/
theorem exists_between_eq_append :
    ∃ (paired : List LineChange) (lines : List String), (∀ c ∈ paired, c.isPaired = true) ∧
      (between olds news = paired ++ lines.map removed ∨ between olds news = paired ++ lines.map added) := by
  have hpaired : ∀ c ∈ List.zipWith compare olds news, c.isPaired = true := by
    intro c hc
    obtain ⟨old, new, rfl⟩ := exists_compare_of_mem hc
    exact isPaired_compare old new
  obtain hle | hle := Nat.le_total olds.length news.length
  · refine ⟨_, news.drop olds.length, hpaired, .inr ?_⟩
    rw [between_eq, List.drop_eq_nil_of_le hle, List.map_nil, List.nil_append]
  · refine ⟨_, olds.drop news.length, hpaired, .inl ?_⟩
    rw [between_eq, List.drop_eq_nil_of_le hle, List.map_nil, List.append_nil]

end LineChange

open LineChange in
/-- The changes of lines keep both texts. There is one change for each place at which either text has a line, and the
lines of each text are read off the changes in order. A line is modified only if it is another one. What is not at a
place of both texts comes last and is all removed or all added. From the other side the changes are the same ones,
turned round. -/
theorem diffLines_keeps_both_texts (old new : String) :
    (diffLines old new).length = max (textLines old).length (textLines new).length ∧
      (diffLines old new).filterMap old? = textLines old ∧
      (diffLines old new).filterMap new? = textLines new ∧
      (∀ a b, modified a b ∈ diffLines old new → a ≠ b) ∧
      (∃ (paired : List LineChange) (lines : List String), (∀ c ∈ paired, c.isPaired = true) ∧
        (diffLines old new = paired ++ lines.map removed ∨ diffLines old new = paired ++ lines.map added)) ∧
      diffLines new old = (diffLines old new).map swap :=
  ⟨length_between _ _, filterMap_old?_between _ _, filterMap_new?_between _ _,
    fun _ _ h => ne_of_modified_mem_between _ _ h, exists_between_eq_append _ _, between_swap _ _⟩

end Concolic
