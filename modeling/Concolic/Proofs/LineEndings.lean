import Concolic.Proofs.DecimalText
import Concolic.Proofs.LineChanges
import Concolic.Text.Cut
import Mathlib.Data.List.Basic

/-!
# Line endings

The lines of a text do not say how they end: whether a carriage return stands before a line feed, and whether the last
line is ended at all. Nothing else of a text is lost in its lines. Outputs are compared as texts and their changes line
by line, so that outputs may differ without a change of any line; they then differ in their line endings only. Texts
that each end a line do not run into each other, and one without control characters is a single line.
-/

namespace Concolic

namespace Lines

/-- The text without the carriage returns that belong to line endings. -/
def dropReturns : List Char → List Char
  | [] => []
  | c :: s => if c = '\r' ∧ s.head? = some '\n' then dropReturns s else c :: dropReturns s

def terminate (s : List Char) : List Char :=
  if s = [] ∨ s.getLast? = some '\n' then s else s ++ ['\n']

theorem induction_on_lines {P : List Char → Prop} (last : ∀ s, '\n' ∉ s → P s)
    (line : ∀ s t, '\n' ∉ s → P t → P (s ++ '\n' :: t)) (s : List Char) : P s := by
  by_cases h : '\n' ∈ s
  · obtain ⟨first, rest, hs, hfirst⟩ := List.eq_append_cons_of_mem h
    have hlength : rest.length < s.length := by
      rw [hs, List.length_append, List.length_cons]
      omega
    rw [hs]
    exact line first rest hfirst (induction_on_lines last line rest)
  · exact last s h
termination_by s.length

theorem head?_ne_of_not_mem {s : List Char} {c : Char} (h : c ∉ s) : s.head? ≠ some c := by
  intro hhead
  exact h (List.mem_of_head? hhead)

theorem dropReturns_cons {s : List Char} (h : s.head? ≠ some '\n') (c : Char) :
    dropReturns (c :: s) = c :: dropReturns s := by
  rw [dropReturns, if_neg fun hc => h hc.2]

theorem dropReturns_of_not_mem {s : List Char} (h : '\n' ∉ s) : dropReturns s = s := by
  induction s with
  | nil => rfl
  | cons c s ih =>
    have hs : '\n' ∉ s := fun hmem => h (List.mem_cons_of_mem c hmem)
    rw [dropReturns_cons (head?_ne_of_not_mem hs), ih hs]

/-- Of a line feed nothing is dropped before the character in front of it. -/
theorem dropReturns_append {s : List Char} (hs : '\n' ∉ s) {c : Char} (hc : c ≠ '\n') (t : List Char) :
    dropReturns (s ++ c :: t) = s ++ dropReturns (c :: t) := by
  induction s with
  | nil => rfl
  | cons x s ih =>
    have hs' : '\n' ∉ s := fun hmem => hs (List.mem_cons_of_mem x hmem)
    have hhead : (s ++ c :: t).head? ≠ some '\n' := by
      cases s with
      | nil => simpa using hc
      | cons y s => simpa using fun hy : y = '\n' => hs' (by simp [hy])
    rw [List.cons_append, dropReturns_cons hhead, ih hs', List.cons_append]

theorem dropReturns_line {s : List Char} (h : '\n' ∉ s) (t : List Char) :
    dropReturns (s ++ '\n' :: t) = close s.reverse ++ '\n' :: dropReturns t := by
  have hfeed : dropReturns ('\n' :: t) = '\n' :: dropReturns t := by simp [dropReturns]
  obtain rfl | ⟨line, c, rfl⟩ := s.eq_nil_or_concat'
  · exact hfeed
  · simp only [List.mem_append, List.mem_singleton, not_or] at h
    rw [List.append_assoc, List.singleton_append, dropReturns_append h.1 (Ne.symm h.2),
      List.reverse_append, List.reverse_singleton, List.singleton_append]
    by_cases hc : c = '\r'
    · subst hc
      simp [dropReturns, close]
    · simp [dropReturns, close, hc]

theorem terminate_append (s t : List Char) : terminate (s ++ '\n' :: t) = s ++ '\n' :: terminate t := by
  by_cases ht : t = []
  · simp [terminate, ht]
  · have hlast : (s ++ '\n' :: t).getLast? = t.getLast? := by
      rw [List.getLast?_append_of_ne_nil s (by simp), List.getLast?_cons_of_ne_nil ht]
    unfold terminate
    rw [hlast]
    by_cases h : t.getLast? = some '\n' <;> simp [ht, h]

theorem terminate_of_not_mem {s : List Char} (h : '\n' ∉ s) :
    terminate s = if s = [] then [] else s ++ ['\n'] := by
  have hlast : s.getLast? ≠ some '\n' := fun hlast => h (List.mem_of_getLast? hlast)
  by_cases hs : s = []
  · simp [terminate, hs]
  · simp [terminate, hs, hlast]

/-- The lines of a text, each with a line feed, are the text with its endings made the same. -/
theorem flatMap_charLines (s : List Char) :
    (charLines s).flatMap (· ++ ['\n']) = terminate (dropReturns s) := by
  induction s using induction_on_lines with
  | last s h =>
    rw [charLines_of_not_mem h, dropReturns_of_not_mem h, terminate_of_not_mem h]
    by_cases hs : s = [] <;> simp [hs]
  | line s t h ih =>
    rw [charLines_append h, dropReturns_line h, terminate_append, List.flatMap_cons, ih, List.append_assoc,
      List.singleton_append]

theorem not_mem_close {s : List Char} (h : '\n' ∉ s) : '\n' ∉ close s := by
  unfold close
  split
  · simpa using h
  · simpa using h

theorem not_mem_of_mem_charLines {s line : List Char} (h : line ∈ charLines s) : '\n' ∉ line := by
  induction s using induction_on_lines with
  | last s hs =>
    rw [charLines_of_not_mem hs] at h
    by_cases hempty : s = []
    · simp [hempty] at h
    · simp only [List.isEmpty_iff, hempty, if_false, List.mem_singleton] at h
      rwa [h]
  | line s t hs ih =>
    rw [charLines_append hs, List.mem_cons] at h
    obtain rfl | h := h
    · exact not_mem_close (by simpa using hs)
    · exact ih h

theorem charLines_append_line (s t : List Char) : charLines (s ++ '\n' :: t) = charLines (s ++ ['\n']) ++ charLines t := by
  induction s using induction_on_lines with
  | last s h =>
    rw [charLines_append h, charLines_append h]
    rfl
  | line s u h ih =>
    rw [List.append_assoc, List.append_assoc, List.cons_append, List.cons_append, charLines_append h, charLines_append h,
      ih, List.cons_append]

theorem eq_of_flatMap_eq {lines lines' : List (List Char)} (h : ∀ line ∈ lines, '\n' ∉ line)
    (h' : ∀ line ∈ lines', '\n' ∉ line)
    (heq : lines.flatMap (· ++ ['\n']) = lines'.flatMap (· ++ ['\n'])) : lines = lines' := by
  induction lines generalizing lines' with
  | nil => cases lines' with
    | nil => rfl
    | cons line' lines' => simp at heq
  | cons line lines ih => cases lines' with
    | nil => simp at heq
    | cons line' lines' =>
      rw [List.forall_mem_cons] at h h'
      simp only [List.flatMap_cons, List.append_assoc, List.singleton_append] at heq
      -- The first line feed is where the first line ends.
      obtain ⟨hline, hrest⟩ := of_append_cons_eq h.1 h'.1 heq
      rw [hline, ih h.2 h'.2 hrest]

end Lines

theorem not_mem_of_mem_textLines {s line : String} (h : line ∈ textLines s) : '\n' ∉ line.toList := by
  obtain ⟨chars, hchars, rfl⟩ := List.mem_map.1 h
  rw [String.toList_ofList]
  exact Lines.not_mem_of_mem_charLines hchars

theorem textLines_of_not_mem {s : String} (hfeed : '\n' ∉ s.toList) (hreturn : s.toList.getLast? ≠ some '\r') :
    textLines (s ++ "\n") = [s] := by
  have hclose : Lines.close s.toList.reverse = s.toList := by
    unfold Lines.close
    split
    case h_1 line hline =>
      rw [List.reverse_eq_cons_iff] at hline
      simp [hline] at hreturn
    case h_2 => exact List.reverse_reverse _
  have hlines : charLines (s ++ "\n").toList = [s.toList] := by
    rw [String.toList_append, show "\n".toList = '\n' :: [] from rfl, charLines_append hfeed, hclose]
    rfl
  rw [textLines, hlines, List.map_singleton, String.ofList_toList]

theorem textLines_join {ts : List String} (h : ∀ t ∈ ts, ∃ s, t = s ++ "\n") :
    textLines (String.join ts) = ts.flatMap textLines := by
  induction ts with
  | nil => rfl
  | cons t ts ih =>
    obtain ⟨s, hs⟩ := h t List.mem_cons_self
    have hrest := ih fun u hu => h u (List.mem_cons_of_mem t hu)
    have ht : t.toList = s.toList ++ ['\n'] := by rw [hs, String.toList_append]; rfl
    rw [List.flatMap_cons, ← hrest, String.join_cons]
    simp only [textLines, String.toList_append]
    rw [ht, List.append_assoc, List.singleton_append, Lines.charLines_append_line, List.map_append]

/-- A text without control characters. -/
def Visible (s : List Char) : Prop :=
  ∀ c ∈ s, 0x20 ≤ c.toNat

namespace Visible

variable {s t : List Char}

instance (s : List Char) : Decidable (Visible s) :=
  List.decidableBAll (fun c : Char => 0x20 ≤ c.toNat) s

theorem cons {c : Char} (hc : 0x20 ≤ c.toNat) (hs : Visible s) : Visible (c :: s) :=
  List.forall_mem_cons.2 ⟨hc, hs⟩

theorem append (hs : Visible s) (ht : Visible t) : Visible (s ++ t) :=
  List.forall_mem_append.2 ⟨hs, ht⟩

theorem not_mem (h : Visible s) {c : Char} (hc : c.toNat < 0x20) : c ∉ s :=
  fun hmem => Nat.not_lt.2 (h c hmem) hc

theorem integer (n : Int) : Visible (toString n).toList := by
  refine Decimal.forall_mem_toString (by decide) (fun c hc => ?_) n
  have hdigit := Char.isDigit_iff_toNat.1 hc
  exact Nat.le_trans (by decide) hdigit.1

theorem natural (n : Nat) : Visible (toString n).toList :=
  integer (Int.ofNat n)

theorem textLines_eq {s : String} (h : Visible s.toList) : textLines (s ++ "\n") = [s] := by
  refine textLines_of_not_mem (h.not_mem (by decide)) fun hlast => ?_
  exact h.not_mem (by decide) (List.mem_of_getLast? hlast)

end Visible

/-- The text with each of its lines ended by a line feed alone. -/
def unifyEndings (s : String) : String :=
  String.ofList (Lines.terminate (Lines.dropReturns s.toList))

/-- Different texts that have the same lines, as `textLines_eq_iff` says. -/
def DifferInEndings (s t : String) : Prop :=
  s ≠ t ∧ unifyEndings s = unifyEndings t

/-- Texts have the same lines if they differ in their line endings at most. -/
theorem textLines_eq_iff {s t : String} : textLines s = textLines t ↔ unifyEndings s = unifyEndings t := by
  have hinjective : Function.Injective String.ofList := fun _ _ h => String.ofList_injective h
  rw [textLines, textLines, (List.map_injective_iff.2 hinjective).eq_iff, unifyEndings, unifyEndings,
    String.ofList_inj, ← Lines.flatMap_charLines, ← Lines.flatMap_charLines]
  constructor
  · intro h
    rw [h]
  · intro h
    exact Lines.eq_of_flatMap_eq (fun _ => Lines.not_mem_of_mem_charLines) (fun _ => Lines.not_mem_of_mem_charLines) h

example : textLines "one\r\ntwo" = textLines "one\ntwo\n" := by decide

namespace LineChange

theorem between_self (lines : List String) : between lines lines = lines.map unchanged := by
  induction lines with
  | nil => rfl
  | cons line lines ih => simp [between, ih]

theorem exists_isChange_between_iff {olds news : List String} :
    (∃ c ∈ between olds news, c.isChange = true) ↔ olds ≠ news := by
  constructor
  · rintro ⟨c, hc, hchange⟩ rfl
    rw [between_self, List.mem_map] at hc
    obtain ⟨line, -, rfl⟩ := hc
    cases hchange
  · intro hne
    by_contra hnone
    have hread : ∀ c ∈ between olds news, c.old? = c.new? := by
      intro c hc
      cases c with
      | unchanged line => rfl
      | added line => exact absurd ⟨_, hc, rfl⟩ hnone
      | removed line => exact absurd ⟨_, hc, rfl⟩ hnone
      | modified old new => exact absurd ⟨_, hc, rfl⟩ hnone
    have hlines := List.filterMap_congr hread
    rw [filterMap_old?_between, filterMap_new?_between] at hlines
    exact hne hlines

end LineChange

theorem exists_isChange_diffLines_iff {old new : String} :
    (∃ c ∈ diffLines old new, c.isChange = true) ↔ unifyEndings old ≠ unifyEndings new := by
  rw [diffLines, LineChange.exists_isChange_between_iff, ne_eq, textLines_eq_iff]

namespace Mismatch

variable {index : Nat} {pathId : UInt64} {recorded replayed : String}

theorem isSome_check_iff : (check index pathId recorded replayed).isSome = true ↔ recorded ≠ replayed := by
  by_cases h : recorded = replayed <;> simp [check, h]

theorem changes_of_check {m : Mismatch} (h : check index pathId recorded replayed = some m) :
    m.changes = diffLines recorded replayed := by
  by_cases heq : recorded = replayed
  · simp [check, heq] at h
  · simp only [check, heq, if_false, Option.some.injEq] at h
    rw [← h]

theorem changedLines_pos_iff {m : Mismatch} : 1 ≤ m.changedLines ↔ ∃ c ∈ m.changes, c.isChange = true :=
  List.length_filter_pos_iff

/-- Outputs mismatch if a line is changed between them, or if they are different texts with the same lines, and never
both: of a mismatch at least one line is changed exactly if the lines are not the same. -/
theorem check_iff_change_or_endings (index : Nat) (pathId : UInt64) (recorded replayed : String) :
    ((check index pathId recorded replayed).isSome = true ↔
        (∃ c ∈ diffLines recorded replayed, c.isChange = true) ∨ DifferInEndings recorded replayed) ∧
      ¬ ((∃ c ∈ diffLines recorded replayed, c.isChange = true) ∧ DifferInEndings recorded replayed) ∧
      ∀ m, check index pathId recorded replayed = some m →
        (1 ≤ m.changedLines ↔ ¬ DifferInEndings recorded replayed) := by
  refine ⟨?found, ?apart, ?counted⟩
  case found =>
    rw [isSome_check_iff, exists_isChange_diffLines_iff]
    constructor
    · intro hdiffer
      by_cases hunified : unifyEndings recorded = unifyEndings replayed
      · exact .inr ⟨hdiffer, hunified⟩
      · exact .inl hunified
    · rintro (hunified | ⟨hdiffer, -⟩)
      · exact fun heq => hunified (congrArg unifyEndings heq)
      · exact hdiffer
  case apart =>
    rintro ⟨hchange, -, hunified⟩
    exact exists_isChange_diffLines_iff.1 hchange hunified
  case counted =>
    intro m hm
    have hdiffer : recorded ≠ replayed := isSome_check_iff.1 (Option.isSome_of_eq_some hm)
    rw [changedLines_pos_iff, changes_of_check hm, exists_isChange_diffLines_iff]
    exact not_congr (and_iff_right hdiffer).symm

/-- The recorded output lacks the line feed at the end of the replayed one. It is reported, and no line of it is
changed. -/
theorem check_missing_line_feed :
    (check 0 0 "a" "a\n").map changedLines = some 0 ∧
      ¬ ((check 0 0 "a" "a\n").isSome = true ↔ ∃ c ∈ diffLines "a" "a\n", c.isChange = true) := by
  decide

end Mismatch

end Concolic
