import Concolic.Text.Cut

/-!
# Patterns

Patterns of characters that come once or any number of times, with groups that are remembered. A pattern is
matched from the left. A repetition takes as many characters as it can, and gives them back one after the other
as long as the rest does not match.
-/

namespace Concolic

inductive Pattern
  | one (allowed : Char → Bool)
  | many (allowed : Char → Bool)
  | both (first second : Pattern)
  | group (inner : Pattern)

namespace Pattern

instance : Append Pattern := ⟨both⟩

def oneOrMore (allowed : Char → Bool) : Pattern :=
  one allowed ++ many allowed

/-- What a repetition can leave of a text, after the longest run first. -/
def leavings (allowed : Char → Bool) : List Char → List (List Char)
  | [] => [[]]
  | c :: s => if allowed c then leavings allowed s ++ [c :: s] else [c :: s]

/-- The ways to match the beginning of a text in the order in which they are tried: the groups, and what is left
of the text. -/
def ways : Pattern → List Char → List (List (List Char) × List Char)
  | one _, [] => []
  | one allowed, c :: s => if allowed c then [([], s)] else []
  | many allowed, s => (leavings allowed s).map fun rest => ([], rest)
  | both p q, s =>
    (p.ways s).flatMap fun (groups, rest) =>
      (q.ways rest).map fun (groups', rest') => (groups ++ groups', rest')
  | group p, s => (p.ways s).map fun (groups, rest) => (s.take (s.length - rest.length) :: groups, rest)

def captures? (p : Pattern) (s : List Char) : Option (List (List Char)) :=
  ((p.ways s).find? fun way => way.2.isEmpty).map Prod.fst

/-- Whether a pattern describes a text, with these groups. -/
inductive Matches : Pattern → List Char → List (List Char) → Prop
  | one {allowed : Char → Bool} {c : Char} (h : allowed c = true) : Matches (one allowed) [c] []
  | many {allowed : Char → Bool} {s : List Char} (h : ∀ c ∈ s, allowed c = true) :
    Matches (many allowed) s []
  | both {p q : Pattern} {s t : List Char} {groups groups' : List (List Char)} (hp : Matches p s groups)
    (hq : Matches q t groups') : Matches (both p q) (s ++ t) (groups ++ groups')
  | group {p : Pattern} {s : List Char} {groups : List (List Char)} (h : Matches p s groups) :
    Matches (group p) s (s :: groups)

section Shapes

variable {allowed : Char → Bool} {p q : Pattern} {s : List Char} {groups : List (List Char)}

theorem matches_one_iff : Matches (one allowed) s groups ↔ ∃ c, allowed c = true ∧ s = [c] ∧ groups = [] := by
  constructor
  · rintro (⟨h⟩)
    exact ⟨_, h, rfl, rfl⟩
  · rintro ⟨c, h, rfl, rfl⟩
    exact .one h

theorem matches_many_iff : Matches (many allowed) s groups ↔ (∀ c ∈ s, allowed c = true) ∧ groups = [] := by
  constructor
  · rintro (_ | h)
    exact ⟨h, rfl⟩
  · rintro ⟨h, rfl⟩
    exact .many h

theorem matches_append_iff :
    Matches (p ++ q) s groups ↔ ∃ s₁ s₂ groups₁ groups₂, Matches p s₁ groups₁ ∧ Matches q s₂ groups₂ ∧
      s = s₁ ++ s₂ ∧ groups = groups₁ ++ groups₂ := by
  constructor
  · rintro (_ | _ | ⟨hp, hq⟩)
    exact ⟨_, _, _, _, hp, hq, rfl, rfl⟩
  · rintro ⟨s₁, s₂, groups₁, groups₂, hp, hq, rfl, rfl⟩
    exact .both hp hq

theorem matches_group_iff :
    Matches (group p) s groups ↔ ∃ groups', Matches p s groups' ∧ groups = s :: groups' := by
  constructor
  · rintro (_ | _ | _ | h)
    exact ⟨_, h, rfl⟩
  · rintro ⟨groups', h, rfl⟩
    exact .group h

theorem matches_oneOrMore_iff :
    Matches (oneOrMore allowed) s groups ↔ s ≠ [] ∧ (∀ c ∈ s, allowed c = true) ∧ groups = [] := by
  simp only [oneOrMore, matches_append_iff, matches_one_iff, matches_many_iff]
  constructor
  · rintro ⟨s₁, s₂, groups₁, groups₂, ⟨c, hc, rfl, rfl⟩, ⟨hs, rfl⟩, rfl, rfl⟩
    exact ⟨by simp, by simpa [hc] using hs, rfl⟩
  · rintro ⟨hne, hs, rfl⟩
    obtain ⟨c, t, rfl⟩ := List.exists_cons_of_ne_nil hne
    exact ⟨[c], t, [], [], ⟨c, hs c (by simp), rfl, rfl⟩, ⟨fun x hx => hs x (by simp [hx]), rfl⟩, rfl, rfl⟩

end Shapes

theorem mem_leavings_iff {allowed : Char → Bool} {s rest : List Char} :
    rest ∈ leavings allowed s ↔ ∃ run, s = run ++ rest ∧ ∀ c ∈ run, allowed c = true := by
  induction s with
  | nil =>
    constructor
    · intro h
      exact ⟨[], (List.mem_singleton.1 h).symm, nofun⟩
    · rintro ⟨run, h, -⟩
      exact List.mem_singleton.2 (List.append_eq_nil_iff.1 h.symm).2
  | cons c s ih =>
    constructor
    · intro h
      by_cases hc : allowed c = true
      · rw [leavings, if_pos hc, List.mem_append, List.mem_singleton, ih] at h
        rcases h with ⟨run, rfl, hrun⟩ | rfl
        · exact ⟨c :: run, rfl, by simpa [hc] using hrun⟩
        · exact ⟨[], rfl, nofun⟩
      · rw [leavings, if_neg hc, List.mem_singleton] at h
        exact ⟨[], h.symm, nofun⟩
    · rintro ⟨run, hs, hrun⟩
      cases run with
      | nil =>
        obtain rfl : c :: s = rest := hs
        by_cases hc : allowed c = true <;> simp [leavings, hc]
      | cons d run =>
        obtain ⟨rfl, rfl⟩ := List.cons.inj hs
        rw [leavings, if_pos (hrun c (by simp))]
        exact List.mem_append_left _ (ih.2 ⟨run, rfl, fun x hx => hrun x (by simp [hx])⟩)

theorem mem_ways_one_iff {allowed : Char → Bool} {s rest : List Char} {groups : List (List Char)} :
    (groups, rest) ∈ (one allowed).ways s ↔ ∃ c, s = c :: rest ∧ allowed c = true ∧ groups = [] := by
  cases s with
  | nil => simp [ways]
  | cons d s =>
    by_cases h : allowed d = true
    · rw [ways, if_pos h, List.mem_singleton, Prod.mk.injEq]
      constructor
      · rintro ⟨rfl, rfl⟩
        exact ⟨d, rfl, h, rfl⟩
      · rintro ⟨c, hs, -, rfl⟩
        exact ⟨rfl, (List.cons.inj hs).2.symm⟩
    · rw [ways, if_neg h]
      constructor
      · nofun
      · rintro ⟨c, hs, hc, -⟩
        rw [(List.cons.inj hs).1] at h
        exact absurd hc h

/-- The ways that are tried are those in which the pattern describes what is taken off the text. -/
theorem mem_ways_iff {p : Pattern} {s rest : List Char} {groups : List (List Char)} :
    (groups, rest) ∈ p.ways s ↔ ∃ t, s = t ++ rest ∧ Matches p t groups := by
  induction p generalizing s rest groups with
  | one allowed =>
    simp only [mem_ways_one_iff, matches_one_iff]
    constructor
    · rintro ⟨c, rfl, hc, rfl⟩
      exact ⟨[c], rfl, c, hc, rfl, rfl⟩
    · rintro ⟨t, rfl, c, hc, rfl, rfl⟩
      exact ⟨c, rfl, hc, rfl⟩
  | many allowed =>
    simp only [ways, List.mem_map, Prod.mk.injEq, mem_leavings_iff, matches_many_iff]
    constructor
    · rintro ⟨_, ⟨run, rfl, hrun⟩, rfl, rfl⟩
      exact ⟨run, rfl, hrun, rfl⟩
    · rintro ⟨run, rfl, hrun, rfl⟩
      exact ⟨rest, ⟨run, rfl, hrun⟩, rfl, rfl⟩
  | both p q ihp ihq =>
    simp only [ways, List.mem_flatMap, List.mem_map, Prod.exists, Prod.mk.injEq, ihp, ihq]
    constructor
    · rintro ⟨groups₁, _, ⟨s₁, rfl, hp⟩, groups₂, _, ⟨s₂, rfl, hq⟩, rfl, rfl⟩
      exact ⟨s₁ ++ s₂, by simp, .both hp hq⟩
    · rintro ⟨_, rfl, h⟩
      obtain ⟨s₁, s₂, groups₁, groups₂, hp, hq, rfl, rfl⟩ := matches_append_iff.1 h
      exact ⟨groups₁, s₂ ++ rest, ⟨s₁, by simp, hp⟩, groups₂, rest, ⟨s₂, rfl, hq⟩, rfl, rfl⟩
  | group p ih =>
    -- What was taken is as long as what is missing from the rest.
    have htake (t : List Char) : (t ++ rest).take ((t ++ rest).length - rest.length) = t := by
      rw [List.length_append, Nat.add_sub_cancel, List.take_left]
    simp only [ways, List.mem_map, Prod.exists, Prod.mk.injEq, ih, matches_group_iff]
    constructor
    · rintro ⟨groups', _, ⟨t, rfl, h⟩, rfl, rfl⟩
      exact ⟨t, rfl, groups', h, by rw [htake]⟩
    · rintro ⟨t, rfl, groups', h, rfl⟩
      exact ⟨groups', rest, ⟨t, rfl, h⟩, by rw [htake], rfl⟩

theorem matches_of_captures? {p : Pattern} {s : List Char} {groups : List (List Char)}
    (h : p.captures? s = some groups) : Matches p s groups := by
  obtain ⟨⟨_, rest⟩, hfind, rfl⟩ := Option.map_eq_some_iff.1 h
  obtain ⟨t, rfl, hmatches⟩ := mem_ways_iff.1 (List.mem_of_find?_eq_some hfind)
  have hempty := List.find?_some hfind
  obtain rfl : rest = [] := List.isEmpty_iff.1 hempty
  rwa [List.append_nil]

theorem exists_captures? {p : Pattern} {s : List Char} {groups : List (List Char)} (h : Matches p s groups) :
    ∃ groups', p.captures? s = some groups' := by
  have hway : (groups, []) ∈ p.ways s := mem_ways_iff.2 ⟨s, (List.append_nil s).symm, h⟩
  have hfound : ((p.ways s).find? fun way => way.2.isEmpty).isSome :=
    List.find?_isSome.2 ⟨_, hway, rfl⟩
  obtain ⟨way, hway⟩ := Option.isSome_iff_exists.1 hfound
  exact ⟨way.1, by rw [captures?, hway, Option.map_some]⟩

/-- Where a pattern can describe a text in one way only, the order in which the ways are tried does not matter. -/
theorem captures?_eq_some_iff {p : Pattern} {s : List Char}
    (hunique : ∀ groups groups', Matches p s groups → Matches p s groups' → groups = groups')
    {groups : List (List Char)} : p.captures? s = some groups ↔ Matches p s groups := by
  constructor
  · exact matches_of_captures?
  · intro h
    obtain ⟨groups', hcaptures⟩ := exists_captures? h
    rw [hcaptures, hunique groups groups' h (matches_of_captures? hcaptures)]

end Pattern

end Concolic
