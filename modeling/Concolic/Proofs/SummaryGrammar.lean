import Concolic.Coverage.Summary
import Concolic.Proofs.DecimalText
import Concolic.Proofs.Pattern
import Mathlib.Data.List.Basic
import Mathlib.Data.List.TakeWhile

/-!
# The grammar of summary rows

A row is a name and three columns of digits, with white space around them. Read from its end, a line has one such
layout at the most, even if the name itself looks like columns. So it does not matter in which order a pattern
tries to match a line, nor whether a column may have digits of other scripts, which denote no count.
-/

namespace Concolic

theorem span_append {p : Char → Bool} {u x : List Char} (hu : ∀ c ∈ u, p c = true)
    (hx : ∀ c ∈ x.head?, p c = false) : (u ++ x).takeWhile p = u ∧ (u ++ x).dropWhile p = x := by
  rw [List.takeWhile_append_of_pos hu, List.dropWhile_append_of_pos hu]
  cases x with
  | nil => simp
  | cons c x => simp [hx c rfl]

theorem eq_of_append_run {p : Char → Bool} {x y u v : List Char} (hu : ∀ c ∈ u, p c = true)
    (hv : ∀ c ∈ v, p c = true) (hx : ∀ c ∈ x.getLast?, p c = false) (hy : ∀ c ∈ y.getLast?, p c = false)
    (h : x ++ u = y ++ v) : x = y ∧ u = v := by
  have hreverse : u.reverse ++ x.reverse = v.reverse ++ y.reverse := by
    rw [← List.reverse_append, h, List.reverse_append]
  have hux := span_append (p := p) (u := u.reverse) (x := x.reverse)
    (by simpa using hu) (by simpa using hx)
  have hvy := span_append (p := p) (u := v.reverse) (x := y.reverse)
    (by simpa using hv) (by simpa using hy)
  rw [hreverse] at hux
  exact ⟨List.reverse_inj.1 (hux.2.symm.trans hvy.2), List.reverse_inj.1 (hux.1.symm.trans hvy.1)⟩

/-- A text that does not begin with white space, and that is not empty. -/
def StartsSolid (s : List Char) : Prop :=
  ∃ c ∈ s.head?, isBlank c = false

/-- A text that does not end with white space, and that is not empty. -/
def EndsSolid (s : List Char) : Prop :=
  ∃ c ∈ s.getLast?, isBlank c = false

namespace StartsSolid

variable {s : List Char}

theorem head (h : StartsSolid s) : ∀ c ∈ s.head?, isBlank c = false := by
  obtain ⟨c, hc, hsolid⟩ := h
  intro d hd
  rwa [← Option.mem_unique hc hd]

theorem ne_nil (h : StartsSolid s) : s ≠ [] := by
  rintro rfl
  obtain ⟨c, hc, -⟩ := h
  cases hc

theorem reverse_iff : StartsSolid s.reverse ↔ EndsSolid s := by
  rw [StartsSolid, EndsSolid, List.head?_reverse]

end StartsSolid

namespace EndsSolid

variable {t : List Char}

theorem last (h : EndsSolid t) : ∀ c ∈ t.getLast?, isBlank c = false := by
  obtain ⟨c, hc, hsolid⟩ := h
  intro d hd
  rwa [← Option.mem_unique hc hd]

theorem append (s : List Char) (h : EndsSolid t) : EndsSolid (s ++ t) := by
  obtain ⟨c, hc, hsolid⟩ := h
  exact ⟨c, by simp [List.getLast?_append, Option.mem_def.1 hc], hsolid⟩

end EndsSolid

theorem trim_margin {margin name : List Char} (hmargin : ∀ c ∈ margin, isBlank c = true)
    (hstarts : StartsSolid name) (hends : EndsSolid name) : trim (margin ++ name) = name := by
  have hreverse := StartsSolid.reverse_iff.2 hends
  have hname := (span_append (p := isBlank) (u := []) nofun hreverse.head).2
  rw [List.nil_append] at hname
  rw [trim, trimEnd, (span_append hmargin hstarts.head).2, hname, List.reverse_reverse]

theorem exists_margin {head : List Char} (h : EndsSolid head) :
    ∃ margin name, head = margin ++ name ∧ (∀ c ∈ margin, isBlank c = true) ∧ StartsSolid name ∧
      EndsSolid name := by
  have hhead : head = head.takeWhile isBlank ++ head.dropWhile isBlank := List.takeWhile_append_dropWhile.symm
  have hmargin : ∀ c ∈ head.takeWhile isBlank, isBlank c = true := fun _ hc => List.mem_takeWhile_imp hc
  obtain ⟨c, hc, hsolid⟩ := h
  have hname : head.dropWhile isBlank ≠ [] := by
    intro hnil
    rw [hhead, hnil, List.append_nil] at hc
    rw [hmargin c (List.mem_of_getLast? hc)] at hsolid
    cases hsolid
  refine ⟨_, _, hhead, hmargin, ⟨_, List.head?_eq_some_head hname, List.head_dropWhile_not isBlank hname⟩, c, ?_,
    hsolid⟩
  rwa [hhead, List.getLast?_append_of_ne_nil _ hname] at hc

theorem Decimal.nat?_eq_some_iff {s : List Char} {n : Nat} :
    nat? s = some n ↔ s ≠ [] ∧ (∀ c ∈ s, c.isDigit = true) ∧ Nat.ofDigitChars 10 s 0 = n := by
  simp [nat?, and_assoc]

namespace Summary

/-- A class of digits, the ASCII digits among them. -/
structure IsDigitClass (digit : Char → Bool) : Prop where
  of_isDigit {c : Char} (h : c.isDigit = true) : digit c = true
  not_blank {c : Char} (h : digit c = true) : isBlank c = false

structure Column (digit : Char → Bool) where
  gap : List Char
  digits : List Char
  gap_ne_nil : gap ≠ []
  gap_blank : ∀ c ∈ gap, isBlank c = true
  digits_ne_nil : digits ≠ []
  digits_digit : ∀ c ∈ digits, digit c = true

/-- The columns of a row and the percent sign, with white space up to the end of the line. -/
structure Columns (digit : Char → Bool) where
  statements : Column digit
  missed : Column digit
  percent : Column digit
  rest : List Char
  rest_blank : ∀ c ∈ rest, isBlank c = true

/-- A row: white space, a name that neither begins nor ends with white space, and columns. -/
structure Layout (digit : Char → Bool) extends Columns digit where
  margin : List Char
  name : List Char
  margin_blank : ∀ c ∈ margin, isBlank c = true
  name_starts : StartsSolid name
  name_ends : EndsSolid name

variable {digit : Char → Bool}

def Column.text (c : Column digit) : List Char :=
  c.gap ++ c.digits

def Columns.text (k : Columns digit) : List Char :=
  k.statements.text ++ k.missed.text ++ k.percent.text ++ ['%'] ++ k.rest

def Layout.text (l : Layout digit) : List Char :=
  l.margin ++ l.name ++ l.toColumns.text

def Denotes (digits : List Char) (n : UInt32) : Prop :=
  Nat.ofDigitChars 10 digits 0 = n.toNat

/-- Whether a line is a row with this name and these numbers. The row of totals does not count. -/
def IsRow (line : List Char) (name : String) (numbers : SummaryLine) : Prop :=
  name ≠ "TOTAL" ∧ ∃ l : Layout Char.isDigit, l.text = line ∧ String.ofList l.name = name ∧
    Denotes l.statements.digits numbers.statements ∧ Denotes l.missed.digits numbers.missed ∧
    Denotes l.percent.digits numbers.percent

theorem IsDigitClass.ascii : IsDigitClass Char.isDigit :=
  ⟨id, isBlank_of_isDigit⟩

section Unique

variable (hdigit : IsDigitClass digit)

include hdigit

theorem IsDigitClass.not_digit {c : Char} (h : isBlank c = true) : digit c = false := by
  by_contra hc
  rw [hdigit.not_blank (eq_true_of_ne_false hc)] at h
  cases h

theorem Column.ends (c : Column digit) : EndsSolid c.text := by
  refine EndsSolid.append c.gap ⟨_, List.getLast?_eq_some_getLast c.digits_ne_nil, ?_⟩
  exact hdigit.not_blank (c.digits_digit _ (List.getLast_mem c.digits_ne_nil))

theorem Column.last_gap (x : List Char) (c : Column digit) : ∀ d ∈ (x ++ c.gap).getLast?, digit d = false := by
  intro d hd
  rw [List.getLast?_append_of_ne_nil x c.gap_ne_nil] at hd
  exact hdigit.not_digit (c.gap_blank d (List.mem_of_getLast? hd))

theorem Column.eq_of_append {x y : List Char} (hx : EndsSolid x) (hy : EndsSolid y) {c d : Column digit}
    (h : x ++ c.text = y ++ d.text) : x = y ∧ c = d := by
  simp only [text, ← List.append_assoc] at h
  obtain ⟨hrest, hdigits⟩ := eq_of_append_run c.digits_digit d.digits_digit (c.last_gap hdigit x)
    (d.last_gap hdigit y) h
  obtain ⟨hxy, hgap⟩ := eq_of_append_run c.gap_blank d.gap_blank hx.last hy.last hrest
  cases c
  cases d
  cases hgap
  cases hdigits
  exact ⟨hxy, rfl⟩

/-- The columns are cut off a line in one way, whatever stands before them. -/
theorem Columns.eq_of_append {x y : List Char} (hx : EndsSolid x) (hy : EndsSolid y) {k k' : Columns digit}
    (h : x ++ k.text = y ++ k'.text) : x = y ∧ k = k' := by
  simp only [text, ← List.append_assoc] at h
  have hpercent (z : List Char) : ∀ c ∈ (z ++ ['%']).getLast?, isBlank c = false := by
    simp [show isBlank '%' = false from rfl]
  obtain ⟨hcolumns, hrest⟩ := eq_of_append_run k.rest_blank k'.rest_blank (hpercent _) (hpercent _) h
  have hcut := List.append_cancel_right hcolumns
  obtain ⟨hcut, hthird⟩ := Column.eq_of_append hdigit (.append _ (k.missed.ends hdigit))
    (.append _ (k'.missed.ends hdigit)) hcut
  obtain ⟨hcut, hsecond⟩ := Column.eq_of_append hdigit (.append _ (k.statements.ends hdigit))
    (.append _ (k'.statements.ends hdigit)) hcut
  obtain ⟨hxy, hfirst⟩ := Column.eq_of_append hdigit hx hy hcut
  cases k
  cases k'
  cases hfirst
  cases hsecond
  cases hthird
  cases hrest
  exact ⟨hxy, rfl⟩

theorem Layout.eq_of_text {l l' : Layout digit} (h : l.text = l'.text) : l = l' := by
  obtain ⟨hhead, hcolumns⟩ := Columns.eq_of_append hdigit (.append _ l.name_ends) (.append _ l'.name_ends) h
  have hl := span_append l.margin_blank l.name_starts.head
  have hl' := span_append l'.margin_blank l'.name_starts.head
  rw [hhead] at hl
  have hmargin : l.margin = l'.margin := hl.1.symm.trans hl'.1
  have hname : l.name = l'.name := hl.2.symm.trans hl'.2
  cases l
  cases l'
  cases hcolumns
  cases hmargin
  cases hname
  rfl

end Unique

theorem count?_eq_some_iff {digits : List Char} {n : UInt32} :
    count? digits = some n ↔ digits ≠ [] ∧ (∀ c ∈ digits, c.isDigit = true) ∧ Denotes digits n := by
  simp only [count?, Option.map_eq_some_iff, Option.filter_eq_some_iff, Decimal.nat?_eq_some_iff,
    decide_eq_true_eq]
  constructor
  · rintro ⟨k, ⟨⟨hne, hall, rfl⟩, hk⟩, rfl⟩
    exact ⟨hne, hall, (UInt32.toNat_ofNat_of_lt' hk).symm⟩
  · rintro ⟨hne, hall, h⟩
    refine ⟨_, ⟨⟨hne, hall, rfl⟩, ?_⟩, ?_⟩
    · rw [h]
      exact n.toNat_lt
    · rw [h]
      exact UInt32.ofNat_toNat

/-- The last column is cut off a line, which is given in reverse, if something else stands before it. -/
theorem lastColumn?_append (c : Column Char.isDigit) {before : List Char} (hbefore : StartsSolid before) :
    lastColumn? (c.text.reverse ++ before) = some (c.digits, before) := by
  have hdigits : ∀ d ∈ c.digits.reverse, d.isDigit = true := fun d hd =>
    c.digits_digit d (List.mem_reverse.1 hd)
  have hgap : ∀ d ∈ c.gap.reverse, isBlank d = true := fun d hd => c.gap_blank d (List.mem_reverse.1 hd)
  have hhead : ∀ d ∈ (c.gap.reverse ++ before).head?, d.isDigit = false := by
    intro d hd
    rw [List.head?_append_of_ne_nil _ (by simpa using c.gap_ne_nil)] at hd
    exact IsDigitClass.ascii.not_digit (hgap d (List.mem_of_head? hd))
  obtain ⟨hrun, hleft⟩ := span_append hdigits hhead
  have hbefore' := (span_append hgap hbefore.head).2
  simp only [lastColumn?, Column.text, List.reverse_append, List.append_assoc, hrun, hleft, hbefore']
  rw [if_neg, List.reverse_reverse]
  simp [c.digits_ne_nil, c.gap_ne_nil, hbefore.ne_nil]

theorem exists_column_of_lastColumn? {line digits before : List Char}
    (h : lastColumn? line = some (digits, before)) :
    ∃ c : Column Char.isDigit, StartsSolid before ∧ line = c.text.reverse ++ before := by
  let run := line.takeWhile Char.isDigit
  let left := line.dropWhile Char.isDigit
  let gap := left.takeWhile isBlank
  have hline : run ++ left = line := List.takeWhile_append_dropWhile
  have hleft : gap ++ left.dropWhile isBlank = left := List.takeWhile_append_dropWhile
  simp only [lastColumn?] at h
  split at h
  · cases h
  · rename_i hcut
    cases h
    simp only [Bool.or_eq_true, List.isEmpty_iff, decide_eq_true_eq, not_or] at hcut
    obtain ⟨⟨hdigits, hbefore⟩, hlength⟩ := hcut
    have hgap : gap ≠ [] := by
      intro hnil
      rw [hnil, List.nil_append] at hleft
      exact hlength (congrArg List.length hleft)
    let c : Column Char.isDigit :=
      { gap := gap.reverse
        digits := run.reverse
        gap_ne_nil := by simpa using hgap
        gap_blank := fun d hd => List.mem_takeWhile_imp (List.mem_reverse.1 hd)
        digits_ne_nil := fun hnil => hdigits (List.reverse_eq_nil_iff.1 hnil)
        digits_digit := fun d hd => List.mem_takeWhile_imp (List.mem_reverse.1 hd) }
    have htext : c.text.reverse = run ++ gap := by simp [c, Column.text]
    refine ⟨c, ⟨_, List.head?_eq_some_head hbefore, List.head_dropWhile_not isBlank hbefore⟩, ?_⟩
    rw [htext, List.append_assoc, hleft, hline]

/-- What is made of the pieces of a line: the name is trimmed, and the columns have to denote counts. -/
def read? (head statements missed percent : List Char) : Option (String × SummaryLine) :=
  let name := String.ofList (trim head)
  if name = "TOTAL" then none
  else do return (name, ⟨← count? statements, ← count? missed, ← count? percent⟩)

theorem row?_append_columns {head : List Char} (hhead : EndsSolid head) (k : Columns Char.isDigit) :
    row? (head ++ k.text) = read? head k.statements.digits k.missed.digits k.percent.digits := by
  let first := k.statements.text.reverse ++ head.reverse
  let second := k.missed.text.reverse ++ first
  let third := k.percent.text.reverse ++ second
  have hsolid (c : Column Char.isDigit) (before : List Char) : StartsSolid (c.text.reverse ++ before) := by
    rw [← List.reverse_reverse before, ← List.reverse_append, StartsSolid.reverse_iff]
    exact .append _ (c.ends .ascii)
  have hfirst : lastColumn? first = some (k.statements.digits, head.reverse) :=
    lastColumn?_append _ (StartsSolid.reverse_iff.2 hhead)
  have hsecond : lastColumn? second = some (k.missed.digits, first) := lastColumn?_append _ (hsolid _ _)
  have hthird : lastColumn? third = some (k.percent.digits, second) := lastColumn?_append _ (hsolid _ _)
  have hrest : ∀ c ∈ k.rest.reverse, isBlank c = true := fun c hc => k.rest_blank c (List.mem_reverse.1 hc)
  have hline : (head ++ k.text).reverse.dropWhile isBlank = '%' :: third := by
    have hreverse : (head ++ k.text).reverse = k.rest.reverse ++ '%' :: third := by
      simp [Columns.text, third, second, first]
    rw [hreverse]
    exact (span_append hrest (by simp [show isBlank '%' = false from rfl])).2
  simp only [row?, hline, hfirst, hsecond, hthird, Option.bind_eq_bind, Option.bind_some, List.reverse_reverse]
  rfl

theorem exists_columns_of_row? {line : List Char} {row : String × SummaryLine} (h : row? line = some row) :
    ∃ (head : List Char) (k : Columns Char.isDigit), EndsSolid head ∧ line = head ++ k.text := by
  have hline : line.reverse.takeWhile isBlank ++ line.reverse.dropWhile isBlank = line.reverse :=
    List.takeWhile_append_dropWhile
  unfold row? at h
  split at h
  · rename_i columns hcolumns
    obtain ⟨⟨percent, third⟩, hthird, h⟩ := Option.bind_eq_some_iff.1 h
    obtain ⟨⟨missed, second⟩, hsecond, h⟩ := Option.bind_eq_some_iff.1 h
    obtain ⟨⟨statements, first⟩, hfirst, -⟩ := Option.bind_eq_some_iff.1 h
    obtain ⟨c, -, rfl⟩ := exists_column_of_lastColumn? hthird
    obtain ⟨d, -, rfl⟩ := exists_column_of_lastColumn? hsecond
    obtain ⟨e, hhead, rfl⟩ := exists_column_of_lastColumn? hfirst
    let k : Columns Char.isDigit :=
      ⟨e, d, c, (line.reverse.takeWhile isBlank).reverse,
        fun x hx => List.mem_takeWhile_imp (List.mem_reverse.1 hx)⟩
    refine ⟨first.reverse, k, ?_, ?_⟩
    · rwa [← StartsSolid.reverse_iff, List.reverse_reverse]
    · rw [hcolumns] at hline
      rw [← List.reverse_inj, ← hline]
      simp [k, Columns.text]
  · cases h

theorem row?_eq_some_iff {line : List Char} {row : String × SummaryLine} :
    row? line = some row ↔ ∃ (head : List Char) (k : Columns Char.isDigit), EndsSolid head ∧
      line = head ++ k.text ∧ read? head k.statements.digits k.missed.digits k.percent.digits = some row := by
  constructor
  · intro h
    obtain ⟨head, k, hhead, rfl⟩ := exists_columns_of_row? h
    exact ⟨head, k, hhead, rfl, by rw [← row?_append_columns hhead, h]⟩
  · rintro ⟨head, k, hhead, rfl, h⟩
    rw [row?_append_columns hhead, h]

theorem read?_eq_some_iff {head statements missed percent : List Char} {name : String} {numbers : SummaryLine} :
    read? head statements missed percent = some (name, numbers) ↔ name ≠ "TOTAL" ∧
      String.ofList (trim head) = name ∧ count? statements = some numbers.statements ∧
        count? missed = some numbers.missed ∧ count? percent = some numbers.percent := by
  unfold read?
  by_cases htotal : String.ofList (trim head) = "TOTAL"
  · rw [if_pos htotal]
    constructor
    · nofun
    · rintro ⟨hname, rfl, -⟩
      exact absurd htotal hname
  · rw [if_neg htotal]
    simp only [Option.bind_eq_bind, Option.bind_eq_some_iff, Option.pure_def, Option.some.injEq, Prod.mk.injEq]
    constructor
    · rintro ⟨statements, hstatements, missed, hmissed, percent, hpercent, rfl, rfl⟩
      exact ⟨htotal, rfl, hstatements, hmissed, hpercent⟩
    · rintro ⟨-, rfl, hstatements, hmissed, hpercent⟩
      exact ⟨_, hstatements, _, hmissed, _, hpercent, rfl, rfl⟩

theorem row?_eq_some_iff_isRow {line : List Char} {name : String} {numbers : SummaryLine} :
    row? line = some (name, numbers) ↔ IsRow line name numbers := by
  simp only [row?_eq_some_iff, read?_eq_some_iff, count?_eq_some_iff, IsRow]
  constructor
  · rintro ⟨head, k, hhead, rfl, hname, rfl, hstatements, hmissed, hpercent⟩
    obtain ⟨margin, name, rfl, hmargin, hstarts, hends⟩ := exists_margin hhead
    let l : Layout Char.isDigit :=
      { k with margin, name, margin_blank := hmargin, name_starts := hstarts, name_ends := hends }
    refine ⟨hname, l, rfl, ?_, hstatements.2.2, hmissed.2.2, hpercent.2.2⟩
    rw [trim_margin hmargin hstarts hends]
  · rintro ⟨hname, l, rfl, rfl, hstatements, hmissed, hpercent⟩
    have hcolumn (c : Column Char.isDigit) : c.digits ≠ [] ∧ ∀ d ∈ c.digits, d.isDigit = true :=
      ⟨c.digits_ne_nil, c.digits_digit⟩
    refine ⟨l.margin ++ l.name, l.toColumns, .append _ l.name_ends, rfl, hname, ?_,
      ⟨(hcolumn _).1, (hcolumn _).2, hstatements⟩, ⟨(hcolumn _).1, (hcolumn _).2, hmissed⟩,
      ⟨(hcolumn _).1, (hcolumn _).2, hpercent⟩⟩
    rw [trim_margin l.margin_blank l.name_starts l.name_ends]

def columnPattern (digit : Char → Bool) : Pattern :=
  .oneOrMore isBlank ++ .group (.oneOrMore digit)

def columnsPattern (digit : Char → Bool) : Pattern :=
  columnPattern digit ++ columnPattern digit ++ columnPattern digit ++ .one (· = '%') ++ .many isBlank

/-- The pattern of what stands before the columns: anything on the line that does not end with white space. -/
def headPattern : Pattern :=
  .group (.many (· ≠ '\n') ++ .one (!isBlank ·))

def pattern (digit : Char → Bool) : Pattern :=
  headPattern ++ columnsPattern digit

def matchedRow? (digit : Char → Bool) (line : List Char) : Option (String × SummaryLine) :=
  match (pattern digit).captures? line with
  | some [head, statements, missed, percent] => read? head statements missed percent
  | _ => none

theorem matches_columnPattern_iff {s : List Char} {groups : List (List Char)} :
    (columnPattern digit).Matches s groups ↔ ∃ c : Column digit, s = c.text ∧ groups = [c.digits] := by
  simp only [columnPattern, Pattern.matches_append_iff, Pattern.matches_oneOrMore_iff,
    Pattern.matches_group_iff]
  constructor
  · rintro ⟨gap, digits, _, _, ⟨hgap, hblank, rfl⟩, ⟨_, ⟨hdigits, hall, rfl⟩, rfl⟩, rfl, rfl⟩
    exact ⟨⟨gap, digits, hgap, hblank, hdigits, hall⟩, rfl, rfl⟩
  · rintro ⟨c, rfl, rfl⟩
    exact ⟨c.gap, c.digits, [], [c.digits], ⟨c.gap_ne_nil, c.gap_blank, rfl⟩,
      ⟨[], ⟨c.digits_ne_nil, c.digits_digit, rfl⟩, rfl⟩, rfl, rfl⟩

theorem matches_columnsPattern_iff {s : List Char} {groups : List (List Char)} :
    (columnsPattern digit).Matches s groups ↔ ∃ k : Columns digit, s = k.text ∧
      groups = [k.statements.digits, k.missed.digits, k.percent.digits] := by
  constructor
  · intro h
    simp only [columnsPattern, Pattern.matches_append_iff, Pattern.matches_many_iff, Pattern.matches_one_iff,
      matches_columnPattern_iff, decide_eq_true_eq] at h
    obtain ⟨_, rest, _, _, h, ⟨hrest, rfl⟩, rfl, rfl⟩ := h
    obtain ⟨_, _, _, _, h, ⟨_, rfl, rfl, rfl⟩, rfl, rfl⟩ := h
    obtain ⟨_, _, _, _, h, ⟨percent, rfl, rfl⟩, rfl, rfl⟩ := h
    obtain ⟨_, _, _, _, ⟨statements, rfl, rfl⟩, ⟨missed, rfl, rfl⟩, rfl, rfl⟩ := h
    exact ⟨⟨statements, missed, percent, rest, hrest⟩, rfl, rfl⟩
  · rintro ⟨k, rfl, rfl⟩
    have hcolumn (c : Column digit) : (columnPattern digit).Matches c.text [c.digits] :=
      matches_columnPattern_iff.2 ⟨c, rfl, rfl⟩
    have hpercent : (Pattern.one (· = '%')).Matches ['%'] [] := .one rfl
    exact .both (.both (.both (.both (hcolumn k.statements) (hcolumn k.missed)) (hcolumn k.percent)) hpercent)
      (.many k.rest_blank)

theorem matches_headPattern_iff {s : List Char} {groups : List (List Char)} :
    headPattern.Matches s groups ↔ '\n' ∉ s ∧ EndsSolid s ∧ groups = [s] := by
  simp only [headPattern, Pattern.matches_group_iff, Pattern.matches_append_iff, Pattern.matches_many_iff,
    Pattern.matches_one_iff, decide_eq_true_eq, Bool.not_eq_true']
  constructor
  · rintro ⟨_, ⟨run, _, _, _, ⟨hrun, rfl⟩, ⟨c, hc, rfl, rfl⟩, rfl, rfl⟩, rfl⟩
    have hne : '\n' ≠ c := by
      rintro rfl
      cases hc
    refine ⟨?_, ⟨c, by simp, hc⟩, rfl⟩
    simpa [hne] using fun hmem => hrun _ hmem rfl
  · rintro ⟨hline, ⟨c, hc, hsolid⟩, rfl⟩
    obtain ⟨run, rfl⟩ := List.getLast?_eq_some_iff.1 hc
    refine ⟨[], ⟨run, [c], [], [], ⟨?_, rfl⟩, ⟨c, hsolid, rfl, rfl⟩, rfl, rfl⟩, rfl⟩
    rintro x hx rfl
    exact hline (by simp [hx])

theorem matches_pattern_iff {line : List Char} {groups : List (List Char)} :
    (pattern digit).Matches line groups ↔ ∃ (head : List Char) (k : Columns digit), '\n' ∉ head ∧
      EndsSolid head ∧ line = head ++ k.text ∧
      groups = [head, k.statements.digits, k.missed.digits, k.percent.digits] := by
  simp only [pattern, Pattern.matches_append_iff, matches_headPattern_iff, matches_columnsPattern_iff]
  constructor
  · rintro ⟨head, _, _, _, ⟨hline, hhead, rfl⟩, ⟨k, rfl, rfl⟩, rfl, rfl⟩
    exact ⟨head, k, hline, hhead, rfl, rfl⟩
  · rintro ⟨head, k, hline, hhead, rfl, rfl⟩
    exact ⟨head, k.text, [head], _, ⟨hline, hhead, rfl⟩, ⟨k, rfl, rfl⟩, rfl, rfl⟩

theorem matchedRow?_eq_some_iff (hdigit : IsDigitClass digit) {line : List Char} (hline : '\n' ∉ line)
    {row : String × SummaryLine} :
    matchedRow? digit line = some row ↔ ∃ (head : List Char) (k : Columns digit), EndsSolid head ∧
      line = head ++ k.text ∧ read? head k.statements.digits k.missed.digits k.percent.digits = some row := by
  have hunique (groups groups' : List (List Char)) (h : (pattern digit).Matches line groups)
      (h' : (pattern digit).Matches line groups') : groups = groups' := by
    obtain ⟨head, k, -, hhead, rfl, rfl⟩ := matches_pattern_iff.1 h
    obtain ⟨head', k', -, hhead', htext, rfl⟩ := matches_pattern_iff.1 h'
    obtain ⟨rfl, rfl⟩ := Columns.eq_of_append hdigit hhead hhead' htext
    rfl
  constructor
  · intro h
    unfold matchedRow? at h
    split at h
    · rename_i head statements missed percent hfound
      obtain ⟨head, k, -, hhead, htext, hgroups⟩ := matches_pattern_iff.1 (Pattern.matches_of_captures? hfound)
      cases hgroups
      exact ⟨head, k, hhead, htext, h⟩
    · cases h
  · rintro ⟨head, k, hhead, rfl, h⟩
    have hfound := (Pattern.captures?_eq_some_iff hunique).2 (matches_pattern_iff.2
      ⟨head, k, fun hmem => hline (List.mem_append_left _ hmem), hhead, rfl, rfl⟩)
    simp only [matchedRow?, hfound, h]

def Column.recast {digit' : Char → Bool} (c : Column digit) (h : ∀ d ∈ c.digits, digit' d = true) :
    Column digit' :=
  { c with digits_digit := h }

/-- The pattern takes the same lines as rows, and for the same, whatever scripts its class of digits has. -/
theorem matchedRow?_eq_row? (hdigit : IsDigitClass digit) {line : List Char} (hline : '\n' ∉ line) :
    matchedRow? digit line = row? line := by
  refine Option.ext fun row => ?_
  rw [matchedRow?_eq_some_iff hdigit hline, row?_eq_some_iff]
  constructor
  · rintro ⟨head, k, hhead, rfl, h⟩
    obtain ⟨-, -, hstatements, hmissed, hpercent⟩ := read?_eq_some_iff.1 h
    rw [count?_eq_some_iff] at hstatements hmissed hpercent
    exact ⟨head, ⟨k.statements.recast hstatements.2.1, k.missed.recast hmissed.2.1,
      k.percent.recast hpercent.2.1, k.rest, k.rest_blank⟩, hhead, rfl, h⟩
  · rintro ⟨head, k, hhead, rfl, h⟩
    have hascii (c : Column Char.isDigit) : ∀ d ∈ c.digits, digit d = true := fun d hd =>
      hdigit.of_isDigit (c.digits_digit d hd)
    exact ⟨head, ⟨k.statements.recast (hascii _), k.missed.recast (hascii _), k.percent.recast (hascii _),
      k.rest, k.rest_blank⟩, hhead, rfl, h⟩

theorem filterMap_charLines_of_not_mem {line : List Char} (h : '\n' ∉ line) :
    (charLines line).filterMap row? = (row? line).toList := by
  rw [charLines_of_not_mem h]
  cases line with
  | nil => rfl
  | cons c line => cases hrow : row? (c :: line) <;> simp [hrow]

theorem parse_line {line : List Char} (h : '\n' ∉ line) : parse (String.ofList line) = (row? line).toList := by
  rw [parse, String.toList_ofList, filterMap_charLines_of_not_mem h]
  cases row? line <;> rfl

/-- The lines that are taken as rows, and for which names and numbers: those with the layout of a row, of which a
line has one at the most. A pattern that is tried greedily from the left finds the same. -/
theorem row_grammar {line : List Char} (hline : '\n' ∉ line) :
    (∀ name numbers, parse (String.ofList line) = [(name, numbers)] ↔ IsRow line name numbers) ∧
    ((∀ name numbers, ¬ IsRow line name numbers) → parse (String.ofList line) = []) ∧
    (∀ l l' : Layout Char.isDigit, l.text = line → l'.text = line → l = l') ∧
    ∀ digit : Char → Bool, IsDigitClass digit →
      parse (String.ofList line) = (matchedRow? digit line).toList := by
  rw [parse_line hline]
  refine ⟨fun name numbers => ?_, fun h => ?_, fun l l' hl hl' => ?_, fun digit hdigit => ?_⟩
  · rw [← row?_eq_some_iff_isRow]
    cases row? line <;> simp
  · cases hrow : row? line with
    | none => rfl
    | some row => exact absurd (row?_eq_some_iff_isRow.1 hrow) (h row.1 row.2)
  · exact Layout.eq_of_text .ascii (hl.trans hl'.symm)
  · rw [matchedRow?_eq_row? hdigit hline]

def arabicIndic (c : Char) : Bool :=
  c.isDigit || decide (0x660 ≤ c.toNat ∧ c.toNat ≤ 0x669)

theorem isDigitClass_arabicIndic : IsDigitClass arabicIndic where
  of_isDigit h := by simp [arabicIndic, h]
  not_blank {c} h := by
    rw [arabicIndic, Bool.or_eq_true, decide_eq_true_eq] at h
    rcases h with h | h
    · exact isBlank_of_isDigit h
    · simp [isBlank, Interval.covers, Blank.codePoints]
      omega

/-- The name looks like columns, and there is a space that does not break between two others. -/
theorem row_grammar_columnsInName :
    let line := " 7 10 2 33% ٣\t007 \u00A0 1\r66% ".toList
    '\n' ∉ line ∧ IsRow line "7 10 2 33% ٣" ⟨7, 1, 66⟩ ∧ IsDigitClass arabicIndic ∧
      (matchedRow? arabicIndic line).toList = [("7 10 2 33% ٣", ⟨7, 1, 66⟩)] := by
  intro line
  have hline : '\n' ∉ line := by decide
  have hparse : parse (String.ofList line) = [("7 10 2 33% ٣", ⟨7, 1, 66⟩)] := by decide +kernel
  have h := row_grammar hline
  exact ⟨hline, (h.1 _ _).1 hparse, isDigitClass_arabicIndic,
    (h.2.2.2 _ isDigitClass_arabicIndic).symm.trans hparse⟩

/-- A column of other digits denotes no count. -/
example : row? "f 1 ٣ 66%".toList = none := by decide +kernel

end Summary

end Concolic
