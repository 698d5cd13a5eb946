import Concolic.Proofs.Naming
import Concolic.Proofs.SummaryGrammar

/-!
# Printed summaries read back

A table is printed line by line, with any white space between the columns and either ending of a line. Its rows are
read back among whatever other lines there are, because the white space at the end of a line says nothing of the
row on it.
-/

namespace Concolic

namespace Summary

/-- The white space of a row. -/
structure Spacing where
  margin : List Char
  first : List Char
  second : List Char
  third : List Char
  rest : List Char
  blank : ∀ piece ∈ [margin, first, second, third, rest], ∀ c ∈ piece, isBlank c = true ∧ c ≠ '\n'
  apart : first ≠ [] ∧ second ≠ [] ∧ third ≠ []

/-- A name that can be read back from a row. -/
structure IsFileName (name : String) : Prop where
  starts : StartsSolid name.toList
  ends : EndsSolid name.toList
  one_line : '\n' ∉ name.toList
  ne_total : name ≠ "TOTAL"

inductive LineEnd
  | lineFeed
  | carriageReturn
  deriving DecidableEq, Repr

/-- A line of a printed table: a row, or anything that is none. -/
inductive TableLine
  | row (spacing : Spacing) (name : String) (numbers : SummaryLine) (h : IsFileName name)
  | other (line : List Char) (hline : '\n' ∉ line) (h : ∀ name numbers, ¬ IsRow line name numbers)

def LineEnd.text : LineEnd → List Char
  | lineFeed => ['\n']
  | carriageReturn => ['\r', '\n']

def Spacing.row (sp : Spacing) (name : String) (numbers : SummaryLine) : List Char :=
  sp.margin ++ name.toList ++ sp.first ++ (toString numbers.statements.toNat).toList ++
    sp.second ++ (toString numbers.missed.toNat).toList ++
    sp.third ++ (toString numbers.percent.toNat).toList ++ ['%'] ++ sp.rest

namespace TableLine

def text : TableLine → List Char
  | row spacing name numbers _ => spacing.row name numbers
  | other line _ _ => line

/-- What there is to be read of a line. -/
def row? : TableLine → Option (String × SummaryLine)
  | row _ name numbers _ => some (name, numbers)
  | other _ _ _ => none

end TableLine

/-- The text of a table. The last line may have no ending. -/
def tableText (lines : List (TableLine × LineEnd)) (last : Option TableLine) : List Char :=
  lines.flatMap (fun l => l.1.text ++ l.2.text) ++ (last.map TableLine.text).getD []

def Column.ofNumber (gap : List Char) (hne : gap ≠ []) (hgap : ∀ c ∈ gap, isBlank c = true) (n : UInt32) :
    Column Char.isDigit where
  gap := gap
  digits := (toString n.toNat).toList
  gap_ne_nil := hne
  gap_blank := hgap
  digits_ne_nil := by
    rw [Nat.toString_eq_repr, Nat.toList_repr]
    exact Nat.toDigits_ne_nil
  digits_digit := by
    rw [Nat.toString_eq_repr, Nat.toList_repr]
    exact Decimal.isDigit_of_mem_toDigits

theorem denotes_toString (n : UInt32) : Denotes (toString n.toNat).toList n := by
  rw [Denotes, Nat.toString_eq_repr, Nat.toList_repr]
  exact Nat.ofDigitChars_ten_toDigits

namespace Spacing

variable (sp : Spacing)

def layout {name : String} (h : IsFileName name) (numbers : SummaryLine) : Layout Char.isDigit where
  margin := sp.margin
  name := name.toList
  statements := .ofNumber sp.first sp.apart.1 (fun c hc => (sp.blank sp.first (by simp) c hc).1) numbers.statements
  missed := .ofNumber sp.second sp.apart.2.1 (fun c hc => (sp.blank sp.second (by simp) c hc).1) numbers.missed
  percent := .ofNumber sp.third sp.apart.2.2 (fun c hc => (sp.blank sp.third (by simp) c hc).1) numbers.percent
  rest := sp.rest
  margin_blank c hc := (sp.blank sp.margin (by simp) c hc).1
  rest_blank c hc := (sp.blank sp.rest (by simp) c hc).1
  name_starts := h.starts
  name_ends := h.ends

theorem isRow_row {name : String} (h : IsFileName name) (numbers : SummaryLine) :
    IsRow (sp.row name numbers) name numbers := by
  refine ⟨h.ne_total, sp.layout h numbers, ?_, String.ofList_toList, denotes_toString _, denotes_toString _,
    denotes_toString _⟩
  simp [Layout.text, Columns.text, Column.text, layout, Column.ofNumber, row]

theorem not_mem_row {name : String} (h : IsFileName name) (numbers : SummaryLine) :
    '\n' ∉ sp.row name numbers := by
  have hpiece (piece : List Char) (hpiece : piece ∈ [sp.margin, sp.first, sp.second, sp.third, sp.rest]) :
      '\n' ∉ piece := fun hmem => (sp.blank piece hpiece _ hmem).2 rfl
  have hdigits (n : Nat) : '\n' ∉ Nat.toDigits 10 n := by
    intro hmem
    cases Decimal.isDigit_of_mem_toDigits _ hmem
  simp [row, hpiece, hdigits, h.one_line]

end Spacing

namespace TableLine

theorem not_mem_text (l : TableLine) : '\n' ∉ l.text := by
  cases l with
  | row spacing name numbers h => exact spacing.not_mem_row h numbers
  | other line hline h => exact hline

/-- A line is read as what it was printed for. -/
theorem row?_text (l : TableLine) : Summary.row? l.text = l.row? := by
  cases l with
  | row spacing name numbers h => exact row?_eq_some_iff_isRow.2 (spacing.isRow_row h numbers)
  | other line hline h =>
    refine Option.eq_none_iff_forall_ne_some.2 fun row hrow => ?_
    exact h row.1 row.2 (row?_eq_some_iff_isRow.1 hrow)

end TableLine

theorem row?_append_blank (line : List Char) {c : Char} (h : isBlank c = true) :
    row? (line ++ [c]) = row? line := by
  have hreverse : (line ++ [c]).reverse.dropWhile isBlank = line.reverse.dropWhile isBlank := by
    rw [List.reverse_append, List.reverse_singleton, List.singleton_append, List.dropWhile_cons_of_pos h]
  simp only [row?, hreverse]

/-- A carriage return makes no difference to a row, whether it is part of the line or of its ending. -/
theorem row?_close (line : List Char) : row? (Lines.close line) = row? line.reverse := by
  unfold Lines.close
  split
  · rw [List.reverse_cons, row?_append_blank _ (by decide)]
  · rfl

theorem filterMap_charLines {line : List Char} (h : '\n' ∉ line) (ending : LineEnd) (text : List Char) :
    (charLines (line ++ ending.text ++ text)).filterMap row? =
      (row? line).toList ++ (charLines text).filterMap row? := by
  have hcons (s : List Char) (hs : '\n' ∉ s) (hrow : row? s = row? line) :
      (charLines (s ++ '\n' :: text)).filterMap row? =
        (row? line).toList ++ (charLines text).filterMap row? := by
    rw [charLines_append hs, List.filterMap_cons, row?_close, List.reverse_reverse, hrow]
    cases row? line <;> rfl
  cases ending with
  | lineFeed =>
    rw [LineEnd.text, List.append_assoc]
    exact hcons line h rfl
  | carriageReturn =>
    have hsplit : line ++ LineEnd.carriageReturn.text ++ text = (line ++ ['\r']) ++ '\n' :: text := by
      simp [LineEnd.text]
    rw [hsplit]
    exact hcons _ (by simp [h]) (row?_append_blank line (by decide))

def rows (summary : String) : List (String × SummaryLine) :=
  (charLines summary.toList).filterMap row?

theorem parse_eq (summary : String) : parse summary = Keyed.ofEntries (rows summary) := rfl

theorem rows_tableText (lines : List (TableLine × LineEnd)) (last : Option TableLine) :
    rows (String.ofList (tableText lines last)) =
      (lines.map Prod.fst ++ last.toList).filterMap TableLine.row? := by
  rw [rows, String.toList_ofList]
  induction lines with
  | nil =>
    cases last with
    | none => rfl
    | some l =>
      have htext : tableText [] (some l) = l.text := rfl
      rw [htext, filterMap_charLines_of_not_mem l.not_mem_text, l.row?_text]
      cases hrow : l.row? <;> simp [hrow]
  | cons l lines ih =>
    have htext : tableText (l :: lines) last = l.1.text ++ l.2.text ++ tableText lines last := by
      simp [tableText]
    rw [htext, filterMap_charLines l.1.not_mem_text, ih, l.1.row?_text, List.map_cons, List.cons_append,
      List.filterMap_cons]
    cases l.1.row? <;> rfl

/-- A printed table is read back: the names of its rows come in the order in which they first came, and each has
the numbers of its last row. -/
theorem parse_tableText (lines : List (TableLine × LineEnd)) (last : Option TableLine) :
    let printed := (lines.map Prod.fst ++ last.toList).filterMap TableLine.row?
    let read := parse (String.ofList (tableText lines last))
    read.map Prod.fst = (printed.map Prod.fst).eraseDups ∧
      ∀ name, read.lookup name = printed.reverse.lookup name := by
  intro printed read
  have hread : read = Keyed.ofEntries printed := by simp only [read, printed, parse_eq, rows_tableText]
  rw [hread]
  exact ⟨Keyed.keys_ofEntries printed, Keyed.lookup_ofEntries printed⟩

/-- White space of several kinds between the columns, and some after them. -/
def uneven : Spacing where
  margin := []
  first := [' ', ' ']
  second := ['\t']
  third := [' ', '\t']
  rest := [' ']
  blank := by
    have hspace : isBlank ' ' = true := by decide
    have htab : isBlank '\t' = true := by decide
    simp [hspace, htab]
  apart := by decide

theorem isFileName_blankInside : IsFileName "my file" where
  starts := ⟨'m', rfl, by decide⟩
  ends := ⟨'e', rfl, by decide⟩
  one_line := by decide
  ne_total := by decide

def TableLine.ofUnread (line : List Char) (hline : '\n' ∉ line) (h : Summary.row? line = none) : TableLine :=
  .other line hline fun name numbers hrow => by
    rw [row?_eq_some_iff_isRow.2 hrow] at h
    cases h

/-- A header, a file with a blank in its name, and the totals. -/
def smallTable : List (TableLine × LineEnd) :=
  [(.ofUnread "Name  Stmts  Miss  Cover".toList (by decide) (by decide), .carriageReturn),
    (.row uneven "my file" ⟨3, 1, 66⟩ isFileName_blankInside, .carriageReturn),
    (.ofUnread "TOTAL  3  1  66%".toList (by decide) (by decide), .lineFeed)]

/-- The file is printed once more on the last line, which has no ending. -/
theorem parse_tableText_smallTable :
    let text := "Name  Stmts  Miss  Cover\r\nmy file  3\t1 \t66% \r\nTOTAL  3  1  66%\nmy file  3\t2 \t33% "
    let last := TableLine.row uneven "my file" ⟨3, 2, 33⟩ isFileName_blankInside
    String.ofList (tableText smallTable (some last)) = text ∧ (parse text).map Prod.fst = ["my file"] ∧
      (parse text).lookup "my file" = some ⟨3, 2, 33⟩ := by
  intro text last
  have htext : String.ofList (tableText smallTable (some last)) = text := by decide +kernel
  obtain ⟨hnames, hlookup⟩ := parse_tableText smallTable (some last)
  rw [htext] at hnames hlookup
  exact ⟨htext, hnames, hlookup "my file"⟩

end Summary

end Concolic
