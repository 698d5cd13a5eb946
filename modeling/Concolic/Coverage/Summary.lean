import Concolic.Json.Decode
import Concolic.Keyed
import Concolic.Text.Blank
import Concolic.Text.Lines

/-!
# Coverage summaries

A summary is a printed table with a row for each file: its name, the number of its statements, the number
of those missed, and the percentage that was reached. Lines that are no rows are passed over, and so is the
row of totals.
-/

namespace Concolic

structure SummaryLine where
  statements : UInt32
  missed : UInt32
  percent : UInt32
  deriving DecidableEq, Repr

namespace SummaryLine

def toJson (line : SummaryLine) : Json :=
  .object
    [("statements", .natural line.statements.toNat), ("missed", .natural line.missed.toNat),
      ("percent", .natural line.percent.toNat)]

def ofJson? (j : Json) : Option SummaryLine := do
  match ← j.fullRecord? ["statements", "missed", "percent"] with
  | [statements, missed, percent] =>
    return ⟨← statements.uint32?, ← missed.uint32?, ← percent.uint32?⟩
  | _ => none

end SummaryLine

namespace Summary

/-- A column of a row is a 32-bit number in digits. -/
def count? (digits : List Char) : Option UInt32 :=
  ((Decimal.nat? digits).filter (· < UInt32.size)).map UInt32.ofNat

/-- Cuts the last column off a line, which is given and left in reverse: digits after white space after
something else. -/
def lastColumn? (line : List Char) : Option (List Char × List Char) :=
  let digits := line.takeWhile Char.isDigit
  let gap := line.dropWhile Char.isDigit
  let before := gap.dropWhile isBlank
  if digits.isEmpty || before.isEmpty || before.length = gap.length then none
  else some (digits.reverse, before)

def row? (line : List Char) : Option (String × SummaryLine) :=
  match line.reverse.dropWhile isBlank with
  | '%' :: columns => do
    let (percent, columns) ← lastColumn? columns
    let (missed, columns) ← lastColumn? columns
    let (statements, name) ← lastColumn? columns
    let name := String.ofList (trim name.reverse)
    if name = "TOTAL" then none
    else return (name, ⟨← count? statements, ← count? missed, ← count? percent⟩)
  | _ => none

/-- The rows of a summary. A name that comes again keeps its place and takes the later numbers. -/
def parse (text : String) : List (String × SummaryLine) :=
  ((charLines text.toList).filterMap row?).foldl (fun rows row => Keyed.put row.1 row.2 rows) []

end Summary

end Concolic
