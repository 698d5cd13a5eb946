import Concolic.BatchReport
import Concolic.Coverage.Report
import Concolic.Stream.Sink

/-!
# Printed reports

The report of a batch as a person reads it.
-/

namespace Concolic

namespace Printout

/-- A failure: where it happened and with what, then its trace. -/
def failureLines (f : BatchFailure) : List String :=
  let index := f.index
  let kind := f.kind
  let assignment := toString f.assignment
  s!"  [{index}] {kind} with {assignment}" :: (textLines f.trace).map ("      " ++ ·)

def mismatchLine (m : Mismatch) : String :=
  let index := m.index
  let path := m.pathId
  let count := m.changedLines
  s!"  [{index}] output mismatch on path {path} ({count} line(s) differ)"

def coverageLine (file : String × FileAnalysis) : String :=
  let name := file.1
  let total := file.2.executable.size
  let reached := total - min file.2.missing.size total
  let missing := toString file.2.missing
  s!"  {name}: {reached}/{total} statements covered, missing {missing}"

def lines (report : BatchReport) (coverage : Option CoverageReport) : List String :=
  let replayed := report.replayed
  let succeeded := report.succeeded
  let failed := report.failures.length
  let differing := report.mismatches.length
  let runs := s!"Replayed {replayed} test case(s): {succeeded} succeeded, "
  let counts := runs ++ s!"{failed} failed, {differing} output mismatch(es)"
  let covered := match coverage with
    | some r => "Coverage:" :: r.files.map coverageLine
    | none => []
  counts :: report.failures.flatMap failureLines ++ report.mismatches.map mismatchLine ++ covered

def text (report : BatchReport) (coverage : Option CoverageReport) : String :=
  String.join ((lines report coverage).map (· ++ "\n"))

def write (report : BatchReport) (coverage : Option CoverageReport) (out : Sink) :
    Except String Unit × Sink :=
  out.writeText (text report coverage)

end Printout

end Concolic
