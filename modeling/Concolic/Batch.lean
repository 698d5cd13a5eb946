import Concolic.BatchReport
import Concolic.Configuration
import Concolic.Coverage.Measurement
import Concolic.Stream.CaseFile
import Concolic.Test.Replay

/-!
# Batches

A sequence of replays of one test, with a common report and at most one measurement of coverage. The inputs
are numbered in the order in which they come, also those that cannot be decoded.
-/

namespace Concolic

structure BatchPlan (ι κ : Type) where
  test : Test ι
  config : ReplayConfig
  collector : Collector κ
  coverage : CoverageConfig

/-- Where the measurement of a batch stands. -/
inductive Measuring (κ : Type)
  /-- There is no collector. -/
  | impossible
  /-- The collector has not been called. -/
  | idle (s : κ)
  | started (m : Measurement κ)

structure Batch (κ : Type) where
  position : Nat
  report : BatchReport
  measuring : Measuring κ

namespace Batch

def fresh (collector : Option κ) : Batch κ :=
  ⟨0, .empty, match collector with
    | some s => .idle s
    | none => .impossible⟩

def collector? (b : Batch κ) : Option κ :=
  match b.measuring with
  | .impossible => none
  | .idle s => some s
  | .started m => some m.collector

end Batch

namespace BatchPlan

variable {ι κ : Type} (plan : BatchPlan ι κ)

/-- Starts the measurement, unless it has been started, there is no collector, or coverage is not
wanted. -/
def beginMeasurement : Run (Batch κ) Unit :=
  fun b =>
    match b.measuring with
    | .idle s =>
      if plan.config.measureCoverage then
        let started := Measurement.start plan.collector s
        ⟨(), { b with measuring := .started started.state }, started.trace⟩
      else Run.log (.plain .debug "Coverage measurement disabled by config") b
    | _ => ⟨(), b, []⟩

def nextPosition : Run (Batch κ) Nat := do
  let b ← Run.state
  Run.update fun b => { b with position := b.position + 1 }
  return b.position

def note (index : Nat) (run : Replay) (r : BatchReport) : BatchReport :=
  match run.failure with
  | none => { r with replayed := r.replayed + 1, succeeded := r.succeeded + 1 }
  | some f =>
    { r with
      replayed := r.replayed + 1
      failures := r.failures ++ [⟨index, f.kind, run.assignment, f.trace⟩] }

/-- Replays an assignment at the next position, which is given with the run. -/
def replayNext (a : Assignment) : Run (Batch κ) (Nat × Replay) := do
  plan.beginMeasurement
  let index ← nextPosition
  let (run, trace) := Replay.run plan.test a
  Run.record trace
  Run.update fun b => { b with report := note index run b.report }
  return (index, run)

def replayAssignment (a : Assignment) : Run (Batch κ) Replay := do
  let (_, run) ← plan.replayNext a
  return run

def replayAssignments (as : List Assignment) : Run (Batch κ) Unit :=
  as.forM fun a => do
    let _ ← plan.replayAssignment a

/-- Replays a test case, and compares its output if that is wanted. -/
def replayCase (c : TestCase) : Run (Batch κ) Replay := do
  let (index, run) ← plan.replayNext c.assignment
  if plan.config.compareOutput then
    match Mismatch.check index c.pathId c.output run.output with
    | none => pure ()
    | some m =>
      m.warnings.forM fun warning => Run.log (.plain .warn warning)
      Run.update fun b =>
        { b with report := { b.report with mismatches := b.report.mismatches ++ [m] } }
  return run

/-- Passes over an input that could not be decoded. -/
def skip (f : Fault) : Run (Batch κ) Unit := do
  let index ← nextPosition
  let reason := f.message
  Run.log (.plain .error s!"Skipping test case {index}: {reason}")
  Run.update fun b =>
    { b with report :=
      { b.report with failures := b.report.failures ++ [⟨index, f.kindName, .empty, reason⟩] } }

/-- Replays test cases in order, and passes over the items that are none. -/
def replayItems (items : List (Except Fault TestCase)) : Run (Batch κ) Unit := do
  plan.beginMeasurement
  items.forM fun item =>
    match item with
    | .ok c => do
      let _ ← plan.replayCase c
    | .error f => skip f

def replayFeed (feed : Feed) : Run (Batch κ) Unit := do
  let (items, events) := CaseReader.items feed
  plan.replayItems items
  Run.record (events.map .logged)

/-- Replays a test-case file, given as what opening it gave. -/
def replayFile (opened : Except String Feed) : Run (Batch κ) (Except Fault Unit) :=
  match opened with
  | .error reason => return .error (.io reason)
  | .ok feed => do
    plan.replayFeed feed
    return .ok ()

def collect : Run (Batch κ) (Except Fault CoverageReport) := do
  plan.beginMeasurement
  fun b =>
    match b.measuring with
    | .started m =>
      let outcome := (do
        Measurement.stop plan.collector
        Measurement.withCollector (plan.collector.reconcile plan.coverage)) m
      ⟨outcome.value, { b with measuring := .started outcome.state }, outcome.trace⟩
    | _ => ⟨.error .coverageUnavailable, b, []⟩

/-- Ends a batch: a measurement that is still running is stopped. -/
def finish : Run (Batch κ) BatchReport :=
  fun b =>
    match b.measuring with
    | .started m =>
      let outcome := Measurement.stop plan.collector m
      ⟨b.report, { b with measuring := .started outcome.state }, outcome.trace⟩
    | _ => ⟨b.report, b, []⟩

end BatchPlan

end Concolic
