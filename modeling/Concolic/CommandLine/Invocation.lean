import Concolic.Batch
import Concolic.CommandLine.Printout
import Concolic.CommandLine.Task
import Concolic.Test.Exploration

/-!
# Invocations

One run of a harness as its arguments ask. Exploring leaves the collector alone, and replaying leaves the
engine alone; a replay prints its report.
-/

namespace Concolic

/-- What a harness is made of, and how it opens files. -/
structure Harness (ι ε κ : Type) where
  test : Test ι
  engine : Engine ε
  collector : Collector κ
  openFile : String → Except String Feed

inductive Conclusion
  | explored
  | replayed (report : BatchReport) (coverage : Option CoverageReport)
  | failed (e : Failure)
  /-- A panic that nothing caught. -/
  | escaped (p : Panic)

/-- What an invocation gives: its conclusion, the states of the engine and the collector after it, its
record, and what it printed. -/
structure Invocation (ε κ : Type) where
  conclusion : Conclusion
  engine : ε
  collector : Option κ
  trace : Trace
  printed : String

namespace Harness

variable {ι ε κ : Type} (h : Harness ι ε κ)

def loadConfig : Option String → Except Failure HarnessConfig
  | none => .ok .standard
  | some path =>
    let loaded := do
      let feed ← (h.openFile path).mapError Fault.io
      let octets ← feed.readAll.mapError Fault.io
      match Utf8.decode? octets with
      | none => .error (.io "stream did not contain valid UTF-8")
      | some text => HarnessConfig.parse text
    loaded.mapError fun f => (Failure.ofFault f).within s!"loading config {path}"

def explore (config : HarnessConfig) (engine : ε) (collector : Option κ) : Invocation ε κ :=
  let outcome := Exploration.run h.engine h.test config.exploration.maxTimeSecs engine
  let conclusion := match outcome.value with
    | .completed => .explored
    | .failed f => .failed (.ofFault f.fault)
    | .escaped p => .escaped p
  ⟨conclusion, outcome.state, collector, outcome.trace, ""⟩

def plan (config : HarnessConfig) : BatchPlan ι κ :=
  ⟨h.test, config.replay, h.collector, config.coverage⟩

/-- Replays what a task asks for. Exploring is no replay. -/
def replayTask (config : HarnessConfig) : Task → Run (Batch κ) (Except Failure Unit)
  | .explore => return .ok ()
  | .replayAssignment overrides =>
    match Assignment.ofOverrides overrides with
    | .error f => return .error ((Failure.ofFault f).within "parsing assignment overrides")
    | .ok a => do
      let _ ← (h.plan config).replayAssignment a
      return .ok ()
  | .replayDefaults => do
    let _ ← (h.plan config).replayAssignment .empty
    return .ok ()
  | .replayFile path => do
    match ← (h.plan config).replayFile (h.openFile path) with
    | .error f => return .error ((Failure.ofFault f).within s!"opening test cases {path}")
    | .ok () => return .ok ()

/-- The coverage of a batch, if it is measured. A report that fails costs only the coverage. -/
def coverageOf (config : HarnessConfig) (measured : Bool) :
    Run (Batch κ) (Option CoverageReport) := do
  if measured then
    match ← (h.plan config).collect with
    | .ok r => return some r
    | .error f =>
      let reason := f.message
      Run.log (.plain .warn s!"Coverage report unavailable: {reason}")
      return none
  else return none

/-- Replays a task as one batch, from its first input to its report. -/
def batch (config : HarnessConfig) (task : Task) (measured : Bool) :
    Run (Batch κ) (Except Failure (BatchReport × Option CoverageReport)) := do
  match ← h.replayTask config task with
  | .error e =>
    let _ ← (h.plan config).finish
    return .error e
  | .ok () =>
    let coverage ← h.coverageOf config measured
    let report ← (h.plan config).finish
    return .ok (report, coverage)

def replay (config : HarnessConfig) (task : Task) (engine : ε) (collector : Option κ) :
    Invocation ε κ :=
  let measured := collector.isSome && config.replay.measureCoverage
  let outcome := h.batch config task measured (Batch.fresh collector)
  match outcome.value with
  | .error e => ⟨.failed e, engine, outcome.state.collector?, outcome.trace, ""⟩
  | .ok (report, coverage) =>
    ⟨.replayed report coverage, engine, outcome.state.collector?, outcome.trace,
      Printout.text report coverage⟩

def invoke (args : HarnessArgs) (engine : ε) (collector : Option κ) : Invocation ε κ :=
  match h.loadConfig args.config with
  | .error e => ⟨.failed e, engine, collector, [], ""⟩
  | .ok config =>
    match args.task with
    | .explore => h.explore config engine collector
    | task => h.replay config task engine collector

end Harness

end Concolic
