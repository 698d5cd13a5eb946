import Concolic.Coverage.Report
import Concolic.Json.Printer
import Concolic.Json.Reader

/-!
# Configuration

What a harness can be told in a configuration file. Whatever the file leaves out has a standard value.
-/

namespace Concolic

structure ExplorationConfig where
  /-- The budget in seconds; 0 is no limit. -/
  maxTimeSecs : UInt32
  deriving DecidableEq, Repr

namespace ExplorationConfig

def standard : ExplorationConfig := ⟨0⟩

def toJson (config : ExplorationConfig) : Json :=
  .object [("max_time_secs", .natural config.maxTimeSecs.toNat)]

def ofJson? (j : Json) : Option ExplorationConfig := do
  match ← j.record? ["max_time_secs"] with
  | [seconds] => return ⟨← Json.fieldOr standard.maxTimeSecs Json.uint32? seconds⟩
  | _ => none

end ExplorationConfig

/-- What a batch of replays looks at. -/
structure ReplayConfig where
  compareOutput : Bool
  measureCoverage : Bool
  deriving DecidableEq, Repr

namespace ReplayConfig

def standard : ReplayConfig := ⟨true, true⟩

def toJson (config : ReplayConfig) : Json :=
  .object
    [("compare_output", .bool config.compareOutput),
      ("measure_coverage", .bool config.measureCoverage)]

def ofJson? (j : Json) : Option ReplayConfig := do
  match ← j.record? ["compare_output", "measure_coverage"] with
  | [compare, measure] =>
    return ⟨← Json.fieldOr standard.compareOutput Json.bool? compare,
      ← Json.fieldOr standard.measureCoverage Json.bool? measure⟩
  | _ => none

end ReplayConfig

structure HarnessConfig where
  exploration : ExplorationConfig
  replay : ReplayConfig
  coverage : CoverageConfig
  deriving DecidableEq, Repr

namespace HarnessConfig

def standard : HarnessConfig := ⟨.standard, .standard, .standard⟩

def toJson (config : HarnessConfig) : Json :=
  .object
    [("symbolic", config.exploration.toJson), ("replay", config.replay.toJson),
      ("coverage", config.coverage.toJson)]

def ofJson? (j : Json) : Option HarnessConfig := do
  match ← j.record? ["symbolic", "replay", "coverage"] with
  | [exploration, replay, coverage] =>
    return ⟨← Json.fieldOr .standard ExplorationConfig.ofJson? exploration,
      ← Json.fieldOr .standard ReplayConfig.ofJson? replay,
      ← Json.fieldOr .standard CoverageConfig.ofJson? coverage⟩
  | _ => none

/-- The configuration that a text spells. What exactly is wrong with a text that spells none is not told: the reason is
the same for all of them. -/
def parse (text : String) : Except Fault HarnessConfig :=
  match (Json.parse? text).bind ofJson? with
  | some config => .ok config
  | none => .error (.configuration "the text is no harness configuration")

end HarnessConfig

end Concolic
