import Concolic.Event
import Concolic.Json.Decode
import Concolic.Value

/-!
# Engines

What the harness asks of a symbolic execution engine. An engine is a state and an answer to every call;
from the side of the harness each call returns once.
-/

namespace Concolic

/-- A mark around a region of known cost. -/
inductive Marker
  | start
  | checkpoint (cost : UInt32)
  | finish
  deriving DecidableEq, Repr

namespace Marker

def toJson : Marker → Json
  | start => .string "Start"
  | checkpoint cost => .object [("Checkpoint", .natural cost.toNat)]
  | finish => .string "End"

def ofJson? (j : Json) : Option Marker := do
  match ← j.variant? with
  | ("Start", .null) => some start
  | ("Checkpoint", v) => v.uint32?.map checkpoint
  | ("End", .null) => some finish
  | _ => none

/-- The marks of a calibration: fifteen regions of the same cost after an empty one. -/
def calibration : List Marker :=
  [start, checkpoint 0] ++ List.replicate 15 (checkpoint 5) ++ [finish]

end Marker

inductive EngineCall
  /-- Opens a session; a budget of 0 seconds has no limit. -/
  | beginSession (seconds : UInt32)
  | endSession (keepExploring : Bool)
  | terminatePath (code : Int32) (reason : String)
  | symbolicInt (default : Int32) (name : String) (max min : Option Int32)
  | symbolicSequence (default : Bytes) (name : String) (maxSize minSize : Option Nat)
  | assume (condition : Bool)
  | assumeAscii (value : Bytes)
  | concretize (value : Value)
  | recordLog (line : String)
  | calibrate (marker : Marker)
  deriving DecidableEq, Repr

namespace EngineCall

abbrev Answer : EngineCall → Type
  | beginSession _ => Except Fault Unit
  | symbolicInt _ _ _ _ => Int32
  | symbolicSequence _ _ _ _ => Bytes
  | concretize _ => Value
  | _ => Unit

end EngineCall

/-- An engine with states of type `ε`. An answer comes with the next state and with what the engine itself
logs. -/
structure Engine (ε : Type) where
  answer : (call : EngineCall) → ε → call.Answer × ε × List Event

/-- What is known when no engine is attached: the calls are noted, and nothing else happens. -/
structure Detached where
  sessionAttempts : Nat
  terminated : Option (Int32 × String)
  ended : Option Bool
  log : List String
  calibration : List Marker
  deriving DecidableEq, Repr

namespace Detached

def fresh : Detached := ⟨0, none, none, [], []⟩

/-- Sessions are refused, acquisitions give their defaults, and values are as concrete as they come. -/
def engine : Engine Detached where
  answer
    | .beginSession _, s =>
      (.error (.engineUnavailable "no symbolic engine attached"),
        { s with sessionAttempts := s.sessionAttempts + 1 }, [])
    | .endSession keep, s => ((), { s with ended := some keep }, [])
    | .terminatePath code reason, s =>
      ((), { s with terminated := some (code, reason) },
        [⟨.debug, "Path terminated", [("code", .number code.toInt), ("reason", .text reason)],
          false⟩])
    | .symbolicInt default _ _ _, s => (default, s, [])
    | .symbolicSequence default _ _ _, s => (default, s, [])
    | .assume _, s => ((), s, [])
    | .assumeAscii _, s => ((), s, [])
    | .concretize value, s => (value, s, [])
    | .recordLog line, s => ((), { s with log := s.log ++ [line] }, [])
    | .calibrate marker, s => ((), { s with calibration := s.calibration ++ [marker] }, [])

end Detached

end Concolic
