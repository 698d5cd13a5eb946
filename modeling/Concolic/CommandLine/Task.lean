import Concolic.CommandLine.Usage

/-!
# Tasks of a harness

A harness explores its test unless it is told to replay it: against an assignment, against the defaults, or
against the test cases of a file.
-/

namespace Concolic

inductive Task
  | explore
  /-- Replay one assignment, given by written names and escaped values. -/
  | replayAssignment (overrides : List (String × String))
  | replayDefaults
  | replayFile (path : String)
  deriving DecidableEq, Repr

structure HarnessArgs where
  task : Task
  config : Option String
  deriving DecidableEq, Repr

namespace HarnessArgs

/-- The parameters of a harness. A path must not be empty. -/
def usage : Usage where
  options :=
    [⟨"assign", some 'a', 2, true, true, fun _ => true⟩,
      .switch "replay" (some 'r'),
      .single "file" (some 'f') fun path => !path.isEmpty,
      .single "config" none fun path => !path.isEmpty]
  positionals := []
  exclusive := ["assign", "replay", "file"]

/-- The pairs that a list is made of. -/
def pairs : List String → List (String × String)
  | name :: value :: rest => (name, value) :: pairs rest
  | _ => []

def taskOf (given : List Given) : Task :=
  if Usage.has "assign" given then .replayAssignment (pairs (Usage.operandsOf "assign" given))
  else if Usage.has "replay" given then .replayDefaults
  else match Usage.operandsOf "file" given with
    | path :: _ => .replayFile path
    | [] => .explore

def parse (arguments : List String) : Except UsageError HarnessArgs := do
  let given ← usage.read arguments
  return ⟨taskOf given, (Usage.operandsOf "config" given).head?⟩

end HarnessArgs

end Concolic
