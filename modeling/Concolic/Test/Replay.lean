import Concolic.Assignment
import Concolic.Run

/-!
# Replay

A test run with the values of an assignment. A name that the assignment does not bind takes the default of
its request, with a note. Assumptions and concretisation mean nothing here.
-/

namespace Concolic

namespace Assignment

/-- The value at a name, with a note if there is none. -/
def lookUp (a : Assignment) (name : String) (default : String) : Run σ (Option Value) :=
  match a.get? name with
  | some v => pure (some v)
  | none => do
    Run.log (.plain .info
      s!"Key '{name}' not found in assignment. Using default '{default}'.")
    return none

/-- Answers a question of a test. The state is the lines that the test has logged. -/
def reply (a : Assignment) : (q : Ask) → Run (List String) q.Reply
  | .int r =>
    match r.validate with
    | .error f => pure (.error f)
    | .ok () => do
      match ← a.lookUp r.name (toString r.default.toInt) with
      | some v => return v.toInt
      | none => return .ok r.default
  | .sequence r =>
    match r.validate with
    | .error f => pure (.error f)
    | .ok () => do
      match ← a.lookUp r.name (toString r.default) with
      | some v => return .ok v.toBytes
      | none => return r.defaultBytes
  | .assume _ => pure ()
  | .log line => do
    Run.log (.testLine line)
    Run.update (· ++ [line])
  | .concretize value => pure value
  | .mode => pure .replay

end Assignment

structure Replay where
  assignment : Assignment
  log : List String
  failure : Option TestFailure
  deriving DecidableEq

namespace Replay

def succeeded (r : Replay) : Bool :=
  r.failure.isNone

def output (r : Replay) : String :=
  String.join r.log

/-- Builds, prepares and executes a test; any panic on the way is a failure of the test. -/
def phases (test : Test ι) (a : Assignment) : Run (List String) (Except TestFailure Unit) := do
  Run.enter .build
  match test.build with
  | .error p => return .error (.ofPanic p)
  | .ok built =>
    Run.enter .prepare
    match (← (test.prepare built).run a.reply).guarded with
    | .error f => return .error f
    | .ok prepared =>
      Run.enter .execute
      return (← (test.execute prepared).run a.reply).guarded

def run (test : Test ι) (a : Assignment) : Replay × Trace :=
  let shown := toString a
  let started : Event := .plain .info s!"Replaying {shown}"
  let outcome := phases test a []
  let (failure, noted) := match outcome.value with
    | .ok () => (none, [])
    | .error f =>
      let trace := f.trace
      (some f,
        [Activity.logged ⟨.error, s!"Error detected:\n{trace}", [("kind", .text f.kind)], false⟩])
  (⟨a, outcome.state, failure⟩, .logged started :: outcome.trace ++ noted)

end Replay

end Concolic
