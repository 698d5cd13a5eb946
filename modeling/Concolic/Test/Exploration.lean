import Concolic.Run

/-!
# Exploration

A test run under an engine. The questions of the test go to the engine, and the engine is told how the path
ended by exactly one closing call. Building the instance is not part of what is guarded: a panic there ends
the run at once.
-/

namespace Concolic

namespace Engine

/-- Answers a question of a test. A request is checked before the engine hears of it. -/
def reply (E : Engine ε) : (q : Ask) → Run ε q.Reply
  | .int r =>
    match r.validate with
    | .error f => pure (.error f)
    | .ok () => do
      let n ← E.call (.symbolicInt r.default r.name r.max r.min)
      return .ok n
  | .sequence r =>
    match r.validate, r.defaultBytes with
    | .error f, _ => pure (.error f)
    | .ok (), .error f => pure (.error f)
    | .ok (), .ok default => do
      let b ← E.call (.symbolicSequence default r.name r.maxSize r.minSize)
      if r.asciiOnly then E.call (.assumeAscii b)
      return .ok b
  | .assume condition => E.call (.assume condition)
  | .log line => do
    Run.log (.testLine line)
    E.call (.recordLog line)
  | .concretize value => E.call (.concretize value)
  | .mode => pure .symbolic

end Engine

inductive Exploration
  | completed
  | failed (f : TestFailure)
  /-- A panic while the instance was built, which nothing caught. -/
  | escaped (p : Panic)
  deriving DecidableEq, Repr

namespace Exploration

variable {ε : Type} (E : Engine ε)

/-- Opens a session, and says whether the engine took it. -/
def openSession (seconds : UInt32) : Run ε Bool := do
  match ← E.call (.beginSession seconds) with
  | .ok () => return true
  | .error f =>
    let reason := f.message
    Run.log (.plain .warn
      s!"Cannot start the exploration session ({reason}). Proceeding without engine support.")
    return false

def succeed (session : Bool) : Run ε Exploration := do
  if session then E.call (.endSession false)
  else E.call (.terminatePath 0 "Symbolic test ended")
  return .completed

def abort (f : TestFailure) : Run ε Exploration := do
  let trace := f.trace
  let summary := toString f
  Run.log ⟨.error, s!"Symbolic test failed:\n{trace}", [("kind", .text f.kind)], false⟩
  E.call (.terminatePath 1 s!"Symbolic test failed: {summary}")
  return .failed f

/-- Explores a test with a budget of seconds. The session begins after the test has prepared itself. -/
def run (test : Test ι) (seconds : UInt32) : Run ε Exploration := do
  Run.enter .build
  match test.build with
  | .error p => return .escaped p
  | .ok built =>
    Run.enter .prepare
    match (← (test.prepare built).run E.reply).guarded with
    | .error f => abort E f
    | .ok prepared =>
      let session ← openSession E seconds
      Run.enter .execute
      match (← (test.execute prepared).run E.reply).guarded with
      | .error f => abort E f
      | .ok () => succeed E session

end Exploration

end Concolic
