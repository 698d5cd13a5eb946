import Concolic.Proofs.RunTrace
import Concolic.Test.Exploration

/-!
# Engines that panic

A call that a test makes on its engine may panic instead of giving an answer. The panic unwinds through the
test, so it ends the phase in the way that a panic of the test itself does. An exploration is what it is
under such an engine when no call panics.
-/

namespace Concolic

/-- Which calls of a test panic, by the state of the engine. -/
abbrev CallPanic (ε : Type) : Type :=
  EngineCall → ε → Option Panic

def CallPanic.never : CallPanic ε :=
  fun _ _ => none

namespace Engine

variable {ε : Type} (E : Engine ε) (panics : CallPanic ε)

/-- Makes a call that may panic. The engine has been called all the same. -/
def attempt (c : EngineCall) : Run ε (Except Panic c.Answer) :=
  fun s =>
    let made := E.call c s
    let value := match panics c s with
      | some p => .error p
      | none => .ok made.value
    ⟨value, made.state, made.trace⟩

@[simp] theorem attempt_never (c : EngineCall) (s : ε) :
    E.attempt .never c s = ⟨.ok (E.call c s).value, (E.call c s).state, (E.call c s).trace⟩ := rfl

def tryReply : (q : Ask) → Run ε (Except Panic q.Reply)
  | .int r =>
    match r.validate with
    | .error f => pure (.ok (.error f))
    | .ok () => do
      return (← E.attempt panics (.symbolicInt r.default r.name r.max r.min)).map .ok
  | .sequence r =>
    match r.validate, r.defaultBytes with
    | .error f, _ => pure (.ok (.error f))
    | .ok (), .error f => pure (.ok (.error f))
    | .ok (), .ok default => do
      match ← E.attempt panics (.symbolicSequence default r.name r.maxSize r.minSize) with
      | .error p => return .error p
      | .ok b =>
        if r.asciiOnly then
          return (← E.attempt panics (.assumeAscii b)).map fun _ => .ok b
        else return .ok (.ok b)
  | .assume condition => E.attempt panics (.assume condition)
  | .log line => do
    Run.log (.testLine line)
    E.attempt panics (.recordLog line)
  | .concretize value => E.attempt panics (.concretize value)
  | .mode => pure (.ok .symbolic)

theorem tryReply_never (q : Ask) (s : ε) :
    E.tryReply .never q s = ⟨.ok (E.reply q s).value, (E.reply q s).state, (E.reply q s).trace⟩ := by
  cases q with
  | int r =>
    simp only [tryReply, reply]
    cases r.validate <;> simp [Except.map]
  | sequence r =>
    simp only [tryReply, reply]
    cases r.validate with
    | error f => simp
    | ok u =>
      cases r.defaultBytes with
      | error f => simp
      | ok default => cases r.asciiOnly <;> simp [Except.map]
  | assume condition => rfl
  | log line => rfl
  | concretize value => rfl
  | mode => rfl

end Engine

namespace Body

def tryRun (answer : (q : Ask) → Run σ (Except Panic q.Reply)) : Body α → Run σ (Ending α)
  | done a => pure (.done a)
  | fail e => pure (.failed e)
  | panic p => pure (.panicked p)
  | ask q next => do
    Run.record [.asked q]
    match ← answer q with
    | .error p => return .panicked p
    | .ok r => (next r).tryRun answer

theorem tryRun_never (E : Engine ε) (b : Body α) (s : ε) :
    b.tryRun (E.tryReply .never) s = b.run E.reply s := by
  induction b generalizing s with
  | done a => rfl
  | fail e => rfl
  | panic p => rfl
  | ask q next ih => simp [tryRun, run, Engine.tryReply_never, ih]

end Body

namespace Exploration

variable {ε ι : Type} (E : Engine ε) (panics : CallPanic ε)

/-- Explores a test under an engine on which the calls of the test may panic. -/
def tryRun (test : Test ι) (seconds : UInt32) : Run ε Exploration := do
  Run.enter .build
  match test.build with
  | .error p => return .escaped p
  | .ok built =>
    Run.enter .prepare
    match (← (test.prepare built).tryRun (E.tryReply panics)).guarded with
    | .error f => abort E f
    | .ok prepared =>
      let session ← openSession E seconds
      Run.enter .execute
      match (← (test.execute prepared).tryRun (E.tryReply panics)).guarded with
      | .error f => abort E f
      | .ok () => succeed E session

theorem tryRun_never (test : Test ι) (seconds : UInt32) :
    tryRun E .never test seconds = run E test seconds := by
  have hphase {α : Type} (b : Body α) : b.tryRun (E.tryReply .never) = b.run E.reply :=
    funext (b.tryRun_never E)
  simp only [tryRun, hphase]
  rfl

end Exploration

end Concolic
