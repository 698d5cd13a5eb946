import Concolic.Proofs.Agreement
import Concolic.Proofs.PanickingEngine

/-!
# Protocol of an exploration

Sessions are opened and paths are closed by the harness alone: no question of a test leads to such a call.
An exploration therefore opens a session at most once, between the phases, and closes its path once, as the
last call that the engine hears of it.
-/

namespace Concolic

namespace EngineCall

def isSession : EngineCall → Bool
  | beginSession _ => true
  | endSession _ => true
  | terminatePath _ _ => true
  | _ => false

end EngineCall

namespace Trace

def sessionCalls (t : Trace) : List EngineCall :=
  t.engineCalls.filter EngineCall.isSession

@[simp] theorem engineCalls_nil : engineCalls [] = [] := rfl

@[simp] theorem engineCalls_cons_logged (e : Event) (t : Trace) :
    engineCalls (.logged e :: t) = engineCalls t := rfl

@[simp] theorem engineCalls_entered (p : Phase) (t : Trace) :
    engineCalls (.entered p :: t) = engineCalls t := rfl

@[simp] theorem engineCalls_asked (q : Ask) (t : Trace) :
    engineCalls (.asked q :: t) = engineCalls t := rfl

@[simp] theorem sessionCalls_nil : sessionCalls [] = [] := rfl

@[simp] theorem sessionCalls_append (t u : Trace) :
    sessionCalls (t ++ u) = sessionCalls t ++ sessionCalls u := by
  simp [sessionCalls]

@[simp] theorem sessionCalls_cons_logged (e : Event) (t : Trace) :
    sessionCalls (.logged e :: t) = sessionCalls t := rfl

@[simp] theorem sessionCalls_asked (q : Ask) (t : Trace) :
    sessionCalls (.asked q :: t) = sessionCalls t := rfl

end Trace

namespace Engine

variable {ε : Type} (E : Engine ε) (panics : CallPanic ε)

@[simp] theorem sessionCalls_attempt (c : EngineCall) (s : ε) :
    (E.attempt panics c s).trace.sessionCalls = [c].filter EngineCall.isSession := by
  have h : (E.attempt panics c s).trace.engineCalls = [c] := E.engineCalls_call c s
  rw [Trace.sessionCalls, h]

theorem sessionCalls_tryReply (q : Ask) (s : ε) :
    (E.tryReply panics q s).trace.sessionCalls = [] := by
  cases q with
  | int r =>
    simp only [tryReply]
    cases r.validate with
    | error f => rfl
    | ok u => simp [EngineCall.isSession]
  | sequence r =>
    simp only [tryReply]
    cases r.validate with
    | error f => rfl
    | ok u =>
      cases r.defaultBytes with
      | error f => rfl
      | ok default =>
        -- Only an answer leads to the second call.
        cases hvalue : (E.attempt panics (.symbolicSequence default r.name r.maxSize r.minSize)
          s).value <;>
          cases r.asciiOnly <;> simp [hvalue, EngineCall.isSession]
  | assume condition => simp [tryReply, EngineCall.isSession]
  | log line => simp [tryReply, EngineCall.isSession]
  | concretize value => simp [tryReply, EngineCall.isSession]
  | mode => rfl

/-- The engine that says `verdict` to a session, and that is the same in everything else. -/
def deciding (verdict : Except Fault Unit) : Engine ε where
  answer
    | .beginSession seconds, s => (verdict, (E.answer (.beginSession seconds) s).2)
    | c, s => E.answer c s

theorem tryReply_deciding (verdict : Except Fault Unit) :
    (E.deciding verdict).tryReply panics = E.tryReply panics := by
  funext q
  cases q <;> rfl

end Engine

namespace Body

theorem sessionCalls_tryRun {ε : Type} (E : Engine ε) (panics : CallPanic ε) (b : Body α) (s : ε) :
    (b.tryRun (E.tryReply panics) s).trace.sessionCalls = [] := by
  induction b generalizing s with
  | done a => rfl
  | fail e => rfl
  | panic p => rfl
  | ask q next ih =>
    have hq := E.sessionCalls_tryReply panics q s
    cases hvalue : (E.tryReply panics q s).value with
    | error p => simp [tryRun, hvalue, hq]
    | ok r => simp [tryRun, hvalue, hq, ih]

end Body

namespace Exploration

/-- How the phases of a test ended together. The execution counts if the preparation succeeded. -/
def resultOf (prepared : Ending ι) (executed : ι → Ending Unit) : Except TestFailure Unit :=
  match prepared.guarded with
  | .error f => .error f
  | .ok i => (executed i).guarded

/-- The call that closes a path, by what the engine said to a session and how the test ended. -/
def closing (verdict : Except Fault Unit) : Except TestFailure Unit → EngineCall
  | .error f =>
    let summary := toString f
    .terminatePath 1 s!"Symbolic test failed: {summary}"
  | .ok () =>
    match verdict with
    | .ok () => .endSession false
    | .error _ => .terminatePath 0 "Symbolic test ended"

/-- The calls from the opening of a session on, up to the closing call: nothing unless the preparation
succeeded, and otherwise the opening and then the calls of the execution. -/
def onceOpened (seconds : UInt32) (prepared : Ending ι) (executed : ι → List EngineCall) :
    List EngineCall :=
  match prepared.guarded with
  | .error _ => []
  | .ok i => .beginSession seconds :: executed i

theorem filter_onceOpened (seconds : UInt32) (prepared : Ending ι)
    (executed : ι → List EngineCall) :
    (onceOpened seconds prepared executed).filter EngineCall.isSession =
      onceOpened seconds prepared fun i => (executed i).filter EngineCall.isSession := by
  unfold onceOpened
  cases prepared.guarded <;> rfl

section Phases

variable {ε ι : Type} (E : Engine ε)

@[simp] theorem engineCalls_openSession (seconds : UInt32) (s : ε) :
    (openSession E seconds s).trace.engineCalls = [.beginSession seconds] := by
  simp only [openSession, Run.bind_apply, Engine.value_call, Trace.engineCalls_append,
    Engine.engineCalls_call]
  cases (E.answer (.beginSession seconds) s).1 <;> simp

@[simp] theorem state_openSession (seconds : UInt32) (s : ε) :
    (openSession E seconds s).state = (E.call (.beginSession seconds) s).state := by
  simp only [openSession, Run.bind_apply, Engine.value_call]
  cases (E.answer (.beginSession seconds) s).1 <;> simp

theorem engineCalls_abort (f : TestFailure) (verdict : Except Fault Unit) (s : ε) :
    (abort E f s).trace.engineCalls = [closing verdict (.error f)] := by
  simp [abort, closing]

theorem engineCalls_succeed (seconds : UInt32) (s t : ε) :
    (succeed E (openSession E seconds s).value t).trace.engineCalls =
      [closing (E.answer (.beginSession seconds) s).1 (.ok ())] := by
  simp only [openSession, Run.bind_apply, Engine.value_call]
  cases (E.answer (.beginSession seconds) s).1 <;> simp [succeed, closing]

theorem isSession_closing (verdict : Except Fault Unit) (result : Except TestFailure Unit) :
    (closing verdict result).isSession = true := by
  cases result with
  | error f => rfl
  | ok u => cases verdict <;> rfl

theorem closing_eq_terminatePath_one_iff {verdict : Except Fault Unit}
    {result : Except TestFailure Unit} :
    (∃ reason, closing verdict result = .terminatePath 1 reason) ↔ ∃ f, result = .error f := by
  cases result with
  | error f => simp [closing]
  | ok u => cases verdict <;> simp [closing]

variable (panics : CallPanic ε) {test : Test ι} {built : ι}

/-- The calls of an exploration and how it ends, read off what its phases do. -/
theorem tryRun_phases (hbuild : test.build = .ok built) (seconds : UInt32) (s : ε) :
    let explored := tryRun E panics test seconds s
    let prepared := (test.prepare built).tryRun (E.tryReply panics) s
    let verdict := (E.answer (.beginSession seconds) prepared.state).1
    let opened := (E.call (.beginSession seconds) prepared.state).state
    let executed := fun i => (test.execute i).tryRun (E.tryReply panics) opened
    let result := resultOf prepared.value fun i => (executed i).value
    explored.value = ofResult result ∧
      explored.trace.engineCalls = prepared.trace.engineCalls ++
        onceOpened seconds prepared.value (fun i => (executed i).trace.engineCalls) ++
        [closing verdict result] := by
  intro explored prepared verdict opened executed result
  cases hg : prepared.value.guarded with
  | error f =>
    have hresult : result = .error f := by simp [result, resultOf, hg]
    have hclose := engineCalls_abort E f verdict prepared.state
    rw [hresult]
    simp [explored, prepared, tryRun, hbuild, hg, hclose, ofResult, onceOpened]
  | ok i =>
    have hresult : result = (executed i).value.guarded := by simp [result, resultOf, hg]
    rw [hresult]
    cases he : (executed i).value.guarded with
    | error f =>
      have hclose := engineCalls_abort E f verdict (executed i).state
      simp [explored, prepared, executed, opened, verdict, tryRun, hbuild, hg, he, hclose, ofResult,
        onceOpened]
    | ok u =>
      have hclose := engineCalls_succeed E seconds prepared.state (executed i).state
      simp [explored, prepared, executed, opened, verdict, tryRun, hbuild, hg, he, hclose, ofResult,
        onceOpened]

end Phases

theorem ofResult_eq_failed_iff {result : Except TestFailure Unit} :
    (∃ f, ofResult result = .failed f) ↔ ∃ f, result = .error f := by
  cases result <;> simp [ofResult]

/-- The protocol between an exploration and its engine, for a test that could be built. The calls are those of
the preparation; after a preparation that succeeded, one opening of a session with the budget and the calls
of the execution; and one closing call. No other call opens a session or closes a path. The exploration
fails exactly if the closing call has the code 1, and another verdict on the session changes only the
closing call, and that only if the test succeeds. -/
theorem keeps_engine_protocol {ε ι : Type} (E : Engine ε) (panics : CallPanic ε) {test : Test ι}
    {built : ι} (hbuild : test.build = .ok built) (seconds : UInt32) (s : ε) :
    let explored := tryRun E panics test seconds s
    let prepared := (test.prepare built).tryRun (E.tryReply panics) s
    let verdict := (E.answer (.beginSession seconds) prepared.state).1
    let opened := (E.call (.beginSession seconds) prepared.state).state
    let executed := fun i => (test.execute i).tryRun (E.tryReply panics) opened
    let result := resultOf prepared.value fun i => (executed i).value
    (panics = .never → explored = run E test seconds s) ∧
      explored.trace.engineCalls = prepared.trace.engineCalls ++
        onceOpened seconds prepared.value (fun i => (executed i).trace.engineCalls) ++
        [closing verdict result] ∧
      explored.trace.sessionCalls =
        onceOpened seconds prepared.value (fun _ => []) ++ [closing verdict result] ∧
      explored.value = ofResult result ∧
      ((∃ f, explored.value = .failed f ∧ f.fault = .testBody f.kind f.message) ↔
        ∃ reason, explored.trace.engineCalls.getLast? = some (.terminatePath 1 reason)) ∧
      ∀ verdict',
        let other := tryRun (E.deciding verdict') panics test seconds s
        other.value = explored.value ∧
          other.trace.engineCalls.dropLast = explored.trace.engineCalls.dropLast ∧
          ∀ f, explored.value = .failed f →
            other.trace.engineCalls = explored.trace.engineCalls := by
  intro explored prepared verdict opened executed result
  let calls := prepared.trace.engineCalls ++
    onceOpened seconds prepared.value (fun i => (executed i).trace.engineCalls)
  have hphases := tryRun_phases E panics hbuild seconds s
  have hvalue : explored.value = ofResult result := hphases.1
  have hcalls : explored.trace.engineCalls = calls ++ [closing verdict result] := hphases.2
  refine ⟨?_, hcalls, ?_, hvalue, ?_, fun verdict' => ?_⟩
  · rintro rfl
    exact congrFun (tryRun_never E test seconds) s
  · have hprepared : prepared.trace.sessionCalls = [] := (test.prepare built).sessionCalls_tryRun ..
    have hexecuted (i : ι) : (executed i).trace.sessionCalls = [] :=
      (test.execute i).sessionCalls_tryRun ..
    rw [Trace.sessionCalls, hcalls, List.filter_append, List.filter_append, filter_onceOpened]
    rw [Trace.sessionCalls] at hprepared
    simp only [Trace.sessionCalls] at hexecuted
    simp only [hprepared, hexecuted, List.nil_append, List.filter_cons, isSession_closing,
      List.filter_nil, if_true]
  · have hlast : explored.trace.engineCalls.getLast? = some (closing verdict result) := by
      rw [hcalls, List.getLast?_concat]
    rw [hlast, hvalue]
    simp only [Option.some.injEq, closing_eq_terminatePath_one_iff, TestFailure.fault, and_true,
      ofResult_eq_failed_iff]
  · -- The other engine hears the same of the test, since no question of a test opens a session.
    have hphases' := tryRun_phases (E.deciding verdict') panics hbuild seconds s
    rw [E.tryReply_deciding panics verdict'] at hphases'
    have hcalls' : (tryRun (E.deciding verdict') panics test seconds s).trace.engineCalls =
      calls ++ [closing verdict' result] := hphases'.2
    refine ⟨hphases'.1.trans hvalue.symm, ?_, fun f hf => ?_⟩
    · rw [hcalls', hcalls, List.dropLast_concat, List.dropLast_concat]
    · obtain ⟨f, hresult⟩ := ofResult_eq_failed_iff.1 ⟨f, hvalue.symm.trans hf⟩
      rw [hcalls', hcalls, hresult]
      rfl

def onInteger (name : String) : CallPanic ε
  | .symbolicInt _ asked _ _, _ => if asked = name then some (.text "engine lost") else none
  | _, _ => none

/-- The engine takes the session and panics while the test executes: the session is not ended. -/
theorem keeps_engine_protocol_onInteger :
    let E := Engine.following (.ofList [("n", .int (-3)), ("text", .bytes [0x61, 0x62])])
    let explored := tryRun E (onInteger "more") crossedBounds 30 ()
    let last : EngineCall := .terminatePath 1 "Symbolic test failed: Panic: engine lost"
    crossedBounds.build = .ok 0 ∧
      explored.trace.engineCalls =
        [.symbolicInt 1 "n" none (some 0), .recordLog "prepared", .beginSession 30,
          .symbolicSequence [] "text" (some 9) none, .assumeAscii [0x61, 0x62],
          .symbolicInt 7 "more" none none, last] ∧
      explored.trace.sessionCalls = [.beginSession 30, last] := by
  intro E explored last
  have h := keeps_engine_protocol E (onInteger "more") (rfl : crossedBounds.build = .ok 0) 30 ()
  exact ⟨rfl, h.2.1.trans (by decide +kernel), h.2.2.1.trans (by decide +kernel)⟩

end Exploration

end Concolic
