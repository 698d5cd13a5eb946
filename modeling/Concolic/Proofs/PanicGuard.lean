import Concolic.Proofs.EngineProtocol

/-!
# Panics of tests

A test may panic at any place: while it is built, or after any number of questions of its preparation or of its
execution. In a replay each of these is a failure of the test. An exploration makes a failure of those that come once
the test is built, and closes the path. A panic that comes before leaves the exploration, and its engine hears nothing.
-/

namespace Concolic

/-- A body panics with `p`: at once, or after a question. -/
inductive Body.Panics {σ α : Type} (answer : (q : Ask) → Run σ q.Reply) (p : Panic) : Body α → σ → Prop
  | now (s : σ) : Panics answer p (.panic p) s
  | later {q : Ask} {next : q.Reply → Body α} {s : σ}
      (h : Panics answer p (next (answer q s).value) (answer q s).state) : Panics answer p (.ask q next) s

/-- A test panics with `p` in a phase. What happens between the preparation and the execution changes the state by
`opened`. -/
inductive Test.Panics {σ ι : Type} (test : Test ι) (answer : (q : Ask) → Run σ q.Reply) (opened : σ → σ) (s : σ)
    (p : Panic) : Phase → Prop
  | build (hbuild : test.build = .error p) : Panics test answer opened s p .build
  | prepare {built : ι} (hbuild : test.build = .ok built) (h : (test.prepare built).Panics answer p s) :
      Panics test answer opened s p .prepare
  | execute {built i : ι} (hbuild : test.build = .ok built)
      (hprepare : ((test.prepare built).run answer s).value = .done i)
      (h : (test.execute i).Panics answer p (opened ((test.prepare built).run answer s).state)) :
      Panics test answer opened s p .execute

namespace EngineCall

def isClosing : EngineCall → Bool
  | endSession _ => true
  | terminatePath _ _ => true
  | _ => false

theorem isSession_of_isClosing {c : EngineCall} (h : c.isClosing = true) : c.isSession = true := by
  cases c <;> simp_all [isClosing, isSession]

end EngineCall

namespace Trace

def closingCalls (t : Trace) : List EngineCall :=
  t.engineCalls.filter EngineCall.isClosing

theorem filter_isClosing_of_sessionCalls {t : Trace} (h : t.sessionCalls = []) :
    t.engineCalls.filter EngineCall.isClosing = [] := by
  rw [sessionCalls, List.filter_eq_nil_iff] at h
  rw [List.filter_eq_nil_iff]
  exact fun c hc hclosing => h c hc (EngineCall.isSession_of_isClosing hclosing)

end Trace

theorem Body.panics_iff {σ α : Type} {answer : (q : Ask) → Run σ q.Reply} {p : Panic} (b : Body α) (s : σ) :
    b.Panics answer p s ↔ (b.run answer s).value = .panicked p := by
  constructor
  · intro h
    induction h with
    | now s => rfl
    | later h ih => exact ih
  · intro h
    induction b generalizing s with
    | done a => cases h
    | fail e => cases h
    | panic p' =>
      cases h
      exact .now s
    | ask q next ih => exact .later (ih _ _ h)

namespace Exploration

variable {ε ι : Type} (E : Engine ε) {test : Test ι} {built : ι}

theorem run_phases (hbuild : test.build = .ok built) (seconds : UInt32) (s : ε) :
    let explored := run E test seconds s
    let prepared := (test.prepare built).run E.reply s
    let opened := openSession E seconds prepared.state
    let executed := fun i => (test.execute i).run E.reply opened.state
    let result := resultOf prepared.value fun i => (executed i).value
    let verdict := (E.answer (.beginSession seconds) prepared.state).1
    explored.value = ofResult result ∧
      explored.trace.engineCalls = prepared.trace.engineCalls ++
        onceOpened seconds prepared.value (fun i => (executed i).trace.engineCalls) ++
        [closing verdict result] := by
  have h := tryRun_phases E .never hbuild seconds s
  simpa only [tryRun_never, Body.tryRun_never, state_openSession] using h

/-- Only a panic while the test is built leaves an exploration. -/
theorem value_eq_escaped_iff (seconds : UInt32) (s : ε) (p : Panic) :
    (run E test seconds s).value = .escaped p ↔ test.build = .error p := by
  cases hbuild : test.build with
  | error p' => simp [run, hbuild]
  | ok built =>
    rw [(run_phases E hbuild seconds s).1]
    cases resultOf ((test.prepare built).run E.reply s).value _ <;> simp [ofResult]

theorem engineCalls_of_build_error {p : Panic} (hbuild : test.build = .error p) (seconds : UInt32) (s : ε) :
    (run E test seconds s).trace.engineCalls = [] := by
  simp [run, hbuild]

theorem isClosing_closing (verdict : Except Fault Unit) (result : Except TestFailure Unit) :
    (closing verdict result).isClosing = true := by
  cases result with
  | error f => rfl
  | ok u => cases verdict <;> rfl

theorem closing_ofPanic (verdict : Except Fault Unit) (p : Panic) :
    closing verdict (.error (.ofPanic p)) =
      .terminatePath 1 s!"Symbolic test failed: Panic: {p.message}" := rfl

/-- A path is closed once, by the last call: neither a test nor the opening of a session closes it. -/
theorem closingCalls_run (hbuild : test.build = .ok built) (seconds : UInt32) (s : ε) :
    let explored := run E test seconds s
    let prepared := (test.prepare built).run E.reply s
    let opened := openSession E seconds prepared.state
    let executed := fun i => (test.execute i).run E.reply opened.state
    let result := resultOf prepared.value fun i => (executed i).value
    let verdict := (E.answer (.beginSession seconds) prepared.state).1
    explored.trace.engineCalls.getLast? = some (closing verdict result) ∧
      explored.trace.closingCalls = [closing verdict result] := by
  intro explored prepared opened executed result verdict
  have hcalls := (run_phases E hbuild seconds s).2
  have hbody {α : Type} (b : Body α) (t : ε) :
      (b.run E.reply t).trace.engineCalls.filter EngineCall.isClosing = [] := by
    have hsession := b.sessionCalls_tryRun E .never t
    rw [Body.tryRun_never] at hsession
    exact Trace.filter_isClosing_of_sessionCalls hsession
  have hopened : (onceOpened seconds prepared.value fun i => (executed i).trace.engineCalls).filter
      EngineCall.isClosing = [] := by
    unfold onceOpened
    cases prepared.value.guarded with
    | error f => rfl
    | ok i => exact hbody (test.execute i) opened.state
  constructor
  · rw [hcalls, List.getLast?_concat]
  · rw [Trace.closingCalls, hcalls, List.filter_append, List.filter_append, hbody, hopened, List.nil_append,
      List.nil_append, List.filter_cons_of_pos (isClosing_closing verdict result), List.filter_nil]

theorem resultOf_of_panics {opened : ε → ε} {s : ε} {p : Panic} {phase : Phase} (hphase : phase ≠ .build)
    (h : test.Panics E.reply opened s p phase) :
    ∃ built, test.build = .ok built ∧
      let prepared := (test.prepare built).run E.reply s
      (resultOf prepared.value fun i => ((test.execute i).run E.reply (opened prepared.state)).value) =
        .error (.ofPanic p) := by
  cases h with
  | build hbuild => exact absurd rfl hphase
  | prepare hbuild h =>
    rw [Body.panics_iff] at h
    exact ⟨_, hbuild, by simp [resultOf, h, Ending.guarded]⟩
  | execute hbuild hprepare h =>
    rw [Body.panics_iff] at h
    exact ⟨_, hbuild, by simp [resultOf, hprepare, h, Ending.guarded]⟩

end Exploration

namespace Replay

variable {ι : Type} {test : Test ι} {a : Assignment} {p : Panic} {phase : Phase}

theorem failure_of_panics (h : test.Panics a.reply id [] p phase) :
    (run test a).1.failure = some (.ofPanic p) := by
  cases h with
  | build hbuild => simp [run, phases, hbuild]
  | prepare hbuild h =>
    rw [Body.panics_iff] at h
    simp [run, phases, hbuild, h, Ending.guarded]
  | execute hbuild hprepare h =>
    rw [Body.panics_iff] at h
    simp only [id] at h
    simp [run, phases, hbuild, hprepare, h, Ending.guarded]

end Replay

/-- Panics of a test, wherever they come. Once the test is built, a panic is the error of the exploration, filed as a
panic with its text, and the path is closed by one call, the last one, with the code 1. A panic while the test is built
is all that leaves an exploration, before any call on the engine. A replay makes a failure of every panic. -/
theorem Exploration.panic_fails_once_built {ε ι : Type} (E : Engine ε) (test : Test ι) (seconds : UInt32) (s : ε)
    (a : Assignment) (p : Panic) :
    let explored := run E test seconds s
    let panics := test.Panics E.reply (fun t => (openSession E seconds t).state) s p
    let f := TestFailure.ofPanic p
    let last : EngineCall := .terminatePath 1 s!"Symbolic test failed: Panic: {p.message}"
    (∀ phase, panics phase → phase ≠ .build →
        explored.value = .failed f ∧ f.fault = .testBody "Panic" p.message ∧
          explored.trace.engineCalls.getLast? = some last ∧ explored.trace.closingCalls = [last]) ∧
      (panics .build ↔ explored.value = .escaped p) ∧
      (panics .build → explored.trace.engineCalls = []) ∧
      ∀ phase, test.Panics a.reply id [] p phase → (Replay.run test a).1.failure = some f := by
  intro explored panics f last
  have hbuild : panics .build ↔ test.build = .error p := by
    constructor
    · rintro ⟨h⟩
      exact h
    · exact .build
  refine ⟨?caught, ?escaped, ?unheard, fun phase h => Replay.failure_of_panics h⟩
  case caught =>
    intro phase h hphase
    obtain ⟨built, hbuilt, hresult⟩ := resultOf_of_panics E hphase h
    have hvalue := (run_phases E hbuilt seconds s).1
    obtain ⟨hlast, hclosing⟩ := closingCalls_run E hbuilt seconds s
    rw [hresult] at hvalue
    rw [hresult, closing_ofPanic] at hlast hclosing
    exact ⟨hvalue, rfl, hlast, hclosing⟩
  case escaped => rw [hbuild, value_eq_escaped_iff]
  case unheard => exact fun h => engineCalls_of_build_error E (hbuild.1 h) seconds s

def fragile : Test Unit where
  build := .ok ()
  prepare _ := Body.put (.log "ready")
  execute _ := do
    let n ← Body.acquireInt ⟨"n", 1, none, none⟩
    if n < 0 then Body.panic (.text "negative")

theorem Exploration.panic_fails_once_built_fragile :
    let a := Assignment.ofList [("n", .int (-3))]
    let E := Engine.following a
    let explored := run E fragile 30 ()
    let panics := fragile.Panics E.reply (fun t => (openSession E 30 t).state) () (.text "negative")
    let f : TestFailure := ⟨"Panic", "negative", "panicked: negative"⟩
    let last : EngineCall := .terminatePath 1 "Symbolic test failed: Panic: negative"
    panics .execute ∧ explored.value = .failed f ∧ f.fault = .testBody "Panic" "negative" ∧
      explored.trace.engineCalls =
        [.recordLog "ready", .beginSession 30, .symbolicInt 1 "n" none none, last] ∧
      explored.trace.closingCalls = [last] ∧ (Replay.run fragile a).1.failure = some f := by
  intro a E explored panics f last
  have hpanics : panics .execute := .execute rfl rfl (.later (.now _))
  obtain ⟨hcaught, -, -, hreplay⟩ := panic_fails_once_built E fragile 30 () a (.text "negative")
  obtain ⟨hvalue, hfault, -, hclosing⟩ := hcaught .execute hpanics (by decide)
  exact ⟨hpanics, hvalue, hfault, by decide +kernel, hclosing, hreplay .execute (.execute rfl rfl (.later (.now _)))⟩

/-- A test that panics while it is built: a replay reports the panic, and nothing catches it in an exploration. -/
theorem Exploration.panic_while_building_escapes :
    let test : Test Unit := ⟨.error (.text "no factory"), fun _ => .done (), fun _ => .done ()⟩
    let E := Engine.following .empty
    let explored := run E test 5 ()
    test.Panics E.reply (fun t => (openSession E 5 t).state) () (.text "no factory") .build ∧
      ¬ (∃ f, explored.value = .failed f) ∧ explored.value = .escaped (.text "no factory") ∧
      explored.trace.engineCalls = [] ∧
      (Replay.run test .empty).1.failure = some ⟨"Panic", "no factory", "panicked: no factory"⟩ := by
  refine ⟨.build rfl, ?_, rfl, rfl, rfl⟩
  rintro ⟨f, hf⟩
  cases hf

end Concolic
