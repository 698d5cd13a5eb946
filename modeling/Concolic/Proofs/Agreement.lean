import Concolic.Proofs.RunTrace
import Concolic.Test.Exploration

/-!
# Agreement of exploration and replay

An engine may answer every acquisition from an assignment. A test that does not look at the mode, and that
acquires each bound name at the kind of its value, cannot tell such an engine from a replay of the
assignment: it logs the same lines and it ends in the same way.
-/

namespace Concolic

namespace Assignment

/-- Whether a question has one answer in both modes: the mode has not, and a bound name has it only at the
kind of its value. -/
def Suits (a : Assignment) : Ask → Prop
  | .int r => ∀ v, a.get? r.name = some v → v.kind = .integer
  | .sequence r => ∀ v, a.get? r.name = some v → v.kind = .sequence
  | .assume _ => True
  | .log _ => True
  | .concretize _ => True
  | .mode => False

instance (a : Assignment) (q : Ask) : Decidable (a.Suits q) := by
  cases q <;> unfold Suits <;> infer_instance

end Assignment

/-- An engine that gives an acquired name its value in an assignment, gives a name without one the default
of the request, and leaves values as they are. Nothing is said about its other answers. -/
structure Engine.AnswersFrom {ε : Type} (E : Engine ε) (a : Assignment) : Prop where
  int_bound {name : String} {n : Int32} (h : a.get? name = some (.int n)) (default : Int32)
    (max min : Option Int32) (s : ε) : (E.answer (.symbolicInt default name max min) s).1 = n
  int_unbound {name : String} (h : a.get? name = none) (default : Int32)
    (max min : Option Int32) (s : ε) : (E.answer (.symbolicInt default name max min) s).1 = default
  sequence_bound {name : String} {b : Bytes} (h : a.get? name = some (.bytes b)) (default : Bytes)
    (maxSize minSize : Option Nat) (s : ε) :
    (E.answer (.symbolicSequence default name maxSize minSize) s).1 = b
  sequence_unbound {name : String} (h : a.get? name = none) (default : Bytes)
    (maxSize minSize : Option Nat) (s : ε) :
    (E.answer (.symbolicSequence default name maxSize minSize) s).1 = default
  concretize (v : Value) (s : ε) : (E.answer (.concretize v) s).1 = v

/-- A run under an engine and a replay that began with the lines `log`: they give the same value, and the
replay has added the lines that the engine was told to record. -/
structure Agree {ε α : Type} (log : List String) (explored : Outcome ε α)
    (replayed : Outcome (List String) α) : Prop where
  value : explored.value = replayed.value
  lines : replayed.state = log ++ explored.trace.recordedLines

namespace Agree

variable {ε α β : Type}

theorem pure (a : α) (s : ε) (log : List String) :
    Agree log ((Pure.pure a : Run ε α) s) ((Pure.pure a : Run (List String) α) log) :=
  ⟨rfl, by simp⟩

theorem bind {r : Run ε α} {t : Run (List String) α} {f : α → Run ε β}
    {g : α → Run (List String) β} {s : ε} {log : List String} (h : Agree log (r s) (t log))
    (hnext : Agree (t log).state (f (t log).value (r s).state)
      (g (t log).value (t log).state)) :
    Agree log ((r >>= f) s) ((t >>= g) log) := by
  constructor
  · simpa only [Run.bind_apply, h.value] using hnext.value
  · simp only [Run.bind_apply, h.value, Trace.recordedLines_append]
    rw [hnext.lines, h.lines, List.append_assoc]

end Agree

namespace Engine.AnswersFrom

variable {ε α : Type} {E : Engine ε} {a : Assignment}

theorem agree_int (hE : E.AnswersFrom a) {r : IntRequest} (h : a.Suits (.int r)) (s : ε)
    (log : List String) : Agree log (E.reply (.int r) s) (a.reply (.int r) log) := by
  simp only [Engine.reply, Assignment.reply]
  cases hv : r.validate with
  | error f => exact Agree.pure _ _ _
  | ok u =>
    cases hg : a.get? r.name with
    | none =>
      have hanswer := hE.int_unbound hg r.default r.max r.min s
      constructor <;> simp [hg, hanswer, EngineCall.line?]
    | some v =>
      have hk := h v hg
      cases v with
      | bytes b => cases hk
      | int n =>
        have hanswer := hE.int_bound hg r.default r.max r.min s
        constructor <;> simp [hg, hanswer, EngineCall.line?, Value.toInt]

theorem agree_sequence (hE : E.AnswersFrom a) {r : SequenceRequest} (h : a.Suits (.sequence r)) (s : ε)
    (log : List String) : Agree log (E.reply (.sequence r) s) (a.reply (.sequence r) log) := by
  simp only [Engine.reply, Assignment.reply]
  cases hd : r.defaultBytes with
  | error f =>
    have hv : r.validate = .error f := by simp [SequenceRequest.validate, hd, bind, Except.bind]
    rw [hv]
    exact Agree.pure _ _ _
  | ok d =>
    cases hv : r.validate with
    | error f => exact Agree.pure _ _ _
    | ok u =>
      -- Asking for ASCII text is one more call, which records no line.
      cases hg : a.get? r.name with
      | none =>
        have hanswer := hE.sequence_unbound hg d r.maxSize r.minSize s
        cases r.asciiOnly <;> constructor <;> simp [hg, hanswer, EngineCall.line?]
      | some v =>
        have hk := h v hg
        cases v with
        | int n => cases hk
        | bytes b =>
          have hanswer := hE.sequence_bound hg d r.maxSize r.minSize s
          cases r.asciiOnly <;> constructor <;>
            simp [hg, hanswer, EngineCall.line?, Value.toBytes]

theorem agree_reply (hE : E.AnswersFrom a) {q : Ask} (h : a.Suits q) (s : ε) (log : List String) :
    Agree log (E.reply q s) (a.reply q log) := by
  cases q with
  | int r => exact hE.agree_int h s log
  | sequence r => exact hE.agree_sequence h s log
  | assume condition => exact ⟨rfl, by simp [Engine.reply, Assignment.reply, EngineCall.line?]⟩
  | log line => exact ⟨rfl, by simp [Engine.reply, Assignment.reply, EngineCall.line?]⟩
  | concretize v =>
    refine ⟨hE.concretize v s, ?_⟩
    simp [Engine.reply, Assignment.reply, EngineCall.line?]
  | mode => exact h.elim

/-- A body runs alike in both modes when each question that it asks of the assignment suits it. -/
theorem agree_run (hE : E.AnswersFrom a) (b : Body α) (s : ε) (log : List String)
    (h : ∀ q ∈ (b.run a.reply log).trace.questions, a.Suits q) :
    Agree log (b.run E.reply s) (b.run a.reply log) := by
  induction b generalizing s log with
  | done x => exact Agree.pure _ _ _
  | fail e => exact Agree.pure _ _ _
  | panic p => exact Agree.pure _ _ _
  | ask q next ih =>
    have hq : a.Suits q := h q (by simp [Body.run])
    have hreply := hE.agree_reply hq s log
    refine Agree.bind ⟨rfl, by simp⟩ (Agree.bind hreply ?_)
    apply ih
    intro q' hq'
    simp only [Run.record_apply] at hq'
    exact h q' (by simp [Body.run, hq'])

end Engine.AnswersFrom

namespace Exploration

variable {ε ι : Type} (E : Engine ε)

def ofResult : Except TestFailure Unit → Exploration
  | .ok () => completed
  | .error f => failed f

@[simp] theorem recordedLines_openSession (seconds : UInt32) (s : ε) :
    (openSession E seconds s).trace.recordedLines = [] := by
  simp only [openSession, Run.bind_apply, Engine.value_call, Trace.recordedLines_append,
    Engine.recordedLines_call, EngineCall.line?]
  cases (E.answer (.beginSession seconds) s).1 <;> simp

@[simp] theorem value_succeed (session : Bool) (s : ε) : (succeed E session s).value = completed := by
  cases session <;> rfl

@[simp] theorem recordedLines_succeed (session : Bool) (s : ε) :
    (succeed E session s).trace.recordedLines = [] := by
  cases session <;> simp [succeed, EngineCall.line?]

@[simp] theorem value_abort (f : TestFailure) (s : ε) : (abort E f s).value = failed f := rfl

@[simp] theorem recordedLines_abort (f : TestFailure) (s : ε) :
    (abort E f s).trace.recordedLines = [] := by
  simp [abort, EngineCall.line?]

variable {E} {a : Assignment} {test : Test ι} {built : ι}

theorem run_like_phases (hE : E.AnswersFrom a) (hbuild : test.build = .ok built)
    (hsuits : ∀ q ∈ (Replay.phases test a []).trace.questions, a.Suits q) (seconds : UInt32) (s : ε) :
    (run E test seconds s).value = ofResult (Replay.phases test a []).value ∧
      (run E test seconds s).trace.recordedLines = (Replay.phases test a []).state := by
  have hprepare : Agree [] ((test.prepare built).run E.reply s)
      ((test.prepare built).run a.reply []) := by
    apply hE.agree_run
    intro q hq
    exact hsuits q (by simp [Replay.phases, hbuild, hq])
  have hlines := hprepare.lines
  rw [List.nil_append] at hlines
  cases hg : ((test.prepare built).run a.reply []).value.guarded with
  | error f => simp [run, Replay.phases, hbuild, hprepare.value, hg, hlines, ofResult]
  | ok prepared =>
    -- The session is opened between the phases; it changes the engine and records no line.
    let opened := (openSession E seconds ((test.prepare built).run E.reply s).state).state
    have hexecute : Agree ((test.prepare built).run a.reply []).state
        ((test.execute prepared).run E.reply opened)
        ((test.execute prepared).run a.reply ((test.prepare built).run a.reply []).state) := by
      apply hE.agree_run
      intro q hq
      exact hsuits q (by simp [Replay.phases, hbuild, hg, hq])
    have hmore : ((test.prepare built).run E.reply s).trace.recordedLines ++
        ((test.execute prepared).run E.reply opened).trace.recordedLines =
          ((test.execute prepared).run a.reply
            ((test.prepare built).run a.reply []).state).state := by
      rw [hexecute.lines, hlines]
    cases he : ((test.execute prepared).run a.reply
        ((test.prepare built).run a.reply []).state).value.guarded <;>
      simp [run, Replay.phases, hbuild, hprepare.value, hg, hexecute.value, he, hmore, opened,
        ofResult]

end Exploration

namespace Replay

variable {ι : Type} (test : Test ι) (a : Assignment)

theorem ofResult_phases : Exploration.ofResult (phases test a []).value =
    match (run test a).1.failure with
    | none => .completed
    | some f => .failed f := by
  simp only [run]
  cases (phases test a []).value <;> rfl

end Replay

/-- A test that cannot tell the modes apart ends alike under an engine that answers from an assignment and in
a replay of it, whether or not the engine takes the session: the engine is told to record the lines of the
replay, the exploration completes exactly if the replay does, and the error of a failed one is an error of
the test body with the kind and the message that the replay reports. -/
theorem Exploration.agrees_with_replay {ε ι : Type} {E : Engine ε} {a : Assignment} {test : Test ι}
    {built : ι} (hE : E.AnswersFrom a) (hbuild : test.build = .ok built)
    (hsuits : ∀ q ∈ (Replay.run test a).2.questions, a.Suits q) (seconds : UInt32) (s : ε) :
    let explored := Exploration.run E test seconds s
    let replayed := (Replay.run test a).1
    explored.trace.recordedLines = replayed.log ∧
      (explored.value = .completed ↔ replayed.failure = none) ∧
      ∀ f, replayed.failure = some f →
        explored.value = .failed f ∧ f.fault = .testBody f.kind f.message := by
  intro explored replayed
  rw [Replay.questions_run] at hsuits
  obtain ⟨hvalue, hlines⟩ := Exploration.run_like_phases hE hbuild hsuits seconds s
  rw [Replay.ofResult_phases] at hvalue
  have hvalue' : explored.value = match replayed.failure with
      | none => .completed
      | some f => .failed f := hvalue
  refine ⟨hlines.trans (Replay.log_run test a).symm, ?_, ?_⟩
  · rw [hvalue']
    cases replayed.failure <;> simp
  · intro f hf
    rw [hvalue', hf]
    exact ⟨rfl, rfl⟩

def Engine.following (a : Assignment) : Engine Unit where
  answer
    | .beginSession _, _ => (.ok (), (), [])
    | .symbolicInt default name _ _, _ => (((a.get? name).bind Value.int?).getD default, (), [])
    | .symbolicSequence default name _ _, _ =>
      (((a.get? name).bind Value.bytes?).getD default, (), [])
    | .concretize v, _ => (v, (), [])
    | .endSession _, _ => ((), (), [])
    | .terminatePath _ _, _ => ((), (), [])
    | .assume _, _ => ((), (), [])
    | .assumeAscii _, _ => ((), (), [])
    | .recordLog _, _ => ((), (), [])
    | .calibrate _, _ => ((), (), [])

theorem Engine.following_answersFrom (a : Assignment) : (Engine.following a).AnswersFrom a where
  int_bound h default max min s := by simp [Engine.following, h, Value.int?]
  int_unbound h default max min s := by simp [Engine.following, h]
  sequence_bound h default maxSize minSize s := by simp [Engine.following, h, Value.bytes?]
  sequence_unbound h default maxSize minSize s := by simp [Engine.following, h]
  concretize v s := rfl

/-- A test that acquires a bound integer while it prepares itself, then a bound byte string and an unbound
integer, and that fails on a request with its bounds in the wrong order. -/
def crossedBounds : Test Int32 where
  build := .ok 0
  prepare _ := do
    let n ← Body.acquireInt ⟨"n", 1, some 0, none⟩
    Body.put (.log "prepared")
    return n
  execute n := do
    let text ← Body.acquireSequence ⟨"text", .bytes [], none, some 9, true⟩
    let more ← Body.acquireInt ⟨"more", 7, none, none⟩
    Body.put (.assume (n < more))
    Body.put (.log (Utf8.lossy text))
    let _ ← Body.acquireInt ⟨"n", 1, some 2, some 1⟩
    return ()

theorem Exploration.agrees_with_replay_crossedBounds :
    let a := Assignment.ofList [("n", .int (-3)), ("text", .bytes [0x61, 0x62])]
    let explored := Exploration.run (Engine.following a) crossedBounds 30 ()
    let replayed := (Replay.run crossedBounds a).1
    (Engine.following a).AnswersFrom a ∧ crossedBounds.build = .ok 0 ∧
      (∀ q ∈ (Replay.run crossedBounds a).2.questions, a.Suits q) ∧
      explored.trace.recordedLines = replayed.log ∧
      (explored.value = .completed ↔ replayed.failure = none) ∧
      ∀ f, replayed.failure = some f →
        explored.value = .failed f ∧ f.fault = .testBody f.kind f.message := by
  have hanswers := Engine.following_answersFrom
    (.ofList [("n", .int (-3)), ("text", .bytes [0x61, 0x62])])
  have hsuits : ∀ q ∈ (Replay.run crossedBounds
      (.ofList [("n", .int (-3)), ("text", .bytes [0x61, 0x62])])).2.questions,
      (Assignment.ofList [("n", .int (-3)), ("text", .bytes [0x61, 0x62])]).Suits q := by decide
  exact ⟨hanswers, rfl, hsuits, Exploration.agrees_with_replay hanswers rfl hsuits 30 ()⟩

end Concolic
