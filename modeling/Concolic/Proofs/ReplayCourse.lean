import Concolic.Proofs.RunTrace

/-!
# The record of a replay

A replay does what the test does, up to its end, its error or its panic, wherever that comes. The lines that the
test logged by then are in the replay and on the channel for the lines of tests, each once and in order, and the
failure is what ended the test.
-/

namespace Concolic

namespace Ask

def line? : Ask → Option String
  | log line => some line
  | _ => none

end Ask

namespace Activity

def line? : Activity → Option String
  | asked q => q.line?
  | _ => none

def phase? : Activity → Option Phase
  | entered p => some p
  | _ => none

/-- Whether a test does something: it enters a phase or it asks. -/
def isDoing : Activity → Bool
  | entered _ => true
  | asked _ => true
  | _ => false

end Activity

namespace Trace

def doings (t : Trace) : Trace :=
  t.filter Activity.isDoing

def phases (t : Trace) : List Phase :=
  t.filterMap Activity.phase?

def lines (t : Trace) : List String :=
  t.filterMap Activity.line?

def testEvents (t : Trace) : List Event :=
  t.events.filter Event.fromTest

@[simp] theorem doings_append (t u : Trace) : doings (t ++ u) = doings t ++ doings u :=
  List.filter_append _ _

@[simp] theorem lines_append (t u : Trace) : lines (t ++ u) = lines t ++ lines u :=
  List.filterMap_append

@[simp] theorem testEvents_append (t u : Trace) : testEvents (t ++ u) = testEvents t ++ testEvents u := by
  simp [testEvents, events]

@[simp] theorem phases_nil : phases [] = [] := rfl

@[simp] theorem phases_entered (p : Phase) (t : Trace) : phases (.entered p :: t) = p :: phases t := rfl

@[simp] theorem phases_append (t u : Trace) : phases (t ++ u) = phases t ++ phases u :=
  List.filterMap_append

theorem phases_doings (t : Trace) : t.doings.phases = t.phases := by
  induction t with
  | nil => rfl
  | cons x t ih =>
    cases x with
    | entered p => exact congrArg (p :: ·) ih
    | asked q => exact ih
    | logged e => exact ih
    | engine call => exact ih
    | collector call => exact ih

end Trace

namespace Assignment

def answer (a : Assignment) : (q : Ask) → q.Reply
  | .int r => do
    r.validate
    (a.get? r.name).elim (.ok r.default) Value.toInt
  | .sequence r => do
    r.validate
    (a.get? r.name).elim r.defaultBytes fun v => .ok v.toBytes
  | .assume _ => ()
  | .log _ => ()
  | .concretize v => v
  | .mode => .replay

end Assignment

/-- What an ending is reported as: nothing of a success, else a kind and a text. -/
def Ending.report : Ending α → Option (String × String)
  | done _ => none
  | failed e => some (e.kind, e.message)
  | panicked p => some ("Panic", p.message)

/-- What a body does when each question has one answer, and how it ends. -/
def Body.course (answer : (q : Ask) → q.Reply) : Body α → Trace × Ending α
  | done a => ([], .done a)
  | fail e => ([], .failed e)
  | panic p => ([], .panicked p)
  | ask q next =>
    let rest := (next (answer q)).course answer
    (.asked q :: rest.1, rest.2)

def Test.course (test : Test ι) (answer : (q : Ask) → q.Reply) : Trace × Ending Unit :=
  match test.build with
  | .error p => ([.entered .build], .panicked p)
  | .ok built =>
    let prepared := (test.prepare built).course answer
    let begun := .entered .build :: .entered .prepare :: prepared.1
    match prepared.2 with
    | .failed e => (begun, .failed e)
    | .panicked p => (begun, .panicked p)
    | .done i =>
      let executed := (test.execute i).course answer
      (begun ++ .entered .execute :: executed.1, executed.2)

/-- The test is built and prepares itself, as `i`. -/
def Test.Prepares (test : Test ι) (answer : (q : Ask) → q.Reply) (i : ι) : Prop :=
  ∃ built, test.build = .ok built ∧ ((test.prepare built).course answer).2 = .done i

@[simp] theorem Body.phases_course (b : Body α) (answer : (q : Ask) → q.Reply) :
    (b.course answer).1.phases = [] := by
  induction b with
  | done a => rfl
  | fail e => rfl
  | panic p => rfl
  | ask q next ih => exact ih (answer q)

namespace Test

variable {test : Test ι} {answer : (q : Ask) → q.Reply}

theorem course_of_prepares {i : ι} (h : test.Prepares answer i) :
    (test.course answer).1.phases = [.build, .prepare, .execute] ∧
      (test.course answer).2 = ((test.execute i).course answer).2 := by
  obtain ⟨built, hbuild, hend⟩ := h
  simp [course, hbuild, hend]

theorem course_of_not_prepares (h : ¬ ∃ i, test.Prepares answer i) :
    (test.course answer).1.phases <+: [.build, .prepare] ∧ ∀ u, (test.course answer).2 ≠ .done u := by
  cases hbuild : test.build with
  | error p => simp [course, hbuild]
  | ok built =>
    cases hend : ((test.prepare built).course answer).2 with
    | failed e => simp [course, hbuild, hend]
    | panicked p => simp [course, hbuild, hend]
    | done i => exact absurd ⟨i, built, hbuild, hend⟩ h

theorem execute_mem_phases_course :
    .execute ∈ (test.course answer).1.phases ↔ ∃ i, test.Prepares answer i := by
  by_cases h : ∃ i, test.Prepares answer i
  · obtain ⟨i, hi⟩ := h
    simp only [(course_of_prepares hi).1, List.mem_cons, true_or, or_true, true_iff]
    exact ⟨i, hi⟩
  · refine iff_of_false (fun hmem => ?_) h
    have hphases := (course_of_not_prepares h).1.subset hmem
    simp at hphases

/-- No phase is entered twice, and none before the one that it needs. -/
theorem phases_course_prefix : (test.course answer).1.phases <+: [.build, .prepare, .execute] := by
  by_cases h : ∃ i, test.Prepares answer i
  · obtain ⟨i, hi⟩ := h
    exact (course_of_prepares hi).1 ▸ List.prefix_rfl
  · exact (course_of_not_prepares h).1.trans ⟨[.execute], rfl⟩

theorem course_eq_done_iff :
    (test.course answer).2 = .done () ↔
      ∃ i, test.Prepares answer i ∧ ((test.execute i).course answer).2 = .done () := by
  constructor
  · intro hdone
    by_cases h : ∃ i, test.Prepares answer i
    · obtain ⟨i, hi⟩ := h
      exact ⟨i, hi, (course_of_prepares hi).2 ▸ hdone⟩
    · exact absurd hdone ((course_of_not_prepares h).2 ())
  · rintro ⟨i, hi, hdone⟩
    rw [(course_of_prepares hi).2, hdone]

end Test

/-- A run from the lines `log` on, which does `did` and gives `value`: it adds the lines that it was asked to log, and
logs each of them. -/
structure Recorded {α : Type} (log : List String) (did : Trace) (value : α) (r : Outcome (List String) α) :
    Prop where
  value : r.value = value
  state : r.state = log ++ did.lines
  doings : r.trace.doings = did
  testEvents : r.trace.testEvents = did.lines.map Event.testLine

namespace Recorded

variable {α β : Type} {log : List String}

theorem pure (a : α) : Recorded log [] a ((Pure.pure a : Run (List String) α) log) :=
  ⟨rfl, by simp [Trace.lines], rfl, rfl⟩

theorem enter (p : Phase) : Recorded log [.entered p] () (Run.enter p log) :=
  ⟨rfl, by simp [Trace.lines, Activity.line?], rfl, rfl⟩

theorem bind {r : Run (List String) α} {f : α → Run (List String) β} {t u : Trace} {a : α} {b : β}
    (h : Recorded log t a (r log)) (hnext : Recorded (log ++ t.lines) u b (f a (log ++ t.lines))) :
    Recorded log (t ++ u) b ((r >>= f) log) := by
  rw [← h.value, ← h.state] at hnext
  constructor
  · exact hnext.value
  · rw [Run.bind_apply, hnext.state, h.state, Trace.lines_append, List.append_assoc]
  · rw [Run.bind_apply, Trace.doings_append, h.doings, hnext.doings]
  · rw [Run.bind_apply, Trace.testEvents_append, h.testEvents, hnext.testEvents, Trace.lines_append,
      List.map_append]

theorem andReturn {r : Run (List String) α} {f : α → Run (List String) β} {t : Trace} {a : α} {b : β}
    (h : Recorded log t a (r log)) (hf : f a = Pure.pure b) : Recorded log t b ((r >>= f) log) := by
  have hnext : Recorded (log ++ t.lines) [] b (f a (log ++ t.lines)) := hf ▸ pure b
  rw [← List.append_nil t]
  exact h.bind hnext

theorem ask {q : Ask} (h : q.line? = none) : Recorded log [.asked q] () (Run.record [.asked q] log) := by
  have hlines : Trace.lines [.asked q] = [] := by simp [Trace.lines, Activity.line?, h]
  constructor
  · rfl
  · rw [hlines, List.append_nil, Run.record_apply]
  · rfl
  · rw [hlines]
    rfl

theorem lookUp (a : Assignment) (name default : String) :
    Recorded log [] (a.get? name) (a.lookUp name default log) := by
  have hlines : Trace.lines [] = [] := rfl
  unfold Assignment.lookUp
  cases a.get? name with
  | none => exact ⟨rfl, by rw [hlines, List.append_nil]; rfl, rfl, rfl⟩
  | some v => exact pure (some v)

theorem supply (a : Assignment) (name default : String) (use : Value → β) (fallback : β) :
    Recorded log [] ((a.get? name).elim fallback use)
      ((do
        match ← a.lookUp name default with
        | some v => return use v
        | none => return fallback : Run (List String) β) log) := by
  refine (lookUp a name default).bind (u := []) ?_
  cases a.get? name with
  | none => exact pure fallback
  | some v => exact pure (use v)

theorem reply (a : Assignment) (q : Ask) (log : List String) :
    Recorded log [.asked q] (a.answer q) ((Run.record [.asked q] >>= fun _ => a.reply q) log) := by
  cases q with
  | int r =>
    refine (ask rfl).bind (u := []) ?_
    cases hv : r.validate with
    | error f =>
      simp only [Assignment.answer, Assignment.reply, hv]
      exact pure _
    | ok u =>
      simp only [Assignment.answer, Assignment.reply, hv]
      exact supply a r.name _ Value.toInt (.ok r.default)
  | sequence r =>
    refine (ask rfl).bind (u := []) ?_
    cases hv : r.validate with
    | error f =>
      simp only [Assignment.answer, Assignment.reply, hv]
      exact pure _
    | ok u =>
      simp only [Assignment.answer, Assignment.reply, hv]
      exact supply a r.name _ (fun v => .ok v.toBytes) r.defaultBytes
  | assume condition => exact (ask rfl).bind (pure ())
  | log line => exact ⟨rfl, rfl, rfl, rfl⟩
  | concretize v => exact (ask rfl).bind (pure v)
  | mode => exact (ask rfl).bind (pure Mode.replay)

/-- The record of a body, by induction on what it still asks. -/
theorem body (a : Assignment) (b : Body α) (log : List String) :
    Recorded log (b.course a.answer).1 (b.course a.answer).2 (b.run a.reply log) := by
  induction b generalizing log with
  | done x => exact pure _
  | fail e => exact pure _
  | panic p => exact pure _
  | ask q next ih =>
    have hnext := ih (a.answer q) (log ++ Trace.lines [.asked q])
    exact (reply a q log).bind (f := fun r => (next r).run a.reply) hnext

/-- The record of the phases: a phase is entered if the one before it was done. -/
theorem phases (test : Test ι) (a : Assignment) (log : List String) :
    Recorded log (test.course a.answer).1 (test.course a.answer).2.guarded (Replay.phases test a log) := by
  cases hbuild : test.build with
  | error p =>
    simp only [Test.course, Replay.phases, hbuild]
    exact (enter .build).andReturn rfl
  | ok built =>
    have hprepare := body a (test.prepare built)
    cases hend : ((test.prepare built).course a.answer).2 with
    | failed e =>
      simp only [Test.course, Replay.phases, hbuild, hend]
      rw [hend] at hprepare
      exact (enter .build).bind ((enter .prepare).bind ((hprepare _).andReturn rfl))
    | panicked p =>
      simp only [Test.course, Replay.phases, hbuild, hend]
      rw [hend] at hprepare
      exact (enter .build).bind ((enter .prepare).bind ((hprepare _).andReturn rfl))
    | done i =>
      have hexecute := body a (test.execute i)
      simp only [Test.course, Replay.phases, hbuild, hend]
      rw [hend] at hprepare
      refine (enter .build).bind ((enter .prepare).bind ((hprepare _).bind ?_))
      exact (enter .execute).bind ((hexecute _).andReturn rfl)

end Recorded

namespace Replay

variable (test : Test ι) (a : Assignment)

theorem doings_run : (run test a).2.doings = (test.course a.answer).1 := by
  rw [← (Recorded.phases test a []).doings]
  simp only [run]
  cases (phases test a []).value with
  | error f => simp [Trace.doings, Activity.isDoing]
  | ok u => simp [Trace.doings, Activity.isDoing]

/-- What the harness logs around the phases is not on the channel for the lines of tests. -/
theorem testEvents_run : (run test a).2.testEvents = (test.course a.answer).1.lines.map Event.testLine := by
  rw [← (Recorded.phases test a []).testEvents]
  simp only [run]
  cases (phases test a []).value with
  | error f => simp [Trace.testEvents, Trace.events, Activity.event?, Event.plain]
  | ok u => simp [Trace.testEvents, Trace.events, Activity.event?, Event.plain]

theorem failure_run :
    (run test a).1.failure = match (test.course a.answer).2 with
      | .done () => none
      | .failed e => some (.ofFailure e)
      | .panicked p => some (.ofPanic p) := by
  have hvalue := (Recorded.phases test a []).value
  cases hend : (test.course a.answer).2 with
  | done u => simp [run, hvalue, hend, Ending.guarded]
  | failed e => simp [run, hvalue, hend, Ending.guarded]
  | panicked p => simp [run, hvalue, hend, Ending.guarded]

theorem failure_run_eq_none_iff : (run test a).1.failure = none ↔ (test.course a.answer).2 = .done () := by
  rw [failure_run]
  cases (test.course a.answer).2 with
  | done u => simp
  | failed e => simp
  | panicked p => simp

theorem report_run :
    (run test a).1.failure.map (fun f => (f.kind, f.message)) = (test.course a.answer).2.report := by
  rw [failure_run]
  cases (test.course a.answer).2 with
  | done u => rfl
  | failed e => rfl
  | panicked p => rfl

/-- A replay does what the test does and keeps all of it. The log holds the lines that the test logged, those of its
preparation first, up to where it ended; the failure is the error or the panic that ended it. -/
theorem run_follows_course :
    let replay := (run test a).1
    let trace := (run test a).2
    let course := test.course a.answer
    replay.assignment = a ∧
      trace.doings = course.1 ∧
      replay.log = course.1.lines ∧
      trace.testEvents = replay.log.map Event.testLine ∧
      trace.testEvents.map Event.message = replay.log.map ("*log* " ++ ·) ∧
      trace.phases <+: [.build, .prepare, .execute] ∧
      (.execute ∈ trace.phases ↔ ∃ i, test.Prepares a.answer i) ∧
      (replay.failure = none ↔
        ∃ i, test.Prepares a.answer i ∧ ((test.execute i).course a.answer).2 = .done ()) ∧
      replay.failure.map (fun f => (f.kind, f.message)) = course.2.report := by
  intro replay trace course
  have hdoings : trace.doings = course.1 := doings_run test a
  have hphases : trace.phases = course.1.phases := by rw [← Trace.phases_doings, hdoings]
  have hlog : replay.log = course.1.lines := (log_run test a).trans (Recorded.phases test a []).state
  have hevents : trace.testEvents = replay.log.map Event.testLine := by rw [hlog, testEvents_run test a]
  refine ⟨rfl, hdoings, hlog, hevents, ?messages, ?entered, ?executed, ?succeeded, report_run test a⟩
  case messages =>
    rw [hevents, List.map_map]
    rfl
  case entered =>
    rw [hphases]
    exact Test.phases_course_prefix
  case executed =>
    rw [hphases]
    exact Test.execute_mem_phases_course
  case succeeded => exact (failure_run_eq_none_iff test a).trans Test.course_eq_done_iff

/-- A test that logs a line, and then a second one before a panic. -/
example : (run ⟨.ok (), fun _ => .ask (.log "first") fun _ => .done (),
      fun _ => .ask (.log "second") fun _ => .panic .textless⟩ a).1 =
    ⟨a, ["first", "second"], some ⟨"Panic", "non-string panic payload", "panicked: non-string panic payload"⟩⟩ :=
  rfl

end Replay

end Concolic
