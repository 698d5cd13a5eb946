import Concolic.Proofs.BatchHistory
import Mathlib.Data.List.Basic

/-!
# Ledgers of batches

What a batch reports is put together from what each of its inputs comes to alone: the reports of single
inputs follow one another, and an entry moves up by the number of inputs before its own. Every operation
adds the inputs that it takes, and none of the rest of the batch plays a part.
-/

namespace Concolic

namespace Trace

theorem questions_events (es : List Event) : questions (es.map .logged) = [] :=
  filterMap_events (fun _ => rfl) es

end Trace

namespace BatchReport

/-- The report of one batch and then another, with their entries as they are. -/
def append (r r' : BatchReport) : BatchReport :=
  ⟨r.replayed + r'.replayed, r.succeeded + r'.succeeded, r.failures ++ r'.failures,
    r.mismatches ++ r'.mismatches⟩

instance : Append BatchReport := ⟨append⟩

/-- The report with `n` inputs before it. -/
def shift (n : Nat) (r : BatchReport) : BatchReport :=
  { r with
    failures := r.failures.map fun f => { f with index := n + f.index }
    mismatches := r.mismatches.map fun m => { m with index := n + m.index } }

@[simp] theorem replayed_append (r r' : BatchReport) :
    (r ++ r').replayed = r.replayed + r'.replayed := rfl

@[simp] theorem succeeded_append (r r' : BatchReport) :
    (r ++ r').succeeded = r.succeeded + r'.succeeded := rfl

@[simp] theorem failures_append (r r' : BatchReport) :
    (r ++ r').failures = r.failures ++ r'.failures := rfl

@[simp] theorem mismatches_append (r r' : BatchReport) :
    (r ++ r').mismatches = r.mismatches ++ r'.mismatches := rfl

theorem append_eq (r r' : BatchReport) :
    r ++ r' = ⟨r.replayed + r'.replayed, r.succeeded + r'.succeeded, r.failures ++ r'.failures,
      r.mismatches ++ r'.mismatches⟩ := rfl

theorem append_assoc (r r' r'' : BatchReport) : r ++ r' ++ r'' = r ++ (r' ++ r'') := by
  simp [append_eq, Nat.add_assoc]

@[simp] theorem empty_append (r : BatchReport) : empty ++ r = r := by
  simp [append_eq, empty]

@[simp] theorem append_empty (r : BatchReport) : r ++ empty = r := by
  simp [append_eq, empty]

@[simp] theorem shift_empty (n : Nat) : empty.shift n = empty := rfl

@[simp] theorem shift_zero (r : BatchReport) : r.shift 0 = r := by
  simp [shift]

@[simp] theorem shift_append (n : Nat) (r r' : BatchReport) :
    (r ++ r').shift n = r.shift n ++ r'.shift n := by
  simp [shift, append_eq]

theorem shift_shift (m n : Nat) (r : BatchReport) : (r.shift n).shift m = r.shift (m + n) := by
  simp [shift, Nat.add_assoc]

end BatchReport

/-- What a batch takes as one input. -/
inductive BatchInput
  | assignment (a : Assignment)
  | recorded (c : TestCase)
  /-- An input that could not be decoded. -/
  | undecodable (f : Fault)

namespace BatchInput

def ofItem : Except Fault TestCase → BatchInput
  | .ok c => recorded c
  | .error f => undecodable f

/-- The values that a test is run with, if one is run. -/
def values? : BatchInput → Option Assignment
  | assignment a => some a
  | recorded c => some c.assignment
  | undecodable _ => none

end BatchInput

inductive Verdict
  | succeeded
  | failed (f : TestFailure)
  | undecodable (f : Fault)
  deriving DecidableEq

namespace Verdict

def ofRun (run : Replay) : Verdict :=
  match run.failure with
  | none => succeeded
  | some f => failed f

def isRun : Verdict → Bool
  | undecodable _ => false
  | _ => true

end Verdict

structure Trial (ι : Type) where
  test : Test ι
  input : BatchInput

namespace Trial

variable {ι : Type}

/-- What becomes of the input by a replay of its own. -/
def verdict (x : Trial ι) : Verdict :=
  match x.input with
  | .assignment a => .ofRun (Replay.run x.test a).1
  | .recorded c => .ofRun (Replay.run x.test c.assignment).1
  | .undecodable f => .undecodable f

def failure? (x : Trial ι) (index : Nat) : Option BatchFailure :=
  match x.verdict with
  | .succeeded => none
  | .failed f => some ⟨index, f.kind, x.input.values?.getD .empty, f.trace⟩
  | .undecodable f => some ⟨index, f.kindName, .empty, f.message⟩

def mismatch? (compare : Bool) (x : Trial ι) (index : Nat) : Option Mismatch :=
  match x.input with
  | .recorded c =>
    if compare then
      Mismatch.check index c.pathId c.output (Replay.run x.test c.assignment).1.output
    else none
  | _ => none

def alone (compare : Bool) (x : Trial ι) : BatchReport where
  replayed := if x.verdict.isRun then 1 else 0
  succeeded := if x.verdict = .succeeded then 1 else 0
  failures := (x.failure? 0).toList
  mismatches := (x.mismatch? compare 0).toList

def questions (x : Trial ι) : List Ask :=
  match x.input.values? with
  | some a => (Replay.run x.test a).2.questions
  | none => []

variable (x : Trial ι)

theorem map_failure? (index : Nat) :
    (x.failure? 0).map (fun f => { f with index := index + f.index }) = x.failure? index := by
  unfold failure?
  cases x.verdict <;> rfl

theorem map_mismatch? (compare : Bool) (index : Nat) :
    (x.mismatch? compare 0).map (fun m => { m with index := index + m.index }) =
      x.mismatch? compare index := by
  obtain ⟨test, input⟩ := x
  cases input with
  | assignment a => rfl
  | undecodable f => rfl
  | recorded c =>
    cases compare with
    | false => rfl
    | true =>
      simp only [mismatch?, if_true, Mismatch.check]
      split <;> rfl

theorem shift_alone (compare : Bool) (index : Nat) :
    (x.alone compare).shift index =
      { x.alone compare with
        failures := (x.failure? index).toList
        mismatches := (x.mismatch? compare index).toList } := by
  simp only [BatchReport.shift, alone, ← x.map_failure? index, ← x.map_mismatch? compare index,
    Option.toList_map]

end Trial

namespace BatchReport

variable {ι : Type}

/-- The report on inputs one after another. -/
def ofTrials (compare : Bool) : List (Trial ι) → BatchReport
  | [] => empty
  | x :: xs => x.alone compare ++ (ofTrials compare xs).shift 1

@[simp] theorem ofTrials_nil (compare : Bool) : ofTrials compare ([] : List (Trial ι)) = empty := rfl

theorem ofTrials_singleton (compare : Bool) (x : Trial ι) : ofTrials compare [x] = x.alone compare := by
  simp [ofTrials]

theorem ofTrials_append (compare : Bool) (xs ys : List (Trial ι)) :
    ofTrials compare (xs ++ ys) =
      ofTrials compare xs ++ (ofTrials compare ys).shift xs.length := by
  induction xs with
  | nil => simp
  | cons x xs ih =>
    simp only [List.cons_append, ofTrials, ih, shift_append, shift_shift, append_assoc,
      List.length_cons, Nat.add_comm 1]

theorem shift_ofTrials (compare : Bool) (n : Nat) (xs : List (Trial ι)) :
    (ofTrials compare xs).shift n =
      { replayed := xs.countP fun x => x.verdict.isRun
        succeeded := xs.countP fun x => x.verdict = .succeeded
        failures := (xs.zipIdx n).filterMap fun x => x.1.failure? x.2
        mismatches := (xs.zipIdx n).filterMap fun x => x.1.mismatch? compare x.2 } := by
  induction xs generalizing n with
  | nil => rfl
  | cons x xs ih =>
    rw [ofTrials, shift_append, shift_shift, ih, Trial.shift_alone, append_eq]
    simp [Trial.alone, List.countP_cons, Nat.add_comm, List.filterMap_eq_flatMap_toList]

theorem ofTrials_eq (compare : Bool) (xs : List (Trial ι)) :
    ofTrials compare xs =
      { replayed := xs.countP fun x => x.verdict.isRun
        succeeded := xs.countP fun x => x.verdict = .succeeded
        failures := xs.zipIdx.filterMap fun x => x.1.failure? x.2
        mismatches := xs.zipIdx.filterMap fun x => x.1.mismatch? compare x.2 } := by
  rw [← shift_ofTrials, shift_zero]

end BatchReport

namespace Operation

def inputs : Operation → List BatchInput
  | assignment a => [.assignment a]
  | assignments as => as.map .assignment
  | recorded c => [.recorded c]
  | items found => found.map .ofItem
  | file (.ok feed) => (CaseReader.items feed).1.map .ofItem
  | file (.error _) => []
  | collect => []

end Operation

/-- The inputs of a history, each with the test that is run on it. -/
def trials {ι : Type} (steps : List (BatchStep ι)) : List (Trial ι) :=
  steps.flatMap fun (test, op) => op.inputs.map (Trial.mk test)

/-- A computation on a batch that takes the inputs `xs`, from a state of the batch: it numbers them from the
position on, adds their report to the report, and asks their questions. -/
structure Takes {ι κ α : Type} (compare : Bool) (xs : List (Trial ι)) (b : Batch κ)
    (outcome : Outcome (Batch κ) α) : Prop where
  position : outcome.state.position = b.position + xs.length
  report : outcome.state.report = b.report ++ (BatchReport.ofTrials compare xs).shift b.position
  questions : outcome.trace.questions = xs.flatMap Trial.questions

namespace Takes

variable {ι κ α β : Type} {compare : Bool} {xs ys : List (Trial ι)} {b : Batch κ}

theorem nothing {outcome : Outcome (Batch κ) α} (hposition : outcome.state.position = b.position)
    (hreport : outcome.state.report = b.report) (hquestions : outcome.trace.questions = []) :
    Takes compare ([] : List (Trial ι)) b outcome :=
  ⟨by simp [hposition], by simp [hreport], by simp [hquestions]⟩

theorem report_singleton {x : Trial ι} {outcome : Outcome (Batch κ) α}
    (h : Takes compare [x] b outcome) :
    outcome.state.report = b.report ++ (x.alone compare).shift b.position := by
  rw [h.report, BatchReport.ofTrials_singleton]

theorem report_append {outcome : Outcome (Batch κ) α} {outcome' : Outcome (Batch κ) β}
    (h : Takes compare xs b outcome) (h' : Takes compare ys outcome.state outcome') :
    outcome'.state.report =
      b.report ++ (BatchReport.ofTrials compare (xs ++ ys)).shift b.position := by
  rw [h'.report, h.report, h.position, BatchReport.ofTrials_append, BatchReport.shift_append,
    BatchReport.shift_shift, BatchReport.append_assoc]

theorem bind {r : Run (Batch κ) α} {f : α → Run (Batch κ) β} (hr : Takes compare xs b (r b))
    (hf : Takes compare ys (r b).state (f (r b).value (r b).state)) :
    Takes compare (xs ++ ys) b ((r >>= f) b) where
  position := by
    simp only [Run.bind_apply, hf.position, hr.position, List.length_append, Nat.add_assoc]
  report := by simpa only [Run.bind_apply] using hr.report_append hf
  questions := by
    simp only [Run.bind_apply, Trace.questions_append, hr.questions, hf.questions,
      List.flatMap_append]

theorem andReturn {r : Run (Batch κ) α} (f : α → β) (hr : Takes compare xs b (r b)) :
    Takes compare xs b ((do let a ← r; return f a : Run (Batch κ) β) b) := by
  simpa using hr.bind (f := fun a => pure (f a)) (nothing rfl rfl rfl)

theorem forM {f : α → Run (Batch κ) PUnit} {g : α → List (Trial ι)}
    (hf : ∀ a b, Takes compare (g a) b (f a b)) (as : List α) (b : Batch κ) :
    Takes compare (as.flatMap g) b (as.forM f b) := by
  induction as generalizing b with
  | nil => exact nothing rfl rfl rfl
  | cons a as ih => exact (hf a b).bind (ih _)

end Takes

namespace BatchPlan

variable {ι κ : Type} (plan : BatchPlan ι κ)

theorem questions_begin (b : Batch κ) : (plan.beginMeasurement b).trace.questions = [] := by
  obtain ⟨s, -, -, h⟩ | ⟨-, es, h⟩ := plan.begin_cases b
  · rw [h]
    rfl
  · rw [h]
    exact Trace.questions_events es

theorem note_run (compare : Bool) (index : Nat) (a : Assignment) (r : BatchReport) :
    note index (Replay.run plan.test a).1 r =
      r ++ (Trial.alone compare ⟨plan.test, .assignment a⟩).shift index := by
  have hassignment : (Replay.run plan.test a).1.assignment = a := rfl
  rw [Trial.shift_alone]
  cases h : (Replay.run plan.test a).1.failure <;>
    simp [note, h, BatchReport.append_eq, Trial.alone, Trial.failure?, Trial.mismatch?,
      Trial.verdict, BatchInput.values?, Verdict.ofRun, Verdict.isRun, hassignment]

theorem questions_collect (b : Batch κ) : (plan.collect b).trace.questions = [] := by
  have hbegin := plan.questions_begin b
  obtain ⟨m, -, h⟩ | ⟨-, h⟩ := plan.collect_cases b
  · have hstop : (Measurement.stop plan.collector m).trace.questions = [] := by
      obtain ⟨s, running⟩ := m
      cases running <;> rfl
    have hreport : (plan.collector.reconcile plan.coverage).Obeys (.lacking Activity.question?) :=
      plan.collector.obeys_reconcile (fun _ _ _ => rfl) (fun _ _ => rfl) plan.coverage
    rw [h, Trace.questions_append, Trace.questions_append, hbegin, hstop]
    exact hreport _
  · rw [h, hbegin]

theorem takes_begin (b : Batch κ) :
    Takes plan.config.compareOutput ([] : List (Trial ι)) b (plan.beginMeasurement b) :=
  .nothing (by rw [state_begin]) (by rw [state_begin]) (plan.questions_begin b)

theorem value_replayAssignment (a : Assignment) (b : Batch κ) :
    (plan.replayAssignment a b).value = (Replay.run plan.test a).1 := by
  simp [replayAssignment, replayNext_apply]

theorem takes_replayAssignment (a : Assignment) (b : Batch κ) :
    Takes plan.config.compareOutput [⟨plan.test, .assignment a⟩] b (plan.replayAssignment a b) where
  position := by simp [replayAssignment, replayNext_apply]
  report := by
    simp [replayAssignment, replayNext_apply, BatchReport.ofTrials_singleton,
      plan.note_run plan.config.compareOutput]
  questions := by
    simp [replayAssignment, replayNext_apply, questions_begin, Trial.questions, BatchInput.values?]

theorem takes_replayAssignments (as : List Assignment) (b : Batch κ) :
    Takes plan.config.compareOutput ((as.map .assignment).map (.mk plan.test)) b
      (plan.replayAssignments as b) := by
  rw [List.map_map, List.map_eq_flatMap]
  exact .forM (fun a b => (plan.takes_replayAssignment a b).andReturn _) as b

/-- A test case is replayed as its assignment is, and then its mismatch is noted if it has one. -/
theorem replayCase_apply (c : TestCase) (b : Batch κ) :
    plan.replayCase c b =
      let replayed := plan.replayNext c.assignment b
      let found :=
        (Trial.mismatch? plan.config.compareOutput ⟨plan.test, .recorded c⟩ b.position).toList
      ⟨(Replay.run plan.test c.assignment).1,
        { replayed.state with
          report :=
            { replayed.state.report with
              mismatches := replayed.state.report.mismatches ++ found } },
        replayed.trace ++
          ((found.flatMap Mismatch.warnings).map fun w => .plain .warn w).map .logged⟩ := by
  have hvalue : (plan.replayNext c.assignment b).value =
      (b.position, (Replay.run plan.test c.assignment).1) := by
    rw [replayNext_apply]
  simp only [replayCase, Bind.bind, hvalue, Trial.mismatch?]
  split
  · cases h : Mismatch.check b.position c.pathId c.output
      (Replay.run plan.test c.assignment).1.output with
    | none => simp
    | some m => simp
  · simp

theorem takes_replayCase (c : TestCase) (b : Batch κ) :
    Takes plan.config.compareOutput [⟨plan.test, .recorded c⟩] b (plan.replayCase c b) where
  position := by simp [replayCase_apply, replayNext_apply]
  report := by
    have hnote := plan.note_run plan.config.compareOutput b.position c.assignment b.report
    rw [Trial.shift_alone] at hnote
    have hnone : Trial.mismatch? plan.config.compareOutput
        ⟨plan.test, .assignment c.assignment⟩ b.position = none := rfl
    rw [BatchReport.ofTrials_singleton, Trial.shift_alone, replayCase_apply, replayNext_apply]
    simp only [hnote, BatchReport.append_eq, hnone, Option.toList_none, List.append_nil]
    rfl
  questions := by
    rw [replayCase_apply, replayNext_apply]
    simp only [Trace.questions_append, Trace.questions_events, questions_begin]
    simp [Trial.questions, BatchInput.values?]

theorem takes_skip (compare : Bool) (test : Test ι) (f : Fault) (b : Batch κ) :
    Takes compare [⟨test, .undecodable f⟩] b (skip f b) where
  position := by simp [skip_apply]
  report := by
    rw [BatchReport.ofTrials_singleton, Trial.shift_alone, skip_apply]
    simp [BatchReport.append_eq, Trial.alone, Trial.verdict, Trial.failure?, Trial.mismatch?,
      Verdict.isRun]
  questions := by simp [skip_apply, Trial.questions, BatchInput.values?]

theorem takes_replayItems (items : List (Except Fault TestCase)) (b : Batch κ) :
    Takes plan.config.compareOutput ((items.map .ofItem).map (.mk plan.test)) b
      (plan.replayItems items b) := by
  rw [List.map_map, List.map_eq_flatMap, ← List.nil_append (items.flatMap _)]
  refine (plan.takes_begin b).bind (.forM (fun item b => ?_) items _)
  cases item with
  | ok c => exact (plan.takes_replayCase c b).andReturn _
  | error f => exact takes_skip _ plan.test f b

theorem takes_replayFeed (feed : Feed) (b : Batch κ) :
    Takes plan.config.compareOutput
      (((CaseReader.items feed).1.map .ofItem).map (.mk plan.test)) b
      (plan.replayFeed feed b) := by
  have h := (plan.takes_replayItems (CaseReader.items feed).1 b).bind
    (f := fun _ => Run.record ((CaseReader.items feed).2.map .logged))
    (.nothing rfl rfl (Trace.questions_events _))
  rw [List.append_nil] at h
  exact h

theorem takes_collect (compare : Bool) (b : Batch κ) :
    Takes compare ([] : List (Trial ι)) b (plan.collect b) :=
  .nothing (by rw [state_collect]) (by rw [state_collect]) (plan.questions_collect b)

theorem takes_perform (op : Operation) (b : Batch κ) :
    Takes plan.config.compareOutput (op.inputs.map (.mk plan.test)) b
      (plan.perform op b) := by
  cases op with
  | assignment a => exact plan.takes_replayAssignment a b
  | assignments as => exact plan.takes_replayAssignments as b
  | recorded c => exact plan.takes_replayCase c b
  | items items => exact plan.takes_replayItems items b
  | file opened =>
    cases opened with
    | error reason => exact .nothing rfl rfl rfl
    | ok feed => exact (plan.takes_replayFeed feed b).andReturn fun _ => Except.ok ()
  | collect => exact plan.takes_collect _ b

/-- A history takes its inputs, whatever its operations and their tests. -/
theorem takes_follow (steps : List (BatchStep ι)) (b : Batch κ) :
    Takes plan.config.compareOutput (trials steps) b (plan.follow steps b) := by
  induction steps generalizing b with
  | nil => exact .nothing rfl rfl rfl
  | cons step steps ih =>
    exact (takes_perform { plan with test := step.1 } step.2 b).bind (ih _)

theorem position_follow (collector : Option κ) (steps : List (BatchStep ι)) :
    (plan.follow steps (.fresh collector)).state.position = (trials steps).length := by
  rw [(plan.takes_follow steps _).position]
  exact Nat.zero_add _

theorem report_follow (collector : Option κ) (steps : List (BatchStep ι)) :
    (plan.follow steps (.fresh collector)).state.report =
      .ofTrials plan.config.compareOutput (trials steps) := by
  rw [(plan.takes_follow steps _).report]
  exact (BatchReport.empty_append _).trans (BatchReport.shift_zero _)

end BatchPlan

end Concolic
