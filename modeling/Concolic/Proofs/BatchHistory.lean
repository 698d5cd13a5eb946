import Concolic.Batch
import Concolic.Proofs.RunTrace

/-!
# Histories of batches

A batch is asked for one operation after another, in any order, and then it is finished or given up. The
test may behave differently each time, so every operation comes with the test that it runs. Whatever a
history keeps is kept by the few steps that operations are made of.
-/

namespace Concolic

/-- A relation from the state before a computation, by its record, to the state after it. Nothing done is
in the relation, and so are two computations one after the other if each of them is. -/
structure Passage (σ : Type) where
  rel : σ → Trace → σ → Prop
  nil (s : σ) : rel s [] s
  append {s s' s'' : σ} {t u : Trace} : rel s t s' → rel s' u s'' → rel s (t ++ u) s''

/-- Nothing is done that `part?` tells of. -/
def Passage.lacking {σ β : Type} (part? : Activity → Option β) : Passage σ where
  rel _ t _ := t.filterMap part? = []
  nil _ := rfl
  append h h' := by rw [List.filterMap_append, h, h', List.append_nil]

theorem Trace.filterMap_events {β : Type} {part? : Activity → Option β}
    (hevent : ∀ e, part? (.logged e) = none) (es : List Event) :
    (es.map Activity.logged).filterMap part? = [] := by
  simp [hevent]

namespace Run

variable {σ α β : Type} {P : Passage σ}

def Obeys (r : Run σ α) (P : Passage σ) : Prop :=
  ∀ s, P.rel s (r s).trace (r s).state

namespace Obeys

theorem pure (a : α) : (Pure.pure a : Run σ α).Obeys P :=
  fun s => P.nil s

theorem bind {r : Run σ α} {f : α → Run σ β} (hr : r.Obeys P) (hf : ∀ a, (f a).Obeys P) :
    (r >>= f).Obeys P :=
  fun s => P.append (hr s) (hf _ _)

theorem forM {f : α → Run σ PUnit} (hf : ∀ a, (f a).Obeys P) (as : List α) :
    (as.forM f).Obeys P := by
  induction as with
  | nil => exact pure _
  | cons a as ih => exact bind (hf a) fun _ => ih

theorem foldlM {f : β → α → Run σ β} (hf : ∀ b a, (f b a).Obeys P) (b : β) (as : List α) :
    (as.foldlM f b).Obeys P := by
  induction as generalizing b with
  | nil => exact pure b
  | cons a as ih => exact bind (hf b a) ih

end Obeys

@[simp] theorem forM_log (event : α → Event) (as : List α) (s : σ) :
    (forM as fun a => log (event a) : Run σ PUnit) s =
      ⟨(), s, as.map fun a => .logged (event a)⟩ := by
  induction as with
  | nil => rfl
  | cons a as ih => simp [ih]

end Run

namespace CollectorCall

def isReport : CollectorCall → Bool
  | summaryText => true
  | detailedAnalysis _ => true
  | _ => false

end CollectorCall

theorem Collector.obeys_reconcile {κ : Type} {P : Passage κ} (C : Collector κ)
    (hcall : ∀ c : CollectorCall, c.isReport = true → (C.call c).Obeys P)
    (hlog : ∀ e, (Run.log e : Run κ Unit).Obeys P) (config : CoverageConfig) :
    (C.reconcile config).Obeys P := by
  refine .bind (hcall _ rfl) fun summary => ?_
  cases summary with
  | error f => exact .pure _
  | ok text =>
    refine .bind (.foldlM (fun report file => ?_) _ _) fun _ => .pure _
    refine .bind (hlog _) fun _ => .bind (hcall _ rfl) fun answer => ?_
    cases answer with
    | ok analysis => exact .pure _
    | error f => exact .bind (hlog _) fun _ => .pure _

inductive Operation
  | assignment (a : Assignment)
  | assignments (as : List Assignment)
  | recorded (c : TestCase)
  | items (items : List (Except Fault TestCase))
  /-- A test-case file, given as what opening it gives. -/
  | file (opened : Except String Feed)
  | collect

namespace Operation

abbrev Reply : Operation → Type
  | assignment _ => Replay
  | assignments _ => Unit
  | recorded _ => Replay
  | items _ => Unit
  | file _ => Except Fault Unit
  | collect => Except Fault CoverageReport

end Operation

/-- An operation with the test as it behaves during the operation. -/
abbrev BatchStep (ι : Type) : Type :=
  Test ι × Operation

namespace BatchPlan

variable {ι κ : Type} (plan : BatchPlan ι κ)

def perform : (op : Operation) → Run (Batch κ) op.Reply
  | .assignment a => plan.replayAssignment a
  | .assignments as => plan.replayAssignments as
  | .recorded c => plan.replayCase c
  | .items items => plan.replayItems items
  | .file opened => plan.replayFile opened
  | .collect => plan.collect

def follow : List (BatchStep ι) → Run (Batch κ) Unit
  | [] => pure ()
  | (test, op) :: steps => do
    let _ ← { plan with test := test }.perform op
    follow steps

/-- Performs one operation after another, and then ends the batch. -/
def session (steps : List (BatchStep ι)) : Run (Batch κ) BatchReport := do
  plan.follow steps
  plan.finish

theorem obeys_follow {P : Passage (Batch κ)} {steps : List (BatchStep ι)}
    (h : ∀ step ∈ steps, ({ plan with test := step.1 }.perform step.2).Obeys P) :
    (plan.follow steps).Obeys P := by
  induction steps with
  | nil => exact .pure ()
  | cons step steps ih =>
    exact .bind (h step List.mem_cons_self)
      fun _ => ih fun step' hmem => h step' (List.mem_cons_of_mem _ hmem)

@[simp] theorem nextPosition_apply (b : Batch κ) :
    nextPosition b = ⟨b.position, { b with position := b.position + 1 }, []⟩ := rfl

theorem skip_apply (f : Fault) (b : Batch κ) :
    skip f b =
      let reason := f.message
      let failure : BatchFailure := ⟨b.position, f.kindName, .empty, reason⟩
      ⟨(),
        { b with
          position := b.position + 1
          report := { b.report with failures := b.report.failures ++ [failure] } },
        [.logged (.plain .error s!"Skipping test case {b.position}: {reason}")]⟩ := rfl

/-- A measurement begins if there is a collector that has not been called and coverage is wanted. Otherwise no
more happens than that something is logged. -/
theorem begin_cases (b : Batch κ) :
    (∃ s, b.measuring = .idle s ∧ plan.config.measureCoverage = true ∧
        plan.beginMeasurement b =
          let started := Measurement.start plan.collector s
          ⟨(), { b with measuring := .started started.state }, started.trace⟩) ∨
      (∀ s, b.measuring = .idle s → plan.config.measureCoverage = false) ∧
        ∃ es : List Event, plan.beginMeasurement b = ⟨(), b, es.map .logged⟩ := by
  obtain ⟨position, report, measuring⟩ := b
  cases measuring with
  | impossible => exact .inr ⟨(fun s h => by cases h), [], rfl⟩
  | started m => exact .inr ⟨(fun s h => by cases h), [], rfl⟩
  | idle s =>
    cases hmeasure : plan.config.measureCoverage with
    | true => exact .inl ⟨s, rfl, rfl, by simp only [beginMeasurement, hmeasure, if_true]⟩
    | false =>
      refine .inr ⟨fun _ _ => rfl, [.plain .debug "Coverage measurement disabled by config"], ?_⟩
      simp [beginMeasurement, hmeasure]

theorem state_begin (b : Batch κ) : (plan.beginMeasurement b).state =
    { b with measuring := (plan.beginMeasurement b).state.measuring } := by
  obtain ⟨s, -, -, h⟩ | ⟨-, es, h⟩ := plan.begin_cases b <;> rw [h]

/-- The measurement once a batch has begun to measure. -/
def begun : Measuring κ → Measuring κ
  | .idle s =>
    if plan.config.measureCoverage then .started (Measurement.start plan.collector s).state else .idle s
  | m => m

theorem measuring_begin (b : Batch κ) :
    (plan.beginMeasurement b).state.measuring = plan.begun b.measuring := by
  obtain ⟨position, report, measuring⟩ := b
  cases measuring with
  | impossible => rfl
  | started m => rfl
  | idle s =>
    unfold beginMeasurement begun
    cases plan.config.measureCoverage <;> rfl

theorem begun_begun (m : Measuring κ) : plan.begun (plan.begun m) = plan.begun m := by
  cases m with
  | impossible => rfl
  | started m => rfl
  | idle s =>
    unfold begun
    cases plan.config.measureCoverage <;> rfl

theorem replayNext_apply (a : Assignment) (b : Batch κ) :
    plan.replayNext a b =
      ⟨(b.position, (Replay.run plan.test a).1),
        { position := b.position + 1
          report := note b.position (Replay.run plan.test a).1 b.report
          measuring := (plan.beginMeasurement b).state.measuring },
        (plan.beginMeasurement b).trace ++ (Replay.run plan.test a).2⟩ := by
  simp only [replayNext, Run.bind_apply, nextPosition_apply]
  rw [plan.state_begin b]
  simp [Run.record, Run.update]

theorem collect_cases (b : Batch κ) :
    (∃ m, (plan.beginMeasurement b).state.measuring = .started m ∧
        let stopped := Measurement.stop plan.collector m
        let reported := plan.collector.reconcile plan.coverage stopped.state.collector
        plan.collect b =
          ⟨reported.value,
            { (plan.beginMeasurement b).state with
              measuring := .started { stopped.state with collector := reported.state } },
            (plan.beginMeasurement b).trace ++ (stopped.trace ++ reported.trace)⟩) ∨
      (∀ m, (plan.beginMeasurement b).state.measuring ≠ .started m) ∧
        plan.collect b =
          ⟨.error .coverageUnavailable, (plan.beginMeasurement b).state,
            (plan.beginMeasurement b).trace⟩ := by
  simp only [collect, Bind.bind]
  cases (plan.beginMeasurement b).state.measuring with
  | started m => exact .inl ⟨m, rfl, rfl⟩
  | impossible => exact .inr ⟨(fun m h => by cases h), by simp⟩
  | idle s => exact .inr ⟨(fun m h => by cases h), by simp⟩

theorem state_collect (b : Batch κ) : (plan.collect b).state =
    { b with measuring := (plan.collect b).state.measuring } := by
  obtain ⟨m, -, h⟩ | ⟨-, h⟩ := plan.collect_cases b <;> rw [h, plan.state_begin b]

def noteMismatch (m : Mismatch) : Run (Batch κ) Unit :=
  Run.update fun b =>
    { b with report := { b.report with mismatches := b.report.mismatches ++ [m] } }

/-- The relation holds of the steps that replays are made of. -/
structure StepsObey (P : Passage (Batch κ)) : Prop where
  begin : plan.beginMeasurement.Obeys P
  replay (a : Assignment) : (plan.replayNext a).Obeys P
  mismatch (m : Mismatch) : (noteMismatch (κ := κ) m).Obeys P
  skip (f : Fault) : (skip (κ := κ) f).Obeys P
  log (e : Event) : (Run.log e : Run (Batch κ) Unit).Obeys P

namespace StepsObey

variable {plan} {P : Passage (Batch κ)}

theorem events (h : plan.StepsObey P) (es : List Event) :
    (Run.record (es.map .logged) : Run (Batch κ) Unit).Obeys P := by
  induction es with
  | nil => exact fun b => P.nil b
  | cons e es ih => exact fun b => P.append (h.log e b) (ih b)

theorem replayAssignment (h : plan.StepsObey P) (a : Assignment) :
    (plan.replayAssignment a).Obeys P :=
  .bind (h.replay a) fun _ => .pure _

theorem replayCase (h : plan.StepsObey P) (c : TestCase) : (plan.replayCase c).Obeys P := by
  refine .bind (h.replay c.assignment) fun (index, run) => ?_
  dsimp only
  split
  · split
    · exact .pure run
    · rename_i m _
      exact .bind (.forM (fun w => h.log _) m.warnings) fun _ =>
        .bind (h.mismatch m) fun _ => .pure run
  · exact .pure run

theorem replayItems (h : plan.StepsObey P) (items : List (Except Fault TestCase)) :
    (plan.replayItems items).Obeys P := by
  refine .bind h.begin fun _ => .forM (fun item => ?_) items
  cases item with
  | ok c => exact .bind (h.replayCase c) fun _ => .pure _
  | error f => exact h.skip f

/-- An operation obeys a relation that the steps of replays obey, if collecting does where that is the
operation. -/
theorem perform (h : plan.StepsObey P) {op : Operation}
    (hcollect : op = .collect → plan.collect.Obeys P) : (plan.perform op).Obeys P := by
  cases op with
  | assignment a => exact h.replayAssignment a
  | assignments as => exact .forM (fun a => .bind (h.replayAssignment a) fun _ => .pure _) as
  | recorded c => exact h.replayCase c
  | items items => exact h.replayItems items
  | file opened =>
    cases opened with
    | error reason => exact .pure _
    | ok feed =>
      exact .bind (.bind (h.replayItems _) fun _ => h.events _) fun _ => .pure _
  | collect => exact hcollect rfl

end StepsObey

end BatchPlan

end Concolic
