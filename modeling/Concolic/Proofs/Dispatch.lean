import Concolic.CommandLine.Invocation
import Concolic.Proofs.CoverageProtocol
import Concolic.Proofs.Isolation
import Concolic.Proofs.PanickingEngine
import Concolic.Proofs.PrintedReport

/-!
# What an invocation leaves alone

A replay does not call the engine, and an exploration does not call the collector. An invocation that is refused
has done nothing. Any other replay prints the report of its whole batch; a measurement adds the coverage to it,
and one that fails takes nothing else away.
-/

namespace Concolic

namespace Collector

variable {κ : Type} (C : Collector κ)

/-- The summary that the tool gives after a measurement from its start to its stop. -/
def summaryAfter (s : κ) : Except Fault String :=
  (C.answer .summaryText (C.answer .stop (C.answer .start s).2).2).1

theorem isSome_reconcile (config : CoverageConfig) (s : κ) :
    (C.reconcile config s).value.toOption.isSome = (C.answer .summaryText s).1.toOption.isSome := by
  have hsummary : (C.call .summaryText s).value = (C.answer .summaryText s).1 := rfl
  simp only [reconcile, Run.bind_apply, hsummary]
  cases (C.answer .summaryText s).1 <;> rfl

end Collector

namespace BatchPlan

variable {ι κ : Type} (plan : BatchPlan ι κ)

/-- The measurement is the one that was or would have been begun before. -/
def sameMeasurement : Passage (Batch κ) where
  rel b _ b' := plan.begun b'.measuring = plan.begun b.measuring
  nil _ := rfl
  append h h' := h'.trans h

theorem sameMeasurement_replays : plan.StepsObey plan.sameMeasurement where
  begin b := by
    change plan.begun (plan.beginMeasurement b).state.measuring = _
    rw [measuring_begin, begun_begun]
  replay a b := by
    change plan.begun (plan.replayNext a b).state.measuring = _
    rw [replayNext_apply, measuring_begin, begun_begun]
  mismatch _ _ := rfl
  skip _ _ := rfl
  log _ _ := rfl

theorem engineCalls_begin (b : Batch κ) : (plan.beginMeasurement b).trace.engineCalls = [] := by
  obtain ⟨s, -, -, h⟩ | ⟨-, es, h⟩ := plan.begin_cases b
  · rw [h]
    rfl
  · rw [h]
    exact Trace.engineCalls_logged es

theorem lacking_replays : plan.StepsObey (.lacking Activity.engineCall?) where
  begin := plan.engineCalls_begin
  replay a b := by
    have hrun : (Replay.run plan.test a).2.engineCalls = [] :=
      Replay.run_lacking plan.test a (fun _ => rfl) (fun _ => rfl) fun _ => rfl
    change (plan.replayNext a b).trace.engineCalls = []
    rw [replayNext_apply, Trace.engineCalls_append, plan.engineCalls_begin, hrun, List.append_nil]
  mismatch _ _ := rfl
  skip _ _ := rfl
  log _ _ := rfl

theorem engineCalls_stop (C : Collector κ) (m : Measurement κ) :
    (Measurement.stop C m).trace.engineCalls = [] := by
  obtain ⟨s, running⟩ := m
  cases running <;> rfl

theorem lacking_collect : plan.collect.Obeys (.lacking Activity.engineCall?) := by
  intro b
  change (plan.collect b).trace.engineCalls = []
  obtain ⟨m, -, h⟩ | ⟨-, h⟩ := plan.collect_cases b
  · have hreport : (plan.collector.reconcile plan.coverage).Obeys (.lacking Activity.engineCall?) :=
      plan.collector.obeys_reconcile (fun _ _ _ => rfl) (fun _ _ => rfl) plan.coverage
    rw [h, Trace.engineCalls_append, Trace.engineCalls_append, engineCalls_begin, engineCalls_stop]
    exact hreport _
  · rw [h]
    exact plan.engineCalls_begin b

theorem engineCalls_finish (b : Batch κ) : (plan.finish b).trace.engineCalls = [] := by
  unfold finish
  split
  · exact engineCalls_stop plan.collector _
  · rfl

theorem isSome_collect {b : Batch κ} {s : κ} (hmeasure : plan.config.measureCoverage = true)
    (h : plan.begun b.measuring = plan.begun (.idle s)) :
    (plan.collect b).value.toOption.isSome = (plan.collector.summaryAfter s).toOption.isSome := by
  have hbegun : (plan.beginMeasurement b).state.measuring =
      .started (Measurement.start plan.collector s).state := by
    rw [measuring_begin, h]
    simp only [begun, hmeasure, if_true]
  obtain ⟨m, hm, hcollect⟩ | ⟨hnone, -⟩ := plan.collect_cases b
  · obtain rfl : (Measurement.start plan.collector s).state = m := by
      rw [hbegun] at hm
      exact Measuring.started.inj hm
    rw [hcollect]
    exact plan.collector.isSome_reconcile plan.coverage _
  · exact absurd hbegun (hnone _)

end BatchPlan

namespace Harness

variable {ι ε κ : Type} (h : Harness ι ε κ)

/-- What a task asks of a batch, or why it cannot be asked. Exploring asks nothing of a batch. -/
def operation? : Task → Option (Except Failure Operation)
  | .explore => none
  | .replayAssignment overrides =>
    match Assignment.ofOverrides overrides with
    | .error f => some (.error ((Failure.ofFault f).within "parsing assignment overrides"))
    | .ok a => some (.ok (.assignment a))
  | .replayDefaults => some (.ok (.assignment .empty))
  | .replayFile path =>
    match h.openFile path with
    | .error reason =>
      some (.error ((Failure.ofFault (.io reason)).within s!"opening test cases {path}"))
    | .ok feed => some (.ok (.file (.ok feed)))

theorem replayTask_eq (config : HarnessConfig) (task : Task) (b : Batch κ) :
    h.replayTask config task b =
      match h.operation? task with
      | none => ⟨.ok (), b, []⟩
      | some (.error e) => ⟨.error e, b, []⟩
      | some (.ok op) =>
        ⟨.ok (), ((h.plan config).perform op b).state, ((h.plan config).perform op b).trace⟩ := by
  cases task with
  | explore => rfl
  | replayAssignment overrides =>
    simp only [replayTask, operation?]
    cases Assignment.ofOverrides overrides with
    | error f => rfl
    | ok a => simp [BatchPlan.perform]
  | replayDefaults => simp [replayTask, operation?, BatchPlan.perform]
  | replayFile path =>
    simp only [replayTask, operation?, BatchPlan.replayFile]
    cases h.openFile path with
    | error reason => rfl
    | ok feed => simp [BatchPlan.perform, BatchPlan.replayFile]

theorem operation?_eq_none_iff {task : Task} : h.operation? task = none ↔ task = .explore := by
  unfold operation?
  split
  · simp
  · split <;> simp
  · simp
  · split <;> simp

theorem ne_collect_of_operation? {task : Task} {op : Operation} (hop : h.operation? task = some (.ok op)) :
    op ≠ .collect := by
  unfold operation? at hop
  split at hop
  · cases hop
  · split at hop <;> cases hop
    nofun
  · cases hop
    nofun
  · split at hop <;> cases hop
    nofun

theorem report_coverageOf (config : HarnessConfig) (measured : Bool) (b : Batch κ) :
    (h.coverageOf config measured b).state.report = b.report := by
  cases measured with
  | false => rfl
  | true =>
    have hreport : ((h.plan config).collect b).state.report = b.report := by rw [BatchPlan.state_collect]
    simp only [coverageOf, if_true, Run.bind_apply]
    cases ((h.plan config).collect b).value <;> exact hreport

theorem value_coverageOf (config : HarnessConfig) (measured : Bool) (b : Batch κ) :
    (h.coverageOf config measured b).value =
      if measured then ((h.plan config).collect b).value.toOption else none := by
  cases measured with
  | false => rfl
  | true =>
    simp only [coverageOf, if_true, Run.bind_apply]
    cases ((h.plan config).collect b).value <;> rfl

theorem engineCalls_coverageOf (config : HarnessConfig) (measured : Bool) (b : Batch κ) :
    (h.coverageOf config measured b).trace.engineCalls = [] := by
  cases measured with
  | false => rfl
  | true =>
    have hcollect : ((h.plan config).collect b).trace.engineCalls = [] := (h.plan config).lacking_collect b
    simp only [coverageOf, if_true, Run.bind_apply, Trace.engineCalls_append, hcollect]
    cases ((h.plan config).collect b).value <;> rfl

theorem replay_of_error {config : HarnessConfig} {task : Task} {e : Failure}
    (he : h.operation? task = some (.error e)) (engine : ε) (collector : Option κ) :
    h.replay config task engine collector = ⟨.failed e, engine, collector, [], ""⟩ := by
  simp only [replay, batch, Run.bind_apply, replayTask_eq, he]
  cases collector <;> rfl

theorem batch_of_ok {config : HarnessConfig} {task : Task} {op : Operation}
    (hop : h.operation? task = some (.ok op)) (measured : Bool) (b : Batch κ) :
    h.batch config task measured b =
      let performed := (h.plan config).perform op b
      let covered := h.coverageOf config measured performed.state
      let ended := (h.plan config).finish covered.state
      ⟨.ok (performed.state.report, covered.value), ended.state,
        performed.trace ++ (covered.trace ++ ended.trace)⟩ := by
  simp only [batch, Run.bind_apply, Run.pure_apply, replayTask_eq, hop, BatchPlan.value_finish,
    report_coverageOf, List.append_nil]

theorem report_perform (config : HarnessConfig) (op : Operation) (collector : Option κ) :
    ((h.plan config).perform op (.fresh collector)).state.report =
      .ofTrials config.replay.compareOutput (op.inputs.map (.mk h.test)) := by
  rw [((h.plan config).takes_perform op _).report]
  exact (BatchReport.empty_append _).trans (BatchReport.shift_zero _)

theorem engineCalls_batch {config : HarnessConfig} {task : Task} {op : Operation}
    (hop : h.operation? task = some (.ok op)) (measured : Bool) (b : Batch κ) :
    (h.batch config task measured b).trace.engineCalls = [] := by
  have hperform : ((h.plan config).perform op b).trace.engineCalls = [] :=
    (h.plan config).lacking_replays.perform (fun _ => (h.plan config).lacking_collect) b
  rw [batch_of_ok h hop]
  simp only [Trace.engineCalls_append, hperform, engineCalls_coverageOf,
    BatchPlan.engineCalls_finish, List.append_nil]

/-- A replay that can be asked for reports on the inputs of its operation, and prints the report. -/
theorem replay_of_ok {config : HarnessConfig} {task : Task} {op : Operation}
    (hop : h.operation? task = some (.ok op)) (engine : ε) (collector : Option κ) :
    let report := BatchReport.ofTrials config.replay.compareOutput (op.inputs.map (.mk h.test))
    let measured := collector.isSome && config.replay.measureCoverage
    let b := ((h.plan config).perform op (.fresh collector)).state
    let coverage := (h.coverageOf config measured b).value
    let done := h.replay config task engine collector
    done.conclusion = .replayed report coverage ∧ done.printed = Printout.text report coverage ∧
      done.engine = engine ∧ done.trace.engineCalls = [] := by
  intro report measured b coverage done
  have htrace : (h.batch config task measured (.fresh collector)).trace.engineCalls = [] :=
    h.engineCalls_batch hop measured _
  have hreport : b.report = report := h.report_perform config op collector
  have hdone : done =
      ⟨.replayed b.report coverage, engine,
        (h.batch config task measured (.fresh collector)).state.collector?,
        (h.batch config task measured (.fresh collector)).trace, Printout.text b.report coverage⟩ := by
    simp only [done, replay, batch_of_ok h hop]
    rfl
  rw [hdone, hreport]
  exact ⟨rfl, rfl, rfl, htrace⟩

theorem isSome_coverageOf (config : HarnessConfig) {op : Operation} (hop : op ≠ .collect)
    (collector : Option κ) :
    let measured := collector.isSome && config.replay.measureCoverage
    let b := ((h.plan config).perform op (.fresh collector)).state
    (h.coverageOf config measured b).value.isSome = true ↔
      ∃ s, collector = some s ∧ config.replay.measureCoverage = true ∧
        ∃ text, h.collector.summaryAfter s = .ok text := by
  intro measured b
  rw [value_coverageOf]
  cases collector with
  | none => simp [measured]
  | some s =>
    cases hmeasure : config.replay.measureCoverage with
    | false => simp [measured, hmeasure]
    | true =>
      have hsame : (h.plan config).begun b.measuring = (h.plan config).begun (.idle s) :=
        (h.plan config).sameMeasurement_replays.perform (fun h => absurd h hop) (.fresh (some s))
      have hcollect : ((h.plan config).collect b).value.toOption.isSome =
          (h.collector.summaryAfter s).toOption.isSome :=
        (h.plan config).isSome_collect hmeasure hsame
      simp only [measured, hmeasure, Option.isSome_some, Bool.and_self, if_true, hcollect,
        Option.some.injEq, exists_eq_left', true_and]
      cases h.collector.summaryAfter s <;> simp [Except.toOption]

end Harness

namespace Engine

variable {ε : Type} (E : Engine ε) (panics : CallPanic ε)

theorem call_lacking (c : EngineCall) : (E.call c).Obeys (.lacking Activity.collectorCall?) :=
  fun s => Trace.filterMap_events (fun _ => rfl) (E.answer c s).2.2

theorem attempt_lacking (c : EngineCall) :
    (E.attempt panics c).Obeys (.lacking Activity.collectorCall?) :=
  E.call_lacking c

theorem tryReply_lacking (q : Ask) : (E.tryReply panics q).Obeys (.lacking Activity.collectorCall?) := by
  cases q with
  | int r =>
    unfold tryReply
    dsimp only
    split
    · exact .pure _
    · exact .bind (E.attempt_lacking panics _) fun _ => .pure _
  | sequence r =>
    unfold tryReply
    dsimp only
    split
    · exact .pure _
    · exact .pure _
    · refine .bind (E.attempt_lacking panics _) fun answer => ?_
      split
      · exact .pure _
      · split
        · exact .bind (E.attempt_lacking panics _) fun _ => .pure _
        · exact .pure _
  | assume condition => exact E.attempt_lacking panics _
  | log line => exact .bind (fun _ => rfl) fun _ => E.attempt_lacking panics _
  | concretize value => exact E.attempt_lacking panics _
  | mode => exact .pure _

end Engine

namespace Body

theorem obeys_tryRun {σ α : Type} {P : Passage σ} {answer : (q : Ask) → Run σ (Except Panic q.Reply)}
    (hask : ∀ q, (Run.record [.asked q] : Run σ Unit).Obeys P) (hanswer : ∀ q, (answer q).Obeys P)
    (b : Body α) : (b.tryRun answer).Obeys P := by
  induction b with
  | done a => exact .pure _
  | fail e => exact .pure _
  | panic p => exact .pure _
  | ask q next ih =>
    unfold tryRun
    refine .bind (hask q) fun _ => .bind (hanswer q) fun answered => ?_
    cases answered with
    | error p => exact .pure _
    | ok r => exact ih r

end Body

namespace Exploration

variable {ε ι : Type} (E : Engine ε) (panics : CallPanic ε)

theorem abort_lacking (f : TestFailure) : (abort E f).Obeys (.lacking Activity.collectorCall?) :=
  .bind (fun _ => rfl) fun _ => .bind (E.call_lacking _) fun _ => .pure _

/-- No exploration calls the collector, also not one in which the engine panics. -/
theorem tryRun_lacking (test : Test ι) (seconds : UInt32) :
    (tryRun E panics test seconds).Obeys (.lacking Activity.collectorCall?) := by
  have hbody {α : Type} (b : Body α) :
      (b.tryRun (E.tryReply panics)).Obeys (.lacking Activity.collectorCall?) :=
    Body.obeys_tryRun (fun _ _ => rfl) (E.tryReply_lacking panics) b
  refine .bind (fun _ => rfl) fun _ => ?_
  split
  · exact .pure _
  · refine .bind (fun _ => rfl) fun _ => .bind (hbody _) fun prepared => ?_
    split
    · exact abort_lacking E _
    · have hopen : (openSession E seconds).Obeys (.lacking Activity.collectorCall?) := by
        refine .bind (E.call_lacking _) fun answer => ?_
        cases answer with
        | ok u => exact .pure _
        | error f => exact .bind (fun _ => rfl) fun _ => .pure _
      refine .bind hopen fun session => .bind (fun _ => rfl) fun _ => .bind (hbody _) fun ending => ?_
      split
      · exact abort_lacking E _
      · cases session with
        | true => exact .bind (E.call_lacking _) fun _ => .pure _
        | false => exact .bind (E.call_lacking _) fun _ => .pure _

end Exploration

theorem HarnessArgs.taskOf_ne_explore_iff (given : List Given) :
    taskOf given ≠ .explore ↔
      Usage.has "assign" given = true ∨ Usage.has "replay" given = true ∨
        Usage.operandsOf "file" given ≠ [] := by
  unfold taskOf
  split
  · simp_all
  · split
    · simp_all
    · split <;> simp_all

namespace Harness

variable {ι ε κ : Type} (h : Harness ι ε κ)

theorem invoke_of_error {args : HarnessArgs} {e : Failure} (he : h.loadConfig args.config = .error e)
    (engine : ε) (collector : Option κ) :
    h.invoke args engine collector = ⟨.failed e, engine, collector, [], ""⟩ := by
  rw [invoke, he]

theorem invoke_of_replay {args : HarnessArgs} {config : HarnessConfig}
    (hconfig : h.loadConfig args.config = .ok config) (hreplay : args.task ≠ .explore) (engine : ε)
    (collector : Option κ) :
    h.invoke args engine collector = h.replay config args.task engine collector := by
  rw [invoke, hconfig]
  cases htask : args.task with
  | explore => exact absurd htask hreplay
  | replayAssignment overrides => rfl
  | replayDefaults => rfl
  | replayFile path => rfl

theorem replay_cases (config : HarnessConfig) {task : Task} (hreplay : task ≠ .explore) (engine : ε)
    (collector : Option κ) :
    let done := h.replay config task engine collector
    (∃ e, h.operation? task = some (.error e) ∧ done = ⟨.failed e, engine, collector, [], ""⟩) ∨
      ∃ op coverage, h.operation? task = some (.ok op) ∧
        let report := BatchReport.ofTrials config.replay.compareOutput (op.inputs.map (.mk h.test))
        done.conclusion = .replayed report coverage ∧ done.printed = Printout.text report coverage ∧
          (coverage.isSome = true ↔
            ∃ s, collector = some s ∧ config.replay.measureCoverage = true ∧
              ∃ text, h.collector.summaryAfter s = .ok text) ∧
          done.engine = engine ∧ done.trace.engineCalls = [] := by
  intro done
  cases hop : h.operation? task with
  | none => exact absurd (h.operation?_eq_none_iff.1 hop) hreplay
  | some result =>
    cases result with
    | error e => exact .inl ⟨e, rfl, h.replay_of_error hop engine collector⟩
    | ok op =>
      obtain ⟨hconclusion, hprinted, hengine, hcalls⟩ := h.replay_of_ok hop engine collector
      exact .inr ⟨op, _, rfl, hconclusion, hprinted,
        h.isSome_coverageOf config (h.ne_collect_of_operation? hop) collector, hengine, hcalls⟩

/-- Either of the options of a replay makes a task other than exploring. A replay leaves the engine as it is, and
an exploration the collector, whatever the engine does. An invocation that is refused has run nothing, called
nobody and printed nothing. Any other replay ends with the report on all its inputs and has printed it, line by line and
once; there is coverage if and only if there is a collector, coverage is wanted and the collector has given a
summary. -/
theorem keeps_tasks_apart (args : HarnessArgs) (engine : ε) (collector : Option κ) :
    let done := h.invoke args engine collector
    let refused (e : Failure) : Invocation ε κ := ⟨.failed e, engine, collector, [], ""⟩
    (∀ given, HarnessArgs.taskOf given ≠ .explore ↔
        Usage.has "assign" given = true ∨ Usage.has "replay" given = true ∨
          Usage.operandsOf "file" given ≠ []) ∧
      (args.task ≠ .explore → done.engine = engine ∧ done.trace.engineCalls = []) ∧
      (args.task = .explore → done.collector = collector ∧ done.trace.collectorCalls = [] ∧
        ∀ panics seconds,
          (Exploration.tryRun h.engine panics h.test seconds engine).trace.collectorCalls = []) ∧
      (∀ e, h.loadConfig args.config = .error e → done = refused e) ∧
      ∀ config, h.loadConfig args.config = .ok config → args.task ≠ .explore →
        (∃ e, h.operation? args.task = some (.error e) ∧ done = refused e) ∨
          ∃ op coverage, h.operation? args.task = some (.ok op) ∧
            let report := BatchReport.ofTrials config.replay.compareOutput (op.inputs.map (.mk h.test))
            done.conclusion = .replayed report coverage ∧
              (∃ printed counts, Printout.Tells report coverage printed ∧ Printout.TellsCounts report counts ∧
                printed.filter Printout.atMargin = counts :: (if coverage.isSome then ["Coverage:"] else []) ∧
                done.printed = String.join (printed.map (· ++ "\n"))) ∧
              (coverage.isSome = true ↔
                ∃ s, collector = some s ∧ config.replay.measureCoverage = true ∧
                  ∃ text, h.collector.summaryAfter s = .ok text) := by
  intro done refused
  have hrefused {e : Failure} (he : h.loadConfig args.config = .error e) : done = refused e :=
    h.invoke_of_error he engine collector
  have hreplayed {config : HarnessConfig} (hconfig : h.loadConfig args.config = .ok config)
      (hreplay : args.task ≠ .explore) : done = h.replay config args.task engine collector :=
    h.invoke_of_replay hconfig hreplay engine collector
  refine ⟨HarnessArgs.taskOf_ne_explore_iff, fun hreplay => ?engine, fun hexplore => ?collector,
    fun e => hrefused, fun config hconfig hreplay => ?report⟩
  case engine =>
    cases hconfig : h.loadConfig args.config with
    | error e => exact hrefused hconfig ▸ ⟨rfl, rfl⟩
    | ok config =>
      rw [hreplayed hconfig hreplay]
      obtain ⟨e, -, hdone⟩ | ⟨op, coverage, -, -, -, -, hdone⟩ :=
        h.replay_cases config hreplay engine collector
      · exact hdone ▸ ⟨rfl, rfl⟩
      · exact hdone
  case collector =>
    have hlacking (panics : CallPanic ε) (seconds : UInt32) :
        (Exploration.tryRun h.engine panics h.test seconds engine).trace.collectorCalls = [] :=
      Exploration.tryRun_lacking h.engine panics h.test seconds engine
    cases hconfig : h.loadConfig args.config with
    | error e => exact hrefused hconfig ▸ ⟨rfl, rfl, hlacking⟩
    | ok config =>
      have hdone : done = h.explore config engine collector := by
        simp only [done, invoke, hconfig, hexplore]
      have hrun := hlacking .never config.exploration.maxTimeSecs
      rw [Exploration.tryRun_never] at hrun
      exact hdone ▸ ⟨rfl, hrun, hlacking⟩
  case report =>
    rw [hreplayed hconfig hreplay]
    obtain hdone | ⟨op, coverage, hop, hconclusion, hprinted, hcoverage, -⟩ :=
      h.replay_cases config hreplay engine collector
    · exact .inl hdone
    · obtain ⟨printed, htells, htext⟩ := Printout.exists_tells_text _ coverage
      obtain ⟨counts, hcounts, hmargin⟩ := htells.filter_atMargin
      exact .inr ⟨op, coverage, hop, hconclusion, ⟨printed, counts, htells, hcounts, hmargin, hprinted.trans htext⟩,
        hcoverage⟩

/-- A harness with one file, in which there is no test case. -/
def withOneFile : Harness Unit Detached Unit where
  test := BatchPlan.panickingAtTwo
  engine := Detached.engine
  collector := BatchPlan.listing
  openFile path := if path = "cases" then .ok [.octets [1, 0, 0, 0, 0xFF]] else .error "No such file"

theorem keeps_tasks_apart_withOneFile :
    let invoke (task : Task) (config : Option String) : Invocation Detached Unit :=
      withOneFile.invoke ⟨task, config⟩ .fresh (some ())
    let refused (e : Failure) : Invocation Detached Unit := ⟨.failed e, .fresh, some (), [], ""⟩
    (invoke .explore none).trace.collectorCalls = [] ∧
      (∃ e, invoke .explore (some "absent") = refused e) ∧
      (∃ e, invoke (.replayAssignment [("x.i", "12")]) none = refused e) ∧
      (∃ e, invoke (.replayFile "absent") none = refused e) ∧
      (invoke (.replayFile "cases") none).trace.engineCalls = [] ∧
      ∃ report coverage,
        (invoke (.replayFile "cases") none).conclusion = .replayed report (some coverage) ∧
          ∃ printed counts, Printout.Tells report (some coverage) printed ∧
            printed.filter Printout.atMargin = [counts, "Coverage:"] ∧
            (invoke (.replayFile "cases") none).printed = String.join (printed.map (· ++ "\n")) := by
  intro invoke refused
  have happly (task : Task) (config : Option String) :=
    withOneFile.keeps_tasks_apart ⟨task, config⟩ .fresh (some ())
  obtain ⟨e, hunread⟩ : ∃ e, withOneFile.loadConfig (some "absent") = .error e := ⟨_, rfl⟩
  have hmalformed : ∀ op,
      withOneFile.operation? (.replayAssignment [("x.i", "12")]) ≠ some (.ok op) := by
    have hfault : (Assignment.ofOverrides [("x.i", "12")]).isOk = false := by decide +kernel
    cases hparsed : Assignment.ofOverrides [("x.i", "12")] with
    | ok a => simp [hparsed, Except.isOk, Except.toBool] at hfault
    | error f => simp [operation?, hparsed]
  have hmissing : ∀ op, withOneFile.operation? (.replayFile "absent") ≠ some (.ok op) := nofun
  have hopened : ∀ e, withOneFile.operation? (.replayFile "cases") ≠ some (.error e) := nofun
  have hsummary : withOneFile.collector.summaryAfter () = .ok "target 4 1 75%" := rfl
  refine ⟨((happly .explore none).2.2.1 rfl).2.1, ⟨e, (happly .explore (some "absent")).2.2.2.1 e hunread⟩,
    ?_, ?_, ((happly (.replayFile "cases") none).2.1 nofun).2, ?_⟩
  · obtain ⟨e, -, hdone⟩ | ⟨op, -, hop, -⟩ :=
      (happly (.replayAssignment [("x.i", "12")]) none).2.2.2.2 .standard rfl nofun
    · exact ⟨e, hdone⟩
    · exact absurd hop (hmalformed op)
  · obtain ⟨e, -, hdone⟩ | ⟨op, -, hop, -⟩ :=
      (happly (.replayFile "absent") none).2.2.2.2 .standard rfl nofun
    · exact ⟨e, hdone⟩
    · exact absurd hop (hmissing op)
  · obtain ⟨e, hop, -⟩ | ⟨op, coverage, -, hconclusion, ⟨printed, counts, htells, -, hmargin, htext⟩, hcoverage⟩ :=
      (happly (.replayFile "cases") none).2.2.2.2 .standard rfl nofun
    · exact absurd hop (hopened e)
    · have hsome : coverage.isSome = true := hcoverage.2 ⟨(), rfl, rfl, _, hsummary⟩
      obtain ⟨coverage, rfl⟩ := Option.isSome_iff_exists.1 hsome
      exact ⟨_, coverage, hconclusion, printed, counts, htells, hmargin, htext⟩

end Harness

end Concolic
