import Concolic.Proofs.BatchHistory

/-!
# Protocol of the measurement of coverage

A batch measures once: the collector is started before the first test is built, stopped once, and asked for
its reports only after that. The protocol is an automaton that reads the record of a batch, and every
operation drives the automaton as it changes the state of the measurement.
-/

namespace Concolic

namespace Trace

@[simp] theorem collectorCalls_nil : collectorCalls [] = [] := rfl

@[simp] theorem collectorCalls_append (t u : Trace) :
    collectorCalls (t ++ u) = collectorCalls t ++ collectorCalls u :=
  List.filterMap_append

@[simp] theorem collectorCalls_logged (e : Event) (t : Trace) :
    collectorCalls (.logged e :: t) = collectorCalls t := rfl

@[simp] theorem collectorCalls_collector (c : CollectorCall) (t : Trace) :
    collectorCalls (.collector c :: t) = c :: collectorCalls t := rfl

theorem collectorCalls_events (es : List Event) : collectorCalls (es.map .logged) = [] :=
  filterMap_events (fun _ => rfl) es

theorem collectorCalls_cons_of_none {a : Activity} (h : a.collectorCall? = none) (t : Trace) :
    collectorCalls (a :: t) = collectorCalls t :=
  List.filterMap_cons_none h

end Trace

inductive CoverageStage
  | idle
  | running
  | stopped
  deriving DecidableEq, Repr

namespace CoverageStage

/-- The stage after one activity. No test is built before the start, and no call of the collector is out of
its turn. -/
def next : CoverageStage → Activity → Option CoverageStage
  | idle, .collector .start => some running
  | running, .collector .stop => some stopped
  | stopped, .collector .summaryText => some stopped
  | stopped, .collector (.detailedAnalysis _) => some stopped
  | _, .collector _ => none
  | idle, .entered .build => none
  | stage, _ => some stage

/-- The stage after a record, if all of it is in turn. -/
def after (stage : CoverageStage) (t : Trace) : Option CoverageStage :=
  t.foldlM next stage

@[simp] theorem after_nil (stage : CoverageStage) : stage.after [] = some stage := rfl

theorem after_cons (stage : CoverageStage) (a : Activity) (t : Trace) :
    stage.after (a :: t) = (stage.next a).bind fun stage' => stage'.after t := rfl

@[simp] theorem after_logged (stage : CoverageStage) (e : Event) (t : Trace) :
    stage.after (.logged e :: t) = stage.after t := by
  cases stage <;> rfl

theorem after_append (stage : CoverageStage) (t u : Trace) :
    stage.after (t ++ u) = (stage.after t).bind fun stage' => stage'.after u := by
  simp only [after, List.foldlM_append]
  rfl

theorem next_eq_some {stage stage' : CoverageStage} {a : Activity} (h : stage.next a = some stage') :
    stage' = stage ∧ a.collectorCall? = none ∧ (stage = idle → a ≠ .entered .build) ∨
      stage = idle ∧ stage' = running ∧ a = .collector .start ∨
      stage = running ∧ stage' = stopped ∧ a = .collector .stop ∨
      stage = stopped ∧ stage' = stopped ∧ ∃ c, a = .collector c ∧ c.isReport = true := by
  cases a with
  | collector c => cases stage <;> cases c <;> cases h <;> simp [CollectorCall.isReport]
  | entered p => cases stage <;> cases p <;> cases h <;> simp [Activity.collectorCall?]
  | logged e => cases stage <;> cases h <;> simp [Activity.collectorCall?]
  | asked q => cases stage <;> cases h <;> simp [Activity.collectorCall?]
  | engine c => cases stage <;> cases h <;> simp [Activity.collectorCall?]

theorem after_cons_eq_some {stage stage' : CoverageStage} {a : Activity} {t : Trace} :
    stage.after (a :: t) = some stage' ↔
      ∃ between, stage.next a = some between ∧ between.after t = some stage' := by
  rw [after_cons, Option.bind_eq_some_iff]

theorem calls_of_stopped {t : Trace} {stage : CoverageStage} (h : stopped.after t = some stage) :
    stage = stopped ∧ ∀ c ∈ t.collectorCalls, c.isReport = true := by
  induction t with
  | nil => exact ⟨(Option.some.inj h).symm, nofun⟩
  | cons a t ih =>
    obtain ⟨between, ha, ht⟩ := after_cons_eq_some.1 h
    obtain ⟨rfl, hcall, -⟩ | ⟨hidle, -⟩ | ⟨hrunning, -⟩ | ⟨-, rfl, c, rfl, hc⟩ := next_eq_some ha
    · rw [Trace.collectorCalls_cons_of_none hcall]
      exact ih ht
    · cases hidle
    · cases hrunning
    · obtain ⟨hstage, hcalls⟩ := ih ht
      exact ⟨hstage, by simpa [hc] using hcalls⟩

theorem calls_of_running {t : Trace} {stage : CoverageStage} (h : running.after t = some stage) :
    stage = running ∧ t.collectorCalls = [] ∨
      stage = stopped ∧ ∃ reports, t.collectorCalls = .stop :: reports ∧
        ∀ c ∈ reports, c.isReport = true := by
  induction t with
  | nil => exact .inl ⟨(Option.some.inj h).symm, rfl⟩
  | cons a t ih =>
    obtain ⟨between, ha, ht⟩ := after_cons_eq_some.1 h
    obtain ⟨rfl, hcall, -⟩ | ⟨hidle, -⟩ | ⟨-, rfl, rfl⟩ | ⟨hstopped, -⟩ := next_eq_some ha
    · rw [Trace.collectorCalls_cons_of_none hcall]
      exact ih ht
    · cases hidle
    · obtain ⟨hstage, hreports⟩ := calls_of_stopped ht
      exact .inr ⟨hstage, _, rfl, hreports⟩
    · cases hstopped

theorem calls_of_idle {t : Trace} {stage : CoverageStage} (h : idle.after t = some stage) :
    stage = idle ∧ t.collectorCalls = [] ∨
      stage = running ∧ t.collectorCalls = [.start] ∨
      stage = stopped ∧ ∃ reports, t.collectorCalls = .start :: .stop :: reports ∧
        ∀ c ∈ reports, c.isReport = true := by
  induction t with
  | nil => exact .inl ⟨(Option.some.inj h).symm, rfl⟩
  | cons a t ih =>
    obtain ⟨between, ha, ht⟩ := after_cons_eq_some.1 h
    obtain ⟨rfl, hcall, -⟩ | ⟨-, rfl, rfl⟩ | ⟨hrunning, -⟩ | ⟨hstopped, -⟩ := next_eq_some ha
    · rw [Trace.collectorCalls_cons_of_none hcall]
      exact ih ht
    · rw [Trace.collectorCalls_collector]
      obtain ⟨hstage, hcalls⟩ | ⟨hstage, reports, hcalls, hreports⟩ := calls_of_running ht
      · exact .inr (.inl ⟨hstage, by rw [hcalls]⟩)
      · exact .inr (.inr ⟨hstage, reports, by rw [hcalls], hreports⟩)
    · cases hrunning
    · cases hstopped

theorem start_mem_of_build {t u : Trace} {stage : CoverageStage}
    (h : idle.after (t ++ .entered .build :: u) = some stage) : .start ∈ t.collectorCalls := by
  rw [after_append, Option.bind_eq_some_iff] at h
  obtain ⟨between, ht, hbuild⟩ := h
  obtain ⟨rfl, -⟩ | ⟨-, hcalls⟩ | ⟨-, reports, hcalls, -⟩ := calls_of_idle ht
  · cases hbuild
  · simp [hcalls]
  · simp [hcalls]

/-- Without calls of the collector a stage lasts, and tests can be built once the measurement has begun. -/
theorem after_of_no_calls {stage : CoverageStage} (hstage : stage ≠ idle) {t : Trace}
    (h : t.collectorCalls = []) : stage.after t = some stage := by
  induction t with
  | nil => rfl
  | cons a t ih =>
    cases a with
    | collector c => cases h
    | entered p =>
      have hnext : stage.next (.entered p) = some stage := by
        cases stage with
        | idle => exact absurd rfl hstage
        | running => rfl
        | stopped => rfl
      rw [after_cons, hnext]
      exact ih h
    | logged e => cases stage <;> exact ih h
    | asked q => cases stage <;> exact ih h
    | engine c => cases stage <;> exact ih h

theorem after_report {c : CollectorCall} (h : c.isReport = true) :
    stopped.after [.collector c] = some stopped := by
  cases c with
  | summaryText => rfl
  | detailedAnalysis key => rfl
  | start => cases h
  | stop => cases h
  | erase => cases h

end CoverageStage

def Measurement.stage {κ : Type} (m : Measurement κ) : CoverageStage :=
  if m.running then .running else .stopped

namespace Batch

variable {κ : Type}

def stage? (b : Batch κ) : Option CoverageStage :=
  match b.measuring with
  | .impossible => none
  | .idle _ => some .idle
  | .started m => some m.stage

/-- There is no collector, or it has not been called and coverage is not wanted. -/
def Unmeasured (b : Batch κ) (wanted : Bool) : Prop :=
  b.measuring = .impossible ∨ wanted = false ∧ ∃ s, b.measuring = .idle s

end Batch

namespace Passage

variable {σ κ : Type}

/-- A batch with a collector has one afterwards, and the record leads from its stage to the stage
afterwards. -/
def conforming : Passage (Batch κ) where
  rel b t b' := ∀ stage, b.stage? = some stage →
    ∃ stage', b'.stage? = some stage' ∧ stage.after t = some stage'
  nil b stage h := ⟨stage, h, rfl⟩
  append {b b' b'' t u} h h' stage hb := by
    obtain ⟨stage', hb', ht⟩ := h stage hb
    obtain ⟨stage'', hb'', hu⟩ := h' stage' hb'
    exact ⟨stage'', hb'', by rw [CoverageStage.after_append, ht, Option.bind_some, hu]⟩

def unstopping : Passage (Batch κ) where
  rel b _ b' := b.stage? ≠ some .stopped → b'.stage? ≠ some .stopped
  nil _ h := h
  append h h' hb := h' (h hb)

/-- Without a collector, or if coverage is not wanted, the measurement does not begin and nothing calls the
collector. -/
def unmeasured (wanted : Bool) : Passage (Batch κ) where
  rel b t b' := b.Unmeasured wanted → t.collectorCalls = [] ∧ b'.measuring = b.measuring
  nil b _ := ⟨rfl, rfl⟩
  append {b b' b'' t u} h h' hb := by
    obtain ⟨ht, hb'⟩ := h hb
    obtain ⟨hu, hb''⟩ := h' (by rwa [Batch.Unmeasured, hb'])
    exact ⟨by rw [Trace.collectorCalls_append, ht, hu, List.nil_append], hb''.trans hb'⟩

/-- What is done keeps a stopped measurement stopped. -/
def afterwards : Passage σ where
  rel _ t _ := CoverageStage.stopped.after t = some .stopped
  nil _ := rfl
  append h h' := by rw [CoverageStage.after_append, h, Option.bind_some, h']

end Passage

namespace Assignment

theorem reply_lacking {β : Type} {part? : Activity → Option β} (hevent : ∀ e, part? (.logged e) = none)
    (a : Assignment) (q : Ask) : (a.reply q).Obeys (.lacking part?) := by
  have hlog (e : Event) : (Run.log e : Run (List String) Unit).Obeys (.lacking part?) :=
    fun _ => Trace.filterMap_events hevent [e]
  have hlookUp (name default : String) :
      (a.lookUp name default : Run (List String) (Option Value)).Obeys (.lacking part?) := by
    unfold lookUp
    split
    · exact .pure _
    · exact .bind (hlog _) fun _ => .pure _
  cases q with
  | int r =>
    unfold reply
    dsimp only
    split
    · exact .pure _
    · refine .bind (hlookUp _ _) fun v => ?_
      cases v <;> exact .pure _
  | sequence r =>
    unfold reply
    dsimp only
    split
    · exact .pure _
    · refine .bind (hlookUp _ _) fun v => ?_
      cases v <;> exact .pure _
  | assume condition => exact .pure _
  | log line => exact .bind (hlog _) fun _ _ => rfl
  | concretize v => exact .pure _
  | mode => exact .pure _

end Assignment

namespace Body

theorem obeys_run {σ α : Type} {P : Passage σ} {answer : (q : Ask) → Run σ q.Reply}
    (hask : ∀ q, (Run.record [.asked q] : Run σ Unit).Obeys P) (hanswer : ∀ q, (answer q).Obeys P)
    (b : Body α) : (b.run answer).Obeys P := by
  induction b with
  | done a => exact .pure _
  | fail e => exact .pure _
  | panic p => exact .pure _
  | ask q next ih => exact .bind (hask q) fun _ => .bind (hanswer q) ih

end Body

namespace Replay

variable {ι : Type} (test : Test ι) (a : Assignment)

section Lacking

variable {β : Type} {part? : Activity → Option β} (hevent : ∀ e, part? (.logged e) = none)
  (hphase : ∀ p, part? (.entered p) = none) (hask : ∀ q, part? (.asked q) = none)

include hevent hphase hask

theorem phases_lacking : (phases test a).Obeys (.lacking part?) := by
  have henter (p : Phase) : (Run.enter p : Run (List String) Unit).Obeys (.lacking part?) :=
    fun _ => List.filterMap_cons_none (hphase p)
  have hbody {α : Type} (b : Body α) : (b.run a.reply).Obeys (.lacking part?) :=
    Body.obeys_run (fun q _ => List.filterMap_cons_none (hask q)) (a.reply_lacking hevent) b
  refine .bind (henter _) fun _ => ?_
  split
  · exact .pure _
  · refine .bind (henter _) fun _ => .bind (hbody _) fun ending => ?_
    split
    · exact .pure _
    · exact .bind (henter _) fun _ => .bind (hbody _) fun _ => .pure _

theorem run_lacking : (run test a).2.filterMap part? = [] := by
  have h : (phases test a []).trace.filterMap part? = [] := phases_lacking test a hevent hphase hask []
  simp only [run]
  cases (phases test a []).value <;> simp [h, hevent]

end Lacking

theorem collectorCalls_run : (run test a).2.collectorCalls = [] :=
  run_lacking test a (fun _ => rfl) (fun _ => rfl) fun _ => rfl

end Replay

namespace Collector

variable {κ : Type} (C : Collector κ)

theorem afterwards_reconcile (config : CoverageConfig) :
    (C.reconcile config).Obeys .afterwards :=
  C.obeys_reconcile (fun _ hc _ => CoverageStage.after_report hc) (fun _ _ => rfl) config

end Collector

namespace Measurement

variable {κ : Type} (C : Collector κ) (m : Measurement κ)

theorem stage_ne_idle : m.stage ≠ .idle := by
  unfold stage
  split <;> decide

theorem stage_stop :
    (stop C m).state.stage = .stopped ∧ m.stage.after (stop C m).trace = some .stopped := by
  obtain ⟨s, running⟩ := m
  cases running <;> exact ⟨rfl, rfl⟩

end Measurement

namespace BatchPlan

variable {ι κ : Type} (plan : BatchPlan ι κ)

theorem begin_of_stage (hmeasure : plan.config.measureCoverage = true) {b : Batch κ}
    {stage : CoverageStage} (h : b.stage? = some stage) :
    ∃ stage', (plan.beginMeasurement b).state.stage? = some stage' ∧
      stage.after (plan.beginMeasurement b).trace = some stage' ∧ stage' ≠ .idle := by
  obtain ⟨s, hidle, -, hbegin⟩ | ⟨hunwanted, es, hbegin⟩ := plan.begin_cases b
  · obtain rfl : .idle = stage := by simpa [Batch.stage?, hidle] using h
    rw [hbegin]
    exact ⟨.running, rfl, rfl, by decide⟩
  · have hbegun : stage ≠ .idle := by
      cases hm : b.measuring with
      | impossible => simp [Batch.stage?, hm] at h
      | idle s => simp [hunwanted s hm] at hmeasure
      | started m =>
        obtain rfl : m.stage = stage := by simpa [Batch.stage?, hm] using h
        exact m.stage_ne_idle
    rw [hbegin]
    exact ⟨stage, h, CoverageStage.after_of_no_calls hbegun (Trace.collectorCalls_events es), hbegun⟩

theorem conforming_replays (hmeasure : plan.config.measureCoverage = true) :
    plan.StepsObey .conforming where
  begin b stage h := by
    obtain ⟨stage', hstage, hafter, -⟩ := plan.begin_of_stage hmeasure h
    exact ⟨stage', hstage, hafter⟩
  replay a b stage h := by
    obtain ⟨stage', hstage, hafter, hidle⟩ := plan.begin_of_stage hmeasure h
    have hrun := CoverageStage.after_of_no_calls hidle (Replay.collectorCalls_run plan.test a)
    rw [replayNext_apply]
    refine ⟨stage', hstage, ?_⟩
    rw [CoverageStage.after_append, hafter]
    exact hrun
  mismatch m b stage h := ⟨stage, h, rfl⟩
  skip f b stage h := by
    rw [skip_apply]
    exact ⟨stage, h, by simp⟩
  log e b stage h := ⟨stage, h, by simp⟩

theorem unstopping_begin : plan.beginMeasurement.Obeys .unstopping := by
  intro b h
  obtain ⟨s, -, -, hbegin⟩ | ⟨-, es, hbegin⟩ := plan.begin_cases b
  · rw [hbegin]
    simp [Batch.stage?, Measurement.start, Measurement.stage]
  · rw [hbegin]
    exact h

theorem unstopping_replays : plan.StepsObey .unstopping where
  begin := plan.unstopping_begin
  replay a b h := by
    rw [replayNext_apply]
    exact plan.unstopping_begin b h
  mismatch m b h := h
  skip f b h := h
  log e b h := h

/-- Collecting is in turn. The measurement has been stopped before the first report is asked for. -/
theorem conforming_collect (hmeasure : plan.config.measureCoverage = true) :
    plan.collect.Obeys .conforming := by
  intro b stage h
  obtain ⟨stage', hstage, hafter, -⟩ := plan.begin_of_stage hmeasure h
  obtain ⟨m, hm, hcollect⟩ | ⟨-, hcollect⟩ := plan.collect_cases b
  · have hm' : (plan.beginMeasurement b).state.stage? = some m.stage := by simp [Batch.stage?, hm]
    obtain rfl : m.stage = stage' := Option.some.inj (hm'.symm.trans hstage)
    have hstop := Measurement.stage_stop plan.collector m
    have hreports := plan.collector.afterwards_reconcile plan.coverage
      (Measurement.stop plan.collector m).state.collector
    rw [hcollect]
    refine ⟨.stopped, congrArg some hstop.1, ?_⟩
    rw [CoverageStage.after_append, hafter, Option.bind_some, CoverageStage.after_append, hstop.2]
    exact hreports
  · rw [hcollect]
    exact ⟨stage', hstage, hafter⟩

theorem finish_of_stage {b : Batch κ} {stage : CoverageStage} (h : b.stage? = some stage) :
    ∃ stage', (plan.finish b).state.stage? = some stage' ∧
      stage.after (plan.finish b).trace = some stage' ∧ stage' ≠ .running := by
  obtain ⟨position, report, measuring⟩ := b
  cases measuring with
  | impossible => cases h
  | idle s =>
    cases h
    exact ⟨.idle, rfl, rfl, by decide⟩
  | started m =>
    cases h
    have hstop := Measurement.stage_stop plan.collector m
    exact ⟨.stopped, congrArg some hstop.1, hstop.2, by decide⟩

theorem unmeasured_begin :
    plan.beginMeasurement.Obeys (.unmeasured plan.config.measureCoverage) := by
  intro b h
  obtain ⟨s, hidle, hwanted, -⟩ | ⟨-, es, hbegin⟩ := plan.begin_cases b
  · obtain himpossible | ⟨hunwanted, -⟩ := h
    · rw [himpossible] at hidle
      cases hidle
    · rw [hunwanted] at hwanted
      cases hwanted
  · rw [hbegin]
    exact ⟨Trace.collectorCalls_events es, rfl⟩

theorem unmeasured_replays : plan.StepsObey (.unmeasured plan.config.measureCoverage) where
  begin := plan.unmeasured_begin
  replay a b h := by
    obtain ⟨hcalls, hmeasuring⟩ := plan.unmeasured_begin b h
    rw [replayNext_apply]
    refine ⟨?_, hmeasuring⟩
    rw [Trace.collectorCalls_append, hcalls, Replay.collectorCalls_run, List.nil_append]
  mismatch m b _ := ⟨rfl, rfl⟩
  skip f b _ := ⟨rfl, rfl⟩
  log e b _ := ⟨rfl, rfl⟩

theorem unmeasured_collect {b : Batch κ} (h : b.Unmeasured plan.config.measureCoverage) :
    (plan.collect b).value = .error .coverageUnavailable ∧
      (plan.collect b).trace.collectorCalls = [] ∧
      (plan.collect b).state.measuring = b.measuring := by
  obtain ⟨hcalls, hmeasuring⟩ := plan.unmeasured_begin b h
  obtain ⟨m, hm, -⟩ | ⟨-, hcollect⟩ := plan.collect_cases b
  · rw [hmeasuring] at hm
    obtain h | ⟨-, s, h⟩ := h <;> simp [h] at hm
  · rw [hcollect]
    exact ⟨rfl, hcalls, hmeasuring⟩

theorem unmeasured_finish {b : Batch κ} (h : b.Unmeasured plan.config.measureCoverage) :
    (plan.finish b).trace.collectorCalls = [] := by
  obtain ⟨position, report, measuring⟩ := b
  obtain h | ⟨-, s, h⟩ := h <;> cases h <;> rfl

/-- The protocol of the measurement in a batch, by any operations in any order and to the end of the batch. If
there is a collector and coverage is wanted, the collector hears nothing, or it is started, stopped and
then asked for reports; it has been started when a test is built; and it is not stopped before the batch
is asked for its coverage. Otherwise it hears nothing, and there is no coverage to collect. A file that
cannot be opened leads to no call, and collecting leaves the report of the batch as it is. -/
theorem keeps_coverage_protocol (collector : Option κ) (steps : List (BatchStep ι)) :
    let done := plan.follow steps (.fresh collector)
    let ended := plan.session steps (.fresh collector)
    (collector.isSome = true ∧ plan.config.measureCoverage = true →
        (ended.trace.collectorCalls = [] ∨
          ∃ reports, ended.trace.collectorCalls = .start :: .stop :: reports ∧
            ∀ c ∈ reports, c.isReport = true) ∧
        (∀ t u : Trace, ended.trace = t ++ .entered .build :: u → .start ∈ t.collectorCalls) ∧
        ((∀ step ∈ steps, step.2 ≠ .collect) → .stop ∉ done.trace.collectorCalls)) ∧
      (collector = none ∨ plan.config.measureCoverage = false →
        ended.trace.collectorCalls = [] ∧
          (plan.collect done.state).value = .error .coverageUnavailable) ∧
      (∀ reason, (plan.replayFile (.error reason) done.state).trace.collectorCalls = []) ∧
      (plan.collect done.state).state.report = done.state.report := by
  intro done ended
  refine ⟨fun ⟨hcollector, hmeasure⟩ => ?_, fun hunmeasured => ?_, fun _ => rfl,
    by rw [plan.state_collect]⟩
  · obtain ⟨s, rfl⟩ := Option.isSome_iff_exists.1 hcollector
    have hfollow : (plan.follow steps).Obeys .conforming :=
      plan.obeys_follow fun step _ =>
        (conforming_replays { plan with test := step.1 } hmeasure).perform
          fun _ => conforming_collect _ hmeasure
    obtain ⟨stage, hstage, hdone⟩ := hfollow (.fresh (some s)) .idle rfl
    obtain ⟨last, -, hfinish, hlast⟩ := plan.finish_of_stage hstage
    have hended : CoverageStage.idle.after ended.trace = some last := by
      change CoverageStage.idle.after (done.trace ++ (plan.finish done.state).trace) = _
      rw [CoverageStage.after_append, hdone, Option.bind_some, hfinish]
    refine ⟨?_, ?_, fun hcollect => ?_⟩
    · obtain ⟨-, hcalls⟩ | ⟨hrunning, -⟩ | ⟨-, hcalls⟩ := CoverageStage.calls_of_idle hended
      · exact .inl hcalls
      · exact absurd hrunning hlast
      · exact .inr hcalls
    · intro t u htrace
      rw [htrace] at hended
      exact CoverageStage.start_mem_of_build hended
    · have hunstopped : (plan.follow steps).Obeys .unstopping :=
        plan.obeys_follow fun step hstep =>
          (unstopping_replays { plan with test := step.1 }).perform
            fun h => absurd h (hcollect step hstep)
      have hstopped : done.state.stage? ≠ some .stopped := hunstopped (.fresh (some s)) nofun
      obtain ⟨-, hcalls⟩ | ⟨-, hcalls⟩ | ⟨rfl, -⟩ := CoverageStage.calls_of_idle hdone
      · simp [done, hcalls]
      · simp [done, hcalls]
      · exact absurd hstage hstopped
  · have hfresh : (Batch.fresh collector).Unmeasured plan.config.measureCoverage := by
      cases collector with
      | none => exact .inl rfl
      | some s => exact .inr ⟨hunmeasured.resolve_left nofun, s, rfl⟩
    have hfollow : (plan.follow steps).Obeys (.unmeasured plan.config.measureCoverage) :=
      plan.obeys_follow fun step _ =>
        (unmeasured_replays { plan with test := step.1 }).perform
          fun _ b hb => (unmeasured_collect _ hb).2
    obtain ⟨hcalls, hmeasuring⟩ := hfollow (.fresh collector) hfresh
    have hdone : done.state.Unmeasured plan.config.measureCoverage := by
      rwa [Batch.Unmeasured, hmeasuring]
    refine ⟨?_, (plan.unmeasured_collect hdone).1⟩
    change (done.trace ++ (plan.finish done.state).trace).collectorCalls = []
    rw [Trace.collectorCalls_append, hcalls, plan.unmeasured_finish hdone, List.nil_append]

def listing : Collector Unit where
  answer
    | .start, _ => ((), ())
    | .stop, _ => ((), ())
    | .erase, _ => ((), ())
    | .summaryText, _ => (.ok "target 4 1 75%", ())
    | .detailedAnalysis key, _ => (.error (.io key), ())

def unbuildable : Test Unit where
  build := .error (.text "no instance")
  prepare _ := return ()
  execute _ := return ()

theorem keeps_coverage_protocol_listing :
    let plan : BatchPlan Unit Unit := ⟨unbuildable, .standard, listing, .standard⟩
    let steps : List (BatchStep Unit) :=
      [.file (.error "No such file"), .assignment .empty, .collect, .assignment .empty,
        .collect].map fun op => (unbuildable, op)
    let calls := (plan.session steps (.fresh (some ()))).trace.collectorCalls
    ((some ()).isSome = true ∧ plan.config.measureCoverage = true ∧ calls ≠ [] ∧
        ∃ reports, calls = .start :: .stop :: reports ∧ ∀ c ∈ reports, c.isReport = true) ∧
      ((∀ step ∈ steps.take 2, step.2 ≠ .collect) ∧
        .stop ∉ (plan.follow (steps.take 2) (.fresh (some ()))).trace.collectorCalls) ∧
      (plan.session steps (.fresh none)).trace.collectorCalls = [] := by
  intro plan steps calls
  have hcalls : calls ≠ [] := by decide +kernel
  have huncollected : ∀ step ∈ steps.take 2, step.2 ≠ .collect := by simp [steps]
  have h := (plan.keeps_coverage_protocol (some ()) steps).1 ⟨rfl, rfl⟩
  have hbefore := (plan.keeps_coverage_protocol (some ()) (steps.take 2)).1 ⟨rfl, rfl⟩
  have hnone := (plan.keeps_coverage_protocol none steps).2.1 (.inl rfl)
  exact ⟨⟨rfl, rfl, hcalls, h.1.resolve_left hcalls⟩, ⟨huncollected, hbefore.2.2 huncollected⟩,
    hnone.1⟩

end BatchPlan

end Concolic
