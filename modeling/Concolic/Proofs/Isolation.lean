import Concolic.Proofs.BatchLedger

/-!
# Isolation of the inputs of a batch

A batch of one test reports on each input what a replay of that input alone gives, with the number of the
input as the only thing that depends on the others. How the inputs are spread over operations plays no part,
nor does the measurement of coverage.
-/

namespace Concolic

theorem trials_map {ι : Type} (test : Test ι) (ops : List Operation) :
    trials (ops.map fun op => (test, op)) =
      (ops.flatMap Operation.inputs).map (Trial.mk test) := by
  simp only [trials, List.flatMap_map, List.map_flatMap]

namespace BatchReport

variable {ι : Type}

theorem shift_ofTrials_eq_foldr (compare : Bool) (n : Nat) (xs : List (Trial ι)) :
    (ofTrials compare xs).shift n =
      ((xs.zipIdx n).map fun x => (x.1.alone compare).shift x.2).foldr (· ++ ·) empty := by
  induction xs generalizing n with
  | nil => rfl
  | cons x xs ih =>
    rw [ofTrials, shift_append, shift_shift, ih, List.zipIdx_cons]
    rfl

theorem ofTrials_false (compare : Bool) (xs : List (Trial ι)) :
    ofTrials false xs = { ofTrials compare xs with mismatches := [] } := by
  have hnone (x : Trial ι) (index : Nat) : x.mismatch? false index = none := by
    unfold Trial.mismatch?
    cases x.input <;> rfl
  simp only [ofTrials_eq, hnone, List.filterMap_none]

end BatchReport

namespace BatchPlan

variable {ι κ : Type} (plan : BatchPlan ι κ)

theorem value_finish (b : Batch κ) : (plan.finish b).value = b.report := by
  unfold finish
  split <;> rfl

theorem value_session (collector : Option κ) (test : Test ι) (ops : List Operation) :
    (plan.session (ops.map fun op => (test, op)) (.fresh collector)).value =
      .ofTrials plan.config.compareOutput ((ops.flatMap Operation.inputs).map (.mk test)) := by
  rw [← trials_map, ← plan.report_follow collector, ← value_finish plan]
  rfl

theorem report_replayAssignments_append (as as' : List Assignment) (b : Batch κ) :
    (plan.replayAssignments (as ++ as') b).state.report =
      (plan.replayAssignments as' (plan.replayAssignments as b).state).state.report := by
  have hwhole := plan.takes_replayAssignments (as ++ as') b
  rw [List.map_append, List.map_append] at hwhole
  rw [hwhole.report,
    (plan.takes_replayAssignments as b).report_append (plan.takes_replayAssignments as' _)]

theorem report_replayItems_append (items items' : List (Except Fault TestCase)) (b : Batch κ) :
    (plan.replayItems (items ++ items') b).state.report =
      (plan.replayItems items' (plan.replayItems items b).state).state.report := by
  have hwhole := plan.takes_replayItems (items ++ items') b
  rw [List.map_append, List.map_append] at hwhole
  rw [hwhole.report,
    (plan.takes_replayItems items b).report_append (plan.takes_replayItems items' _)]

theorem value_replayCase (c : TestCase) (b : Batch κ) :
    (plan.replayCase c b).value = (Replay.run plan.test c.assignment).1 := by
  rw [replayCase_apply]

/-- The inputs of a batch of one test do not influence each other. At any point of a batch an input gives the
run that it gives by itself, and it adds to the report what it comes to alone, with its number moved up. The
test asks what it asks in replays of the inputs alone, and a batch of the same inputs has the same report by
other operations and with any measurement. Only the mismatches depend on whether outputs are compared. -/
theorem isolates_inputs (collector : Option κ) (ops : List Operation) :
    let steps := ops.map fun op => (plan.test, op)
    let inputs := ops.flatMap Operation.inputs
    let report := (plan.session steps (.fresh collector)).value
    let alone (x : BatchInput) : BatchReport := Trial.alone plan.config.compareOutput ⟨plan.test, x⟩
    (∀ a b, (plan.replayAssignment a b).value = (Replay.run plan.test a).1 ∧
        (plan.replayAssignment a b).state.report =
          b.report ++ (alone (.assignment a)).shift b.position) ∧
      (∀ c b, (plan.replayCase c b).value = (Replay.run plan.test c.assignment).1 ∧
        (plan.replayCase c b).state.report =
          b.report ++ (alone (.recorded c)).shift b.position) ∧
      (∀ f (b : Batch κ), (skip f b).state.report =
        b.report ++ (alone (.undecodable f)).shift b.position) ∧
      report = (inputs.zipIdx.map fun x => (alone x.1).shift x.2).foldr (· ++ ·) .empty ∧
      (plan.follow steps (.fresh collector)).trace.questions =
        (inputs.map (Trial.mk plan.test)).flatMap Trial.questions ∧
      (∀ as as' b, (plan.replayAssignments (as ++ as') b).state.report =
        (plan.replayAssignments as' (plan.replayAssignments as b).state).state.report) ∧
      (∀ items items' b, (plan.replayItems (items ++ items') b).state.report =
        (plan.replayItems items' (plan.replayItems items b).state).state.report) ∧
      ∀ {κ' : Type} (plan' : BatchPlan ι κ') (collector' : Option κ') (ops' : List Operation),
        plan'.test = plan.test →
        ops'.flatMap Operation.inputs = inputs →
        let steps' := ops'.map fun op => (plan'.test, op)
        let report' := (plan'.session steps' (.fresh collector')).value
        (plan'.config.compareOutput = plan.config.compareOutput → report' = report) ∧
          (plan'.config.compareOutput = false → report' = { report with mismatches := [] }) := by
  intro steps inputs report alone
  have hreport : report = .ofTrials plan.config.compareOutput (inputs.map (.mk plan.test)) :=
    plan.value_session collector plan.test ops
  refine ⟨fun a b => ⟨plan.value_replayAssignment a b, ?_⟩,
    fun c b => ⟨plan.value_replayCase c b, ?_⟩, fun f b => ?_, ?_, ?_,
    plan.report_replayAssignments_append, plan.report_replayItems_append, ?_⟩
  · exact (plan.takes_replayAssignment a b).report_singleton
  · exact (plan.takes_replayCase c b).report_singleton
  · exact (takes_skip _ plan.test f b).report_singleton
  · rw [hreport, ← BatchReport.shift_zero (.ofTrials _ _), BatchReport.shift_ofTrials_eq_foldr,
      List.zipIdx_map, List.map_map]
    rfl
  · rw [(plan.takes_follow steps _).questions, trials_map]
  · intro κ' plan' collector' ops' htest hinputs steps' report'
    have hreport' : report' = .ofTrials plan'.config.compareOutput (inputs.map (.mk plan.test)) :=
      calc
        report' = .ofTrials plan'.config.compareOutput
            ((ops'.flatMap Operation.inputs).map (.mk plan'.test)) :=
          plan'.value_session collector' plan'.test ops'
        _ = .ofTrials plan'.config.compareOutput (inputs.map (.mk plan.test)) := by
          rw [hinputs, htest]
    rw [hreport', hreport]
    refine ⟨fun hcompare => by rw [hcompare], fun hcompare => ?_⟩
    rw [hcompare]
    exact BatchReport.ofTrials_false _ _

/-- A test that logs the integer `x` and panics if it is 2. -/
def panickingAtTwo : Test Unit where
  build := .ok ()
  prepare _ := return ()
  execute _ := do
    let x ← Body.acquireInt ⟨"x", 0, none, none⟩
    Body.put (.log (toString x.toInt))
    if x = 2 then .panic (.text "two") else return ()

def withholding : Collector Unit where
  answer
    | .start, _ => ((), ())
    | .stop, _ => ((), ())
    | .erase, _ => ((), ())
    | .summaryText, _ => (.error .coverageUnavailable, ())
    | .detailedAnalysis _, _ => (.error .coverageUnavailable, ())

theorem isolates_inputs_panickingAtTwo :
    let sample (x : Int32) (output : String) : TestCase := ⟨0, .ofList [("x", .int x)], output, 7⟩
    let steps : List Operation → List (BatchStep Unit) := List.map fun op => (panickingAtTwo, op)
    let whole : List Operation :=
      [.items [.ok (sample 2 "two"), .error (.decoding "cut"), .ok (sample 3 "3")]]
    let parts : List Operation :=
      [.collect, .recorded (sample 2 "two"), .collect,
        .items [.error (.decoding "cut"), .ok (sample 3 "3")]]
    let plan : BatchPlan Unit Unit := ⟨panickingAtTwo, .standard, withholding, .standard⟩
    let unmeasured := { plan with config := ⟨true, false⟩ }
    let uncompared := { plan with config := ⟨false, true⟩ }
    let report := (plan.session (steps whole) (.fresh (some ()))).value
    (unmeasured.test = plan.test ∧ uncompared.test = plan.test ∧
        parts.flatMap Operation.inputs = whole.flatMap Operation.inputs ∧
        unmeasured.config.compareOutput = plan.config.compareOutput ∧
        uncompared.config.compareOutput = false) ∧
      (unmeasured.session (steps parts) (.fresh none)).value = report ∧
      (uncompared.session (steps parts) (.fresh (some ()))).value =
        { report with mismatches := [] } ∧
      report.succeeded = 1 ∧
      report.failures.map (fun f => (f.index, f.kind)) = [(0, "Panic"), (1, "DecodingError")] ∧
      report.mismatches.map Mismatch.index = [0] := by
  intro sample steps whole parts plan unmeasured uncompared report
  obtain ⟨-, -, -, -, -, -, -, h⟩ := plan.isolates_inputs (some ()) whole
  exact ⟨⟨rfl, rfl, rfl, rfl, rfl⟩, (h unmeasured none parts rfl rfl).1 rfl,
    (h uncompared (some ()) parts rfl rfl).2 rfl, by decide +kernel⟩

end BatchPlan

end Concolic
