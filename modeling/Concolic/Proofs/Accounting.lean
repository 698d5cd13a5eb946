import Concolic.Proofs.BatchLedger

/-!
# Accounts of batches

The numbers and the lists of a report agree with each other and with what became of each input. All of it is
read off the ledger, in which an entry carries the number of its input.
-/

namespace Concolic

section Numbered

variable {α β : Type} (entry : α → Nat → Option β) {index : β → Nat}
  (hindex : ∀ {x n y}, entry x n = some y → index y = n)

include hindex

theorem pairwise_numbered (xs : List α) :
    (xs.zipIdx.filterMap fun x => entry x.1 x.2).Pairwise fun y z => index y < index z := by
  have hnumbers : (xs.zipIdx.map Prod.snd).Pairwise (· < ·) := by
    rw [List.zipIdx_map_snd]
    exact List.pairwise_lt_range'
  refine List.pairwise_filterMap.2 ((List.pairwise_map.1 hnumbers).imp fun h y hy z hz => ?_)
  rw [hindex hy, hindex hz]
  exact h

/-- An entry has its origin at the place that it carries the number of. -/
theorem mem_numbered {xs : List α} {y : β} :
    (y ∈ xs.zipIdx.filterMap fun x => entry x.1 x.2) ↔
      ∃ x, xs[index y]? = some x ∧ entry x (index y) = some y := by
  simp only [List.mem_filterMap, Prod.exists, List.mem_zipIdx_iff_getElem?]
  constructor
  · rintro ⟨x, n, hx, hy⟩
    rw [hindex hy]
    exact ⟨x, hx, hy⟩
  · rintro ⟨x, hx, hy⟩
    exact ⟨x, _, hx, hy⟩

end Numbered

namespace Trial

variable {ι : Type} {x : Trial ι} {index : Nat}

theorem index_of_failure? {f : BatchFailure} (h : x.failure? index = some f) : f.index = index := by
  unfold failure? at h
  cases hv : x.verdict <;> rw [hv] at h <;> cases h <;> rfl

theorem index_of_mismatch? {compare : Bool} {m : Mismatch}
    (h : x.mismatch? compare index = some m) : m.index = index := by
  obtain ⟨test, input⟩ := x
  cases input with
  | assignment a => cases h
  | undecodable f => cases h
  | recorded c =>
    simp only [mismatch?, Mismatch.check] at h
    split at h
    · split at h <;> cases h
      rfl
    · cases h

theorem isSome_mismatch? {compare : Bool} :
    (x.mismatch? compare index).isSome = true ↔
      compare = true ∧ ∃ c, x.input = .recorded c ∧
        String.join (Replay.run x.test c.assignment).1.log ≠ c.output := by
  obtain ⟨test, input⟩ := x
  cases input with
  | assignment a => simp [mismatch?]
  | undecodable f => simp [mismatch?]
  | recorded c =>
    have hcheck : (Mismatch.check index c.pathId c.output
        (Replay.run test c.assignment).1.output).isSome = true ↔
          String.join (Replay.run test c.assignment).1.log ≠ c.output := by
      unfold Mismatch.check
      by_cases h : c.output = (Replay.run test c.assignment).1.output
      · simp [h, Replay.output]
      · simpa [h] using fun hjoin => h hjoin.symm
    cases compare <;> simp [mismatch?, hcheck]

end Trial

namespace BatchReport

variable {ι : Type} (compare : Bool) (xs : List (Trial ι))

theorem succeeded_add_failures :
    (ofTrials compare xs).succeeded + (ofTrials compare xs).failures.length = xs.length := by
  induction xs with
  | nil => rfl
  | cons x xs ih =>
    have hfirst : (x.alone compare).succeeded + (x.alone compare).failures.length = 1 := by
      simp only [Trial.alone, Trial.failure?]
      cases x.verdict <;> rfl
    have hrest : ((ofTrials compare xs).shift 1).succeeded +
        ((ofTrials compare xs).shift 1).failures.length = xs.length := by
      simpa [shift] using ih
    simp only [ofTrials, succeeded_append, failures_append, List.length_append, List.length_cons]
    omega

theorem mem_failures_ofTrials (f : BatchFailure) :
    f ∈ (ofTrials compare xs).failures ↔
      ∃ x, xs[f.index]? = some x ∧ x.failure? f.index = some f := by
  rw [ofTrials_eq]
  exact mem_numbered Trial.failure? Trial.index_of_failure?

theorem mem_mismatches_ofTrials (m : Mismatch) :
    m ∈ (ofTrials compare xs).mismatches ↔
      ∃ x, xs[m.index]? = some x ∧ x.mismatch? compare m.index = some m := by
  rw [ofTrials_eq]
  exact mem_numbered (Trial.mismatch? compare) Trial.index_of_mismatch?

theorem exists_mismatch_ofTrials (i : Nat) :
    (∃ m ∈ (ofTrials compare xs).mismatches, m.index = i) ↔
      compare = true ∧ ∃ test c, xs[i]? = some ⟨test, .recorded c⟩ ∧
        String.join (Replay.run test c.assignment).1.log ≠ c.output := by
  simp only [mem_mismatches_ofTrials]
  constructor
  · rintro ⟨m, ⟨⟨test, input⟩, hx, hm⟩, rfl⟩
    obtain ⟨hcompare, c, hinput, hjoin⟩ :=
      Trial.isSome_mismatch?.1 (Option.isSome_iff_exists.2 ⟨m, hm⟩)
    cases hinput
    exact ⟨hcompare, test, c, hx, hjoin⟩
  · rintro ⟨hcompare, test, c, hx, hjoin⟩
    have hsome : (Trial.mismatch? compare ⟨test, .recorded c⟩ i).isSome = true :=
      Trial.isSome_mismatch?.2 ⟨hcompare, c, rfl, hjoin⟩
    obtain ⟨m, hm⟩ := Option.isSome_iff_exists.1 hsome
    obtain rfl := Trial.index_of_mismatch? hm
    exact ⟨m, ⟨_, hx, hm⟩, rfl⟩

theorem failures_ofTrials_eq_nil_iff :
    (ofTrials compare xs).failures = [] ↔ ∀ x ∈ xs, x.verdict = .succeeded := by
  have hlength := succeeded_add_failures compare xs
  have hsucceeded : (ofTrials compare xs).succeeded = xs.length ↔
      ∀ x ∈ xs, x.verdict = .succeeded := by
    rw [ofTrials_eq, List.countP_eq_length]
    simp only [decide_eq_true_eq]
  rw [← List.length_eq_zero_iff, ← hsucceeded]
  omega

end BatchReport

/-- The books of a batch that has taken the inputs `xs` and compares outputs if `compare` says so. -/
structure Batch.Accounts {ι κ : Type} (b : Batch κ) (compare : Bool) (xs : List (Trial ι)) :
    Prop where
  /-- The numbers below the position are those of the inputs. -/
  position : b.position = xs.length
  succeeded : b.report.succeeded = xs.countP fun x => x.verdict = .succeeded
  replayed : b.report.replayed = xs.countP fun x => x.verdict.isRun
  /-- No input is passed over, and none counts twice. -/
  complete : b.report.succeeded + b.report.failures.length = b.position
  failures (f : BatchFailure) :
    f ∈ b.report.failures ↔ ∃ x, xs[f.index]? = some x ∧ x.failure? f.index = some f
  failures_ascending : b.report.failures.Pairwise fun f g => f.index < g.index
  mismatches (i : Nat) :
    (∃ m ∈ b.report.mismatches, m.index = i) ↔
      compare = true ∧ ∃ test c, xs[i]? = some ⟨test, .recorded c⟩ ∧
        String.join (Replay.run test c.assignment).1.log ≠ c.output
  mismatches_ascending : b.report.mismatches.Pairwise fun m m' => m.index < m'.index
  clean : b.report.isClean = true ↔
    (∀ x ∈ xs, x.verdict = .succeeded) ∧ b.report.mismatches = []

namespace BatchPlan

variable {ι κ : Type} (plan : BatchPlan ι κ)

/-- A batch keeps its books by any history, whatever the tests of its operations do. A further operation
numbers its inputs from the position on, and appends to the lists of the report. -/
theorem keeps_accounts (collector : Option κ) (steps : List (BatchStep ι)) :
    let b := (plan.follow steps (.fresh collector)).state
    b.Accounts plan.config.compareOutput (trials steps) ∧
      ∀ (test : Test ι) (op : Operation),
        let b' := ({ plan with test := test }.perform op b).state
        b'.position = b.position + op.inputs.length ∧
          b.report.failures <+: b'.report.failures ∧
          b.report.mismatches <+: b'.report.mismatches := by
  intro b
  have hposition := plan.position_follow collector steps
  have hreport := plan.report_follow collector steps
  constructor
  · exact {
      position := hposition
      succeeded := by rw [hreport, BatchReport.ofTrials_eq]
      replayed := by rw [hreport, BatchReport.ofTrials_eq]
      complete := by rw [hreport, hposition, BatchReport.succeeded_add_failures]
      failures := by
        rw [hreport]
        exact BatchReport.mem_failures_ofTrials _ _
      failures_ascending := by
        rw [hreport, BatchReport.ofTrials_eq]
        exact pairwise_numbered Trial.failure? Trial.index_of_failure? _
      mismatches := by
        rw [hreport]
        exact BatchReport.exists_mismatch_ofTrials _ _
      mismatches_ascending := by
        rw [hreport, BatchReport.ofTrials_eq]
        exact pairwise_numbered (Trial.mismatch? _) Trial.index_of_mismatch? _
      clean := by
        rw [hreport, ← BatchReport.failures_ofTrials_eq_nil_iff plan.config.compareOutput]
        simp [BatchReport.isClean] }
  · intro test op b'
    have htakes := takes_perform { plan with test := test } op b
    refine ⟨by rw [htakes.position, List.length_map], ?_, ?_⟩
    · rw [htakes.report]
      exact List.prefix_append _ _
    · rw [htakes.report]
      exact List.prefix_append _ _

end BatchPlan

end Concolic
