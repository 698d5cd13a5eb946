import Concolic.Proofs.BatchHistory
import Concolic.Proofs.CoverageProtocol
import Concolic.Proofs.SummaryTable
import Mathlib.Data.List.Nodup

/-!
# Reconciliation of coverage

A collector is asked for its summary, and then once for each file that the summary lists. Whatever it answers, and
however its answers depend on what it has heard before, the report binds the files whose analysis it gave.
-/

namespace Concolic

namespace CoverageConfig

theorem analysisKey_injective (config : CoverageConfig) : Function.Injective config.analysisKey := by
  intro f g h
  unfold analysisKey at h
  split at h
  · exact h
  · exact (String.append_left_inj _).1 ((String.append_left_inj _).1 h)

def analysisCalls (config : CoverageConfig) (files : List String) : List CollectorCall :=
  files.map fun f => .detailedAnalysis (config.analysisKey f)

end CoverageConfig

namespace CoverageReport

theorem lookup_put (name other : String) (analysis : FileAnalysis) (fs : List (String × FileAnalysis)) :
    (put name analysis fs).lookup other = if other = name then some analysis else fs.lookup other := by
  induction fs with
  | nil => simp [put, Keyed.lookup_cons]
  | cons f fs ih =>
    obtain ⟨n, a⟩ := f
    by_cases hlt : name < n
    · simp [put, hlt, Keyed.lookup_cons]
    · by_cases heq : name = n
      · subst heq
        by_cases h : other = name <;> simp [put, Keyed.lookup_cons, h]
      · by_cases h : other = n
        · subst h
          simp [put, hlt, heq, Ne.symm heq]
        · simp [put, hlt, heq, Keyed.lookup_cons, h, ih]

def get? (r : CoverageReport) (file : String) : Option FileAnalysis :=
  r.files.lookup file

@[simp] theorem get?_empty (file : String) : empty.get? file = none := rfl

theorem get?_insert (r : CoverageReport) (name other : String) (analysis : FileAnalysis) :
    (r.insert name analysis).get? other = if other = name then some analysis else r.get? other :=
  lookup_put name other analysis r.files

end CoverageReport

namespace Collector

variable {κ : Type} (C : Collector κ)

def after (calls : List CollectorCall) (s : κ) : κ :=
  calls.foldl (fun s c => (C.answer c s).2) s

@[simp] theorem after_nil (s : κ) : C.after [] s = s := rfl

@[simp] theorem after_cons (c : CollectorCall) (calls : List CollectorCall) (s : κ) :
    C.after (c :: calls) s = C.after calls (C.answer c s).2 := rfl

@[simp] theorem value_call (c : CollectorCall) (s : κ) : (C.call c s).value = (C.answer c s).1 := rfl

@[simp] theorem state_call (c : CollectorCall) (s : κ) : (C.call c s).state = (C.answer c s).2 := rfl

@[simp] theorem trace_call (c : CollectorCall) (s : κ) : (C.call c s).trace = [.collector c] := rfl

/-- Whether the analysis of a file is what it gets when it is asked for after those before it. -/
def Analyses (config : CoverageConfig) (files : List String) (s : κ) (file : String) (analysis : FileAnalysis) :
    Prop :=
  ∃ earlier later, files = earlier ++ file :: later ∧
    (C.answer (.detailedAnalysis (config.analysisKey file)) (C.after (config.analysisCalls earlier) s)).1 =
      .ok analysis

theorem analyse_apply (config : CoverageConfig) (report : CoverageReport) (file : String) (s : κ) :
    let call : CollectorCall := .detailedAnalysis (config.analysisKey file)
    let asked := C.analyse config report file s
    asked.trace.collectorCalls = [call] ∧ asked.state = C.after [call] s ∧
      asked.value = match (C.answer (.detailedAnalysis (config.analysisKey file)) s).1 with
        | .ok analysis => report.insert file analysis
        | .error _ => report := by
  intro call asked
  simp only [asked, analyse, Run.bind_apply, Run.log_apply, value_call, state_call, trace_call]
  cases (C.answer (.detailedAnalysis (config.analysisKey file)) s).1 <;> exact ⟨rfl, rfl, rfl⟩

theorem collectorCalls_analyses (config : CoverageConfig) (files : List String) (report : CoverageReport) (s : κ) :
    (files.foldlM (C.analyse config) report s).trace.collectorCalls = config.analysisCalls files := by
  induction files generalizing report s with
  | nil => rfl
  | cons file files ih =>
    obtain ⟨hcalls, -, -⟩ := C.analyse_apply config report file s
    rw [List.foldlM_cons, Run.bind_apply, Trace.collectorCalls_append, hcalls, ih]
    rfl

theorem analyses_cons_iff {config : CoverageConfig} {file other : String} {files : List String} {s : κ}
    {analysis : FileAnalysis} :
    C.Analyses config (file :: files) s other analysis ↔
      other = file ∧ (C.answer (.detailedAnalysis (config.analysisKey file)) s).1 = .ok analysis ∨
      C.Analyses config files (C.after [.detailedAnalysis (config.analysisKey file)] s) other analysis := by
  constructor
  · rintro ⟨earlier, later, hfiles, hanswer⟩
    cases earlier with
    | nil =>
      obtain ⟨rfl, -⟩ := List.cons.inj hfiles
      exact .inl ⟨rfl, hanswer⟩
    | cons first earlier =>
      obtain ⟨rfl, rfl⟩ := List.cons.inj hfiles
      exact .inr ⟨earlier, later, rfl, hanswer⟩
  · rintro (⟨rfl, hanswer⟩ | ⟨earlier, later, rfl, hanswer⟩)
    · exact ⟨[], files, rfl, hanswer⟩
    · exact ⟨file :: earlier, later, rfl, hanswer⟩

/-- A report comes to bind the files whose analyses are given, if they are different and it has none of them. -/
theorem get?_analyses {config : CoverageConfig} {files : List String} {report : CoverageReport} {s : κ}
    (hfiles : files.Nodup) (hnew : ∀ file ∈ files, report.get? file = none) (file : String)
    (analysis : FileAnalysis) :
    (files.foldlM (C.analyse config) report s).value.get? file = some analysis ↔
      report.get? file = some analysis ∨ C.Analyses config files s file analysis := by
  induction files generalizing report s with
  | nil =>
    have hnone : ¬ C.Analyses config [] s file analysis := by
      rintro ⟨earlier, later, hfiles, -⟩
      simp at hfiles
    simp [hnone]
  | cons first files ih =>
    obtain ⟨-, hstate, hvalue⟩ := C.analyse_apply config report first s
    obtain ⟨hfirst, hrest⟩ := List.nodup_cons.1 hfiles
    have hold := hnew first List.mem_cons_self
    rw [List.foldlM_cons, Run.bind_apply, hstate, hvalue, analyses_cons_iff]
    cases hanswer : (C.answer (.detailedAnalysis (config.analysisKey first)) s).1 with
    | error f =>
      rw [ih hrest fun g hg => hnew g (List.mem_cons_of_mem _ hg)]
      simp
    | ok found =>
      rw [ih hrest]
      · rw [CoverageReport.get?_insert]
        by_cases h : file = first
        · subst h
          simp [hold]
        · simp [h]
      · intro g hg
        have hne : g ≠ first := by
          rintro rfl
          exact hfirst hg
        rw [CoverageReport.get?_insert, if_neg hne]
        exact hnew g (List.mem_cons_of_mem _ hg)

theorem reconcile_of_error {config : CoverageConfig} {s s' : κ} {f : Fault}
    (h : C.answer .summaryText s = (.error f, s')) :
    C.reconcile config s = ⟨.error f, s', [.collector .summaryText]⟩ := by
  simp only [reconcile, Run.bind_apply, value_call, state_call, trace_call, h]
  rfl

theorem reconcile_of_ok {config : CoverageConfig} {s s' : κ} {summary : String}
    (h : C.answer .summaryText s = (.ok summary, s')) :
    let built := ((Summary.parse summary).map Prod.fst).foldlM (C.analyse config) .empty s'
    C.reconcile config s = ⟨.ok built.value, built.state, .collector .summaryText :: built.trace⟩ := by
  simp only [reconcile, Run.bind_apply, value_call, state_call, trace_call, h, Run.pure_apply, List.append_nil]
  rfl

/-- Coverage is reconciled by one call for the summary and, if there is one, one call for each file that it lists.
Files are asked for where they are first listed, and under different names. The report binds a file to the analysis
that was given when the file was asked for, and binds nothing else. -/
theorem reconciles_listed_files (config : CoverageConfig) (s : κ) :
    let done := C.reconcile config s
    match C.answer .summaryText s with
    | (.error f, _) => done.value = .error f ∧ done.trace.collectorCalls = [.summaryText]
    | (.ok summary, s') =>
      let files := (Summary.parse summary).map Prod.fst
      files.Nodup ∧ files = ((Summary.rows summary).map Prod.fst).eraseDups ∧
        (files.map config.analysisKey).Nodup ∧
        done.trace.collectorCalls = .summaryText :: config.analysisCalls files ∧
        ∃ report, done.value = .ok report ∧
          ∀ file analysis, report.get? file = some analysis ↔ C.Analyses config files s' file analysis := by
  intro done
  cases hanswer : C.answer .summaryText s with
  | mk answer s' =>
    cases answer with
    | error f =>
      have hdone : done = ⟨.error f, s', [.collector .summaryText]⟩ := C.reconcile_of_error hanswer
      rw [hdone]
      exact ⟨rfl, rfl⟩
    | ok summary =>
      let files := (Summary.parse summary).map Prod.fst
      let built := files.foldlM (C.analyse config) .empty s'
      have hdone : done = ⟨.ok built.value, built.state, .collector .summaryText :: built.trace⟩ :=
        C.reconcile_of_ok hanswer
      have hfiles : files.Nodup := Keyed.nodup_ofEntries (Summary.rows summary)
      have hcalls := C.collectorCalls_analyses config files .empty s'
      refine ⟨hfiles, Keyed.keys_ofEntries _, List.Nodup.map config.analysisKey_injective hfiles, ?_, built.value,
        ?_, fun file analysis => ?_⟩
      · rw [hdone, Trace.collectorCalls_collector, hcalls]
      · rw [hdone]
      · refine (C.get?_analyses hfiles (fun _ _ => CoverageReport.get?_empty _) file analysis).trans ?_
        rw [CoverageReport.get?_empty]
        exact or_iff_right nofun

/-- A collector that counts its calls, and that has no data for every second file. -/
def everySecond : Collector Nat where
  answer
    | .start, n => ((), n)
    | .stop, n => ((), n)
    | .erase, n => ((), n)
    | .summaryText, n => (.ok "a 3 1 66%\nb 1 0 100%\na 5 0 99%\nTOTAL 4 1 75%\nc 0 0 100%", n + 1)
    | .detailedAnalysis key, n => (if n % 2 = 0 then .error (.io key) else .ok default, n + 1)

example :
    let done := everySecond.reconcile .standard 0
    done.trace.collectorCalls = [.summaryText, .detailedAnalysis "a.py", .detailedAnalysis "b.py",
      .detailedAnalysis "c.py"] ∧
      done.value.map CoverageReport.files = .ok [("a", default), ("c", default)] := by
  decide +kernel

end Collector

end Concolic
