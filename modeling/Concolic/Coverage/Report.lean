import Concolic.Coverage.Summary
import Concolic.Run

/-!
# Coverage reports

The analyses of the files that a summary lists, by file name. The collector is asked for the summary and
then for each listed file once; a file that it cannot analyse is left out.
-/

namespace Concolic

structure CoverageConfig where
  /-- What the collector's names of files end in, after a point; nothing if it is empty. -/
  sourceExtension : String
  deriving DecidableEq, Repr

namespace CoverageConfig

def standard : CoverageConfig := ⟨"py"⟩

/-- The collector's name of a file. -/
def analysisKey (config : CoverageConfig) (file : String) : String :=
  if config.sourceExtension.isEmpty then file else file ++ "." ++ config.sourceExtension

def toJson (config : CoverageConfig) : Json :=
  .object [("source_extension", .string config.sourceExtension)]

def ofJson? (j : Json) : Option CoverageConfig := do
  match ← j.record? ["source_extension"] with
  | [extension] =>
    return ⟨← Json.fieldOr standard.sourceExtension Json.string? extension⟩
  | _ => none

end CoverageConfig

/-- The analyses of files, in the order of their names. -/
structure CoverageReport where
  files : List (String × FileAnalysis)
  sorted : files.Pairwise (·.1 < ·.1)
  deriving DecidableEq

namespace CoverageReport

def empty : CoverageReport := ⟨[], List.Pairwise.nil⟩

def put (name : String) (analysis : FileAnalysis) :
    List (String × FileAnalysis) → List (String × FileAnalysis)
  | [] => [(name, analysis)]
  | (n, a) :: fs =>
    if name < n then (name, analysis) :: (n, a) :: fs
    else if name = n then (name, analysis) :: fs
    else (n, a) :: put name analysis fs

theorem fst_mem_put {name : String} {analysis : FileAnalysis} {fs : List (String × FileAnalysis)}
    {f : String × FileAnalysis} (h : f ∈ put name analysis fs) :
    f.1 = name ∨ f ∈ fs := by
  induction fs with
  | nil => simp_all [put]
  | cons g fs ih =>
    obtain ⟨n, a⟩ := g
    simp only [put] at h
    split at h
    · rcases List.mem_cons.1 h with rfl | h
      · exact .inl rfl
      · exact .inr h
    · split at h
      · rcases List.mem_cons.1 h with rfl | h
        · exact .inl rfl
        · exact .inr (List.mem_cons_of_mem _ h)
      · rcases List.mem_cons.1 h with rfl | h
        · exact .inr List.mem_cons_self
        · exact (ih h).imp id (List.mem_cons_of_mem _)

theorem pairwise_put {name : String} {analysis : FileAnalysis}
    {fs : List (String × FileAnalysis)} (h : fs.Pairwise (·.1 < ·.1)) :
    (put name analysis fs).Pairwise (·.1 < ·.1) := by
  induction fs with
  | nil => simp [put]
  | cons g fs ih =>
    obtain ⟨n, a⟩ := g
    rw [List.pairwise_cons] at h
    simp only [put]
    split
    · rename_i hn
      refine List.pairwise_cons.2 ⟨fun f hf => ?_, List.pairwise_cons.2 h⟩
      rcases List.mem_cons.1 hf with rfl | hf
      · exact hn
      · exact String.lt_trans hn (h.1 f hf)
    · split
      · rename_i hn
        subst hn
        exact List.pairwise_cons.2 h
      · rename_i hlt hne
        refine List.pairwise_cons.2 ⟨fun f hf => ?_, ih h.2⟩
        rcases fst_mem_put hf with hf | hf
        · rw [hf]
          exact Std.lt_of_le_of_ne (String.not_lt.1 hlt) (Ne.symm hne)
        · exact h.1 f hf

def insert (r : CoverageReport) (name : String) (analysis : FileAnalysis) : CoverageReport :=
  ⟨put name analysis r.files, pairwise_put r.sorted⟩

/-- The report of the given files, the last of one name counting. -/
def ofList (files : List (String × FileAnalysis)) : CoverageReport :=
  files.foldl (fun r f => r.insert f.1 f.2) empty

def toJson (r : CoverageReport) : Json :=
  .object (r.files.map fun (name, analysis) => (name, analysis.toJson))

def ofJson? (j : Json) : Option CoverageReport :=
  (j.map? FileAnalysis.ofJson?).map ofList

end CoverageReport

namespace Collector

/-- Asks for the analysis of one listed file, and adds it to the report. -/
def analyse (C : Collector κ) (config : CoverageConfig) (report : CoverageReport) (file : String) :
    Run κ CoverageReport := do
  Run.log (.plain .debug s!"  Processing coverage for '{file}'")
  let key := config.analysisKey file
  match ← C.call (.detailedAnalysis key) with
  | .ok analysis => return report.insert file analysis
  | .error f =>
    let reason := f.message
    Run.log (.plain .warn s!"No detailed coverage for '{key}': {reason}")
    return report

/-- The report on the files that the collector's summary lists. -/
def reconcile (C : Collector κ) (config : CoverageConfig) :
    Run κ (Except Fault CoverageReport) := do
  match ← C.call .summaryText with
  | .error f => return .error f
  | .ok text =>
    let report ← ((Summary.parse text).map Prod.fst).foldlM (C.analyse config) CoverageReport.empty
    return .ok report

end Collector

end Concolic
