import Concolic.CommandLine.Printout
import Mathlib.Data.List.Forall2

/-!
# What a printed report tells

A printed report begins with its counts, which no later line repeats. Then come an entry for each failure, with its
trace line by line below it, and a line for each mismatch, and last a section on the coverage, if there is any. Only the
counts and the title of that section stand at the margin, so that they are told from all other lines.
-/

namespace Concolic

namespace Printout

def braced (items : List String) : String :=
  "\x7b" ++ ", ".intercalate items ++ "\x7d"

def TellsCounts (r : BatchReport) (line : String) : Prop :=
  line = "Replayed " ++ toString r.replayed ++ " test case(s): " ++ toString r.succeeded ++ " succeeded, " ++
    (toString r.failures.length ++ " failed, " ++ toString r.mismatches.length ++ " output mismatch(es)")

/-- The lines of a failure: which run failed how, and with what values; below it its trace, further in. -/
structure TellsFailure (f : BatchFailure) (entry : List String) : Prop where
  heading : entry.head? = some ("  [" ++ toString f.index ++ "] " ++ f.kind ++ " with " ++
    braced (f.assignment.entries.map fun e => e.1 ++ ": " ++ toString e.2))
  trace : List.Forall₂ (fun line shown => shown = "      " ++ line) (textLines f.trace) entry.tail

def TellsMismatch (m : Mismatch) (line : String) : Prop :=
  line = "  [" ++ toString m.index ++ "] output mismatch on path " ++ toString m.pathId.toNat ++
    " (" ++ toString m.changedLines ++ " line(s) differ)"

/-- The line of a file. More statements may be missing than there are, and then none was reached. -/
def TellsFile (file : String × FileAnalysis) (line : String) : Prop :=
  line = "  " ++ file.1 ++ ": " ++
    toString (file.2.executable.lines.length - file.2.missing.lines.length) ++ "/" ++
    toString file.2.executable.lines.length ++ " statements covered, missing " ++
    braced (file.2.missing.lines.map fun n => toString n.toNat)

/-- The section on the coverage, which is there if there is any coverage. -/
inductive TellsCoverage : Option CoverageReport → List String → Prop
  | unmeasured : TellsCoverage none []
  | measured {r : CoverageReport} {lines : List String} (h : List.Forall₂ TellsFile r.files lines) :
      TellsCoverage (some r) ("Coverage:" :: lines)

/-- The lines of a report in their order. -/
inductive Tells (r : BatchReport) (coverage : Option CoverageReport) : List String → Prop
  | intro {counts : String} {entries : List (List String)} {mismatches covered : List String}
      (hcounts : TellsCounts r counts) (hentries : List.Forall₂ TellsFailure r.failures entries)
      (hmismatches : List.Forall₂ TellsMismatch r.mismatches mismatches) (hcovered : TellsCoverage coverage covered) :
      Tells r coverage (counts :: entries.flatten ++ mismatches ++ covered)

section

variable {report : BatchReport} {coverage : Option CoverageReport} {printed : List String}

/-! ## The one text of a report -/

theorem forall₂_iff_eq_map {α β : Type} (R : α → β → Prop) (f : α → β) (h : ∀ a b, R a b ↔ b = f a) {as : List α}
    {bs : List β} : List.Forall₂ R as bs ↔ bs = as.map f := by
  constructor
  · intro hforall
    induction hforall with
    | nil => rfl
    | cons hab _ ih => rw [List.map_cons, ← ih, (h _ _).1 hab]
  · rintro rfl
    exact List.forall₂_map_right_iff.2 (List.forall₂_same.2 fun a _ => (h a _).2 rfl)

theorem toString_assignment (a : Assignment) :
    toString a = braced (a.entries.map fun e => e.1 ++ ": " ++ toString e.2) :=
  rfl

theorem tellsFailure_iff {f : BatchFailure} {entry : List String} :
    TellsFailure f entry ↔ entry = failureLines f := by
  have hlines : failureLines f = ("  [" ++ toString f.index ++ "] " ++ f.kind ++ " with " ++ toString f.assignment) ::
      (textLines f.trace).map ("      " ++ ·) := rfl
  rw [hlines, toString_assignment]
  have htrace {shown : List String} :
      List.Forall₂ (fun line shown => shown = "      " ++ line) (textLines f.trace) shown ↔
        shown = (textLines f.trace).map ("      " ++ ·) :=
    forall₂_iff_eq_map _ _ fun _ _ => Iff.rfl
  constructor
  · rintro ⟨hheading, hrest⟩
    obtain ⟨rest, rfl⟩ := List.head?_eq_some_iff.1 hheading
    rw [← htrace.1 hrest, List.tail_cons]
  · rintro rfl
    exact ⟨rfl, htrace.2 rfl⟩

theorem tellsMismatch_iff {m : Mismatch} {line : String} : TellsMismatch m line ↔ line = mismatchLine m :=
  Iff.rfl

theorem tellsFile_iff {file : String × FileAnalysis} {line : String} :
    TellsFile file line ↔ line = coverageLine file := by
  have hreached (missing total : Nat) : total - min missing total = total - missing := by omega
  simp only [coverageLine, LineSet.size, hreached]
  rfl

theorem tellsCoverage_iff {covered : List String} :
    TellsCoverage coverage covered ↔
      covered = match coverage with
        | some r => "Coverage:" :: r.files.map coverageLine
        | none => [] := by
  have hfiles {r : CoverageReport} {lines : List String} :
      List.Forall₂ TellsFile r.files lines ↔ lines = r.files.map coverageLine :=
    forall₂_iff_eq_map TellsFile coverageLine fun _ _ => tellsFile_iff
  constructor
  · intro h
    cases h with
    | unmeasured => rfl
    | measured h => rw [hfiles.1 h]
  · rintro rfl
    cases coverage with
    | none => exact .unmeasured
    | some r => exact .measured (hfiles.2 rfl)

/-- What is to be told leaves nothing open: there is one way to print a report. -/
theorem tells_iff : Tells report coverage printed ↔ printed = lines report coverage := by
  have hfailures {entries : List (List String)} :
      List.Forall₂ TellsFailure report.failures entries ↔ entries = report.failures.map failureLines :=
    forall₂_iff_eq_map TellsFailure failureLines fun _ _ => tellsFailure_iff
  have hmismatches {mismatches : List String} :
      List.Forall₂ TellsMismatch report.mismatches mismatches ↔ mismatches = report.mismatches.map mismatchLine :=
    forall₂_iff_eq_map TellsMismatch mismatchLine fun _ _ => tellsMismatch_iff
  constructor
  · rintro ⟨rfl, hentries, hlines, hcovered⟩
    rw [hfailures.1 hentries, hmismatches.1 hlines, tellsCoverage_iff.1 hcovered, ← List.flatMap_def]
    rfl
  · rintro rfl
    exact .intro rfl (hfailures.2 rfl) (hmismatches.2 rfl) (tellsCoverage_iff.2 rfl)

theorem exists_tells_text (report : BatchReport) (coverage : Option CoverageReport) :
    ∃ printed, Tells report coverage printed ∧ text report coverage = String.join (printed.map (· ++ "\n")) :=
  ⟨_, tells_iff.2 rfl, rfl⟩

/-! ## Lines at the margin -/

/-- Whether a line is not indented. -/
def atMargin (line : String) : Bool :=
  line.toList.head? != some ' '

theorem forall_mem_of_forall₂ {α β : Type} {R : α → β → Prop} {P : β → Prop} {as : List α} {bs : List β}
    (hrelated : List.Forall₂ R as bs) (h : ∀ a b, R a b → P b) : ∀ b ∈ bs, P b := by
  induction hrelated with
  | nil => exact nofun
  | cons hab _ ih => exact List.forall_mem_cons.2 ⟨h _ _ hab, ih⟩

theorem TellsCounts.atMargin_eq_true {line : String} (h : TellsCounts report line) : atMargin line = true := by
  rw [TellsCounts] at h
  simp [atMargin, h]

theorem TellsFailure.atMargin_eq_false {f : BatchFailure} {entry : List String} (h : TellsFailure f entry) :
    ∀ line ∈ entry, atMargin line = false := by
  obtain ⟨hheading, htrace⟩ := h
  obtain ⟨rest, rfl⟩ := List.head?_eq_some_iff.1 hheading
  refine List.forall_mem_cons.2 ⟨by simp [atMargin], ?_⟩
  refine forall_mem_of_forall₂ htrace fun line shown hshown => ?_
  simp [atMargin, hshown]

theorem TellsMismatch.atMargin_eq_false {m : Mismatch} {line : String} (h : TellsMismatch m line) :
    atMargin line = false := by
  rw [TellsMismatch] at h
  simp [atMargin, h]

theorem TellsFile.atMargin_eq_false {file : String × FileAnalysis} {line : String} (h : TellsFile file line) :
    atMargin line = false := by
  rw [TellsFile] at h
  simp [atMargin, h]

theorem filter_atMargin_of_indented {lines : List String} (h : ∀ line ∈ lines, atMargin line = false) :
    lines.filter atMargin = [] := by
  simpa using h

theorem TellsCoverage.filter_atMargin {covered : List String} (h : TellsCoverage coverage covered) :
    covered.filter atMargin = if coverage.isSome then ["Coverage:"] else [] := by
  cases h with
  | unmeasured => rfl
  | measured hfiles =>
    have hindented := forall_mem_of_forall₂ hfiles fun _ _ => TellsFile.atMargin_eq_false
    rw [List.filter_cons_of_pos (by decide), filter_atMargin_of_indented hindented]
    rfl

/-- The counts are told once, and there is a section on the coverage exactly if there is any coverage. -/
theorem Tells.filter_atMargin (h : Tells report coverage printed) :
    ∃ counts, TellsCounts report counts ∧
      printed.filter atMargin = counts :: if coverage.isSome then ["Coverage:"] else [] := by
  obtain @⟨counts, entries, mismatches, covered, hcounts, hentries, hmismatches, hcovered⟩ := h
  have hmargin : atMargin counts = true := hcounts.atMargin_eq_true
  have hentry := forall_mem_of_forall₂ hentries fun _ _ => TellsFailure.atMargin_eq_false
  have hmismatch := forall_mem_of_forall₂ hmismatches fun _ _ => TellsMismatch.atMargin_eq_false
  refine ⟨counts, hcounts, ?_⟩
  rw [List.filter_append, List.filter_append, List.filter_cons_of_pos hmargin, hcovered.filter_atMargin,
    filter_atMargin_of_indented hmismatch, filter_atMargin_of_indented (List.forall_mem_flatten.2 hentry)]
  rfl

end

end Printout

end Concolic
