import Concolic.Proofs.Accounting
import Concolic.Proofs.Isolation
import Concolic.Proofs.ReplayCourse

/-!
# Kinds of failures

Contexts are put around an error one after the other, and each may be a text or an error of its own. The error is filed
under the outermost fault among its layers, or else as an input or output error if one of them is. Texts do not count,
so that no number of them changes the kind. The report of a batch files a failed run under the kind of its error.
-/

namespace Concolic

/-- The kind under which layers are filed, the outermost layer first. -/
inductive Layer.Filed : List Layer → String → Prop
  /-- The outermost fault decides. -/
  | fault {above below : List Layer} (f : Fault) (habove : ∀ g, .fault g ∉ above) :
      Filed (above ++ .fault f :: below) f.kindName
  /-- Without a fault, any input or output error does. -/
  | io {layers : List Layer} {text : String} (hfault : ∀ f, .fault f ∉ layers) (hio : .io text ∈ layers) :
      Filed layers "IoError"
  | other {layers : List Layer} (hfault : ∀ f, .fault f ∉ layers) (hio : ∀ text, .io text ∉ layers) :
      Filed layers "TestBodyError"

/-- Texts are added between layers, any number of them in any places. -/
inductive Layer.AddsTexts : List Layer → List Layer → Prop
  | nil : AddsTexts [] []
  | keep {layers layers' : List Layer} (l : Layer) (h : AddsTexts layers layers') :
      AddsTexts (l :: layers) (l :: layers')
  | add {layers layers' : List Layer} (text : String) (h : AddsTexts layers layers') :
      AddsTexts layers (.other text :: layers')

namespace Layer

variable {layers layers' : List Layer}

theorem fault?_eq_some_iff {l : Layer} {f : Fault} : l.fault? = some f ↔ l = .fault f := by
  cases l <;> simp [fault?]

theorem fault?_eq_none_iff {l : Layer} : l.fault? = none ↔ ∀ f, l ≠ .fault f := by
  cases l <;> simp [fault?]

theorem isIo_iff {l : Layer} : l.isIo = true ↔ ∃ text, l = .io text := by
  cases l <;> simp [isIo]

theorem findSome?_fault?_eq_none_iff : layers.findSome? fault? = none ↔ ∀ f, .fault f ∉ layers := by
  rw [List.findSome?_eq_none_iff]
  constructor
  · intro h f hf
    exact fault?_eq_none_iff.1 (h _ hf) f rfl
  · intro h l hl
    exact fault?_eq_none_iff.2 fun f hf => h f (hf ▸ hl)

theorem findSome?_fault?_eq_some_iff {f : Fault} : layers.findSome? fault? = some f ↔
    ∃ above below, layers = above ++ .fault f :: below ∧ ∀ g, .fault g ∉ above := by
  rw [List.findSome?_eq_some_iff]
  constructor
  · rintro ⟨above, l, below, hlayers, hf, habove⟩
    obtain rfl := fault?_eq_some_iff.1 hf
    exact ⟨above, below, hlayers, findSome?_fault?_eq_none_iff.1 (List.findSome?_eq_none_iff.2 habove)⟩
  · rintro ⟨above, below, hlayers, habove⟩
    have hnone := List.findSome?_eq_none_iff.1 (findSome?_fault?_eq_none_iff.2 habove)
    exact ⟨above, .fault f, below, hlayers, rfl, hnone⟩

theorem any_isIo_iff : layers.any isIo = true ↔ ∃ text, .io text ∈ layers := by
  rw [List.any_eq_true]
  constructor
  · rintro ⟨l, hl, hio⟩
    obtain ⟨text, rfl⟩ := isIo_iff.1 hio
    exact ⟨text, hl⟩
  · rintro ⟨text, hl⟩
    exact ⟨_, hl, rfl⟩

namespace AddsTexts

theorem findSome?_fault? (h : AddsTexts layers layers') :
    layers'.findSome? fault? = layers.findSome? fault? := by
  induction h with
  | nil => rfl
  | keep l h ih => rw [List.findSome?_cons, List.findSome?_cons, ih]
  | add text h ih => exact ih

theorem any_isIo (h : AddsTexts layers layers') : layers'.any isIo = layers.any isIo := by
  induction h with
  | nil => rfl
  | keep l h ih => rw [List.any_cons, List.any_cons, ih]
  | add text h ih => exact ih

theorem refl : (layers : List Layer) → AddsTexts layers layers
  | [] => .nil
  | l :: layers => .keep l (refl layers)

theorem append {more more' : List Layer} (h : AddsTexts layers layers') (hmore : AddsTexts more more') :
    AddsTexts (layers ++ more) (layers' ++ more') := by
  induction h with
  | nil => exact hmore
  | keep l h ih => exact .keep l ih
  | add text h ih => exact .add text ih

theorem reverse (h : AddsTexts layers layers') : AddsTexts layers.reverse layers'.reverse := by
  induction h with
  | nil => exact .nil
  | keep l h ih =>
    rw [List.reverse_cons, List.reverse_cons]
    exact ih.append (refl [l])
  | add text h ih =>
    have hlast := ih.append (.add text .nil)
    rwa [List.append_nil, ← List.reverse_cons] at hlast

end AddsTexts

end Layer

namespace Failure

/-- The error inside one more context, which may be a text or an error. -/
def inside (e : Failure) (context : Layer) : Failure :=
  { e with contexts := context :: e.contexts }

def wrapped (root : Layer) (causes : List String) (added : List Layer) : Failure :=
  added.foldl inside ⟨[], root, causes⟩

@[simp] theorem layers_inside (e : Failure) (context : Layer) : (e.inside context).layers = context :: e.layers := rfl

theorem within_eq_inside (e : Failure) (context : String) : e.within context = e.inside (.other context) := rfl

theorem layers_foldl_inside (e : Failure) (added : List Layer) :
    (added.foldl inside e).layers = added.reverse ++ e.layers := by
  induction added generalizing e with
  | nil => rfl
  | cons context added ih => simp [ih]

@[simp] theorem layers_wrapped (root : Layer) (causes : List String) (added : List Layer) :
    (wrapped root causes added).layers = added.reverse ++ [root] :=
  layers_foldl_inside _ added

theorem filed_kind (e : Failure) : Layer.Filed e.layers e.kind := by
  unfold kind
  cases hfault : e.layers.findSome? Layer.fault? with
  | some f =>
    obtain ⟨above, below, hlayers, habove⟩ := Layer.findSome?_fault?_eq_some_iff.1 hfault
    rw [hlayers]
    exact .fault f habove
  | none =>
    rw [Layer.findSome?_fault?_eq_none_iff] at hfault
    by_cases hio : e.layers.any Layer.isIo = true
    · simp only [hio, if_true]
      obtain ⟨text, htext⟩ := Layer.any_isIo_iff.1 hio
      exact .io hfault htext
    · simp only [hio, Bool.false_eq_true, if_false]
      exact .other hfault fun text htext => hio (Layer.any_isIo_iff.2 ⟨text, htext⟩)

theorem kind_of_filed {e : Failure} {layers : List Layer} {k : String} (hlayers : e.layers = layers)
    (h : Layer.Filed layers k) : e.kind = k := by
  unfold kind
  rw [hlayers]
  cases h with
  | @fault above below f habove => rw [Layer.findSome?_fault?_eq_some_iff.2 ⟨above, below, rfl, habove⟩]
  | @io _ text hfault hio =>
    rw [Layer.findSome?_fault?_eq_none_iff.2 hfault]
    simp only [Layer.any_isIo_iff.2 ⟨text, hio⟩, if_true]
  | other hfault hio =>
    have hnone : ¬ layers.any Layer.isIo = true := fun hany =>
      have ⟨text, htext⟩ := Layer.any_isIo_iff.1 hany
      hio text htext
    rw [Layer.findSome?_fault?_eq_none_iff.2 hfault]
    simp only [hnone, Bool.false_eq_true, if_false]

theorem kind_eq_iff_filed {e : Failure} {k : String} : e.kind = k ↔ Layer.Filed e.layers k :=
  ⟨fun h => h ▸ e.filed_kind, kind_of_filed rfl⟩

theorem kind_eq_of_addsTexts {e e' : Failure} (h : Layer.AddsTexts e.layers e'.layers) : e'.kind = e.kind := by
  unfold kind
  rw [h.findSome?_fault?, h.any_isIo]

/-- An input or output error counts as much as the fault that it is converted to, if it is the root. -/
theorem kind_wrapped_io (text : String) (causes causes' : List String) (added : List Layer) :
    (wrapped (.fault (.io text)) causes' added).kind = (wrapped (.io text) causes added).kind := by
  have hfaults : (added.reverse ++ [Layer.fault (.io text)]).findSome? Layer.fault? =
      (added.reverse.findSome? Layer.fault?).or (some (.io text)) := List.findSome?_append
  have hroot : (added.reverse ++ [Layer.io text]).findSome? Layer.fault? =
      (added.reverse.findSome? Layer.fault?).or none := List.findSome?_append
  have hio : (added.reverse ++ [Layer.io text]).any Layer.isIo = true :=
    Layer.any_isIo_iff.2 ⟨text, by simp⟩
  simp only [kind, layers_wrapped, hfaults, hroot, hio]
  cases added.reverse.findSome? Layer.fault? with
  | some f => rfl
  | none => rfl

theorem head?_layers (e : Failure) : e.layers.head?.map Layer.text = some e.message := by
  obtain ⟨contexts, root, causes⟩ := e
  cases contexts <;> rfl

end Failure

namespace BatchPlan

variable {ι κ : Type} (plan : BatchPlan ι κ)

/-- Whatever a batch has been asked for, its report has one entry at the number of an input whose run an error ended. -/
theorem failures_at_error (collector : Option κ) (steps : List (BatchStep ι)) {i : Nat} {x : Trial ι} {a : Assignment}
    {e : Failure} (hx : (trials steps)[i]? = some x) (ha : x.input.values? = some a)
    (hend : (x.test.course a.answer).2 = .failed e) (f : BatchFailure) :
    f ∈ (plan.follow steps (.fresh collector)).state.report.failures ∧ f.index = i ↔
      f = ⟨i, e.kind, a, e.trace⟩ := by
  have hrun : (Replay.run x.test a).1.failure = some (.ofFailure e) := by rw [Replay.failure_run, hend]
  have hverdict : x.verdict = .failed (.ofFailure e) := by
    obtain ⟨test, input⟩ := x
    cases input with
    | assignment b =>
      cases ha
      simp only [Trial.verdict, Verdict.ofRun, hrun]
    | recorded c =>
      cases ha
      simp only [Trial.verdict, Verdict.ofRun, hrun]
    | undecodable g => cases ha
  have hfailure : x.failure? i = some ⟨i, e.kind, a, e.trace⟩ := by
    simp only [Trial.failure?, hverdict, ha]
    rfl
  rw [plan.report_follow, BatchReport.mem_failures_ofTrials]
  constructor
  · rintro ⟨⟨y, hy, hf⟩, rfl⟩
    obtain rfl : x = y := Option.some.inj (hx.symm.trans hy)
    exact Option.some.inj (hf.symm.trans hfailure)
  · rintro rfl
    exact ⟨⟨x, hx, hfailure⟩, rfl⟩

end BatchPlan

namespace Failure

/-- The kind of an error in any contexts. It is that of the outermost fault among its layers, the root included, or
else it tells whether some layer is an input or output error. Texts that are added anywhere above the root change
nothing, and no more does converting the root to a fault, if it is an input or output error. A failed run has this kind,
with the text of the outermost layer, and is reported under it. -/
theorem kind_survives_contexts (root : Layer) (causes : List String) (added : List Layer) :
    let e := wrapped root causes added
    let f := TestFailure.ofFailure e
    (∀ k, e.kind = k ↔ Layer.Filed (added.reverse ++ [root]) k) ∧
      (∀ text, (e.within text).kind = e.kind) ∧
      (∀ added', Layer.AddsTexts added added' → (wrapped root causes added').kind = e.kind) ∧
      (∀ text causes', root = .io text → (wrapped (.fault (.io text)) causes' added).kind = e.kind) ∧
      (f.kind = e.kind ∧ (added.reverse ++ [root]).head?.map Layer.text = some f.message) ∧
      ∀ {ι κ : Type} (plan : BatchPlan ι κ) (collector : Option κ) (steps : List (BatchStep ι)) (i : Nat)
        (x : Trial ι) (a : Assignment), (trials steps)[i]? = some x → x.input.values? = some a →
        (x.test.course a.answer).2 = .failed e →
        ∀ found, found ∈ (plan.follow steps (.fresh collector)).state.report.failures ∧ found.index = i ↔
          found = ⟨i, e.kind, a, e.trace⟩ := by
  intro e f
  have hlayers : e.layers = added.reverse ++ [root] := layers_wrapped root causes added
  refine ⟨?filed, ?text, ?texts, ?converted, ⟨rfl, ?outermost⟩, ?reported⟩
  case filed =>
    intro k
    rw [kind_eq_iff_filed, hlayers]
  case text =>
    intro text
    rw [within_eq_inside]
    exact kind_eq_of_addsTexts (.add text (.refl e.layers))
  case texts =>
    intro added' hadded
    refine kind_eq_of_addsTexts ?_
    rw [hlayers, layers_wrapped]
    exact hadded.reverse.append (.refl [root])
  case converted =>
    rintro text causes' rfl
    exact kind_wrapped_io text causes causes' added
  case outermost => rw [← hlayers, head?_layers]; rfl
  case reported =>
    intro ι κ plan collector steps i x a hx ha hend
    exact plan.failures_at_error collector steps hx ha hend

/-- An input or output error that passes a fault on its way out, in the second of two runs. -/
theorem kind_survives_contexts_savedTwice :
    let added : List Layer := [.other "saving", .fault (.decoding "cut")]
    let talkative : List Layer := [.other "again", .other "saving", .fault (.decoding "cut"), .other "at last"]
    let e := wrapped (.io "disk full") [] added
    let test : Test Unit := ⟨.ok (), fun _ => .done (), fun _ => .fail e⟩
    let plan : BatchPlan Unit Unit := ⟨test, .standard, BatchPlan.withholding, .standard⟩
    let steps : List (BatchStep Unit) := [(test, .assignments [.empty, .ofList [("n", .int 3)]])]
    (Layer.AddsTexts added talkative ∧ e.kind = "DecodingError") ∧
      (wrapped (.io "disk full") [] talkative).kind = "DecodingError" ∧
      (wrapped (.fault (.io "disk full")) [] added).kind = "DecodingError" ∧
      ∃ f ∈ (plan.follow steps (.fresh none)).state.report.failures,
        f.index = 1 ∧ f.kind = "DecodingError" ∧ f.assignment = .ofList [("n", .int 3)] := by
  intro added talkative e test plan steps
  have hadds : Layer.AddsTexts added talkative :=
    .add "again" (.keep (.other "saving") (.keep (.fault (.decoding "cut")) (.add "at last" .nil)))
  have hkind : e.kind = "DecodingError" := rfl
  obtain ⟨-, -, htexts, hconverted, -, hreported⟩ := kind_survives_contexts (.io "disk full") [] added
  have hfound := (hreported plan none steps 1 ⟨test, .assignment (.ofList [("n", .int 3)])⟩ _ rfl rfl rfl _).2 rfl
  exact ⟨⟨hadds, hkind⟩, (htexts talkative hadds).trans hkind, (hconverted "disk full" [] rfl).trans hkind,
    _, hfound.1, hfound.2, hkind, rfl⟩

end Failure

end Concolic
