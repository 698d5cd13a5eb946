import Concolic.Proofs.DecimalText
import Concolic.Proofs.RunTrace

/-!
# What a replay depends on

A replay learns nothing of its assignment but the values of the names that it looks up, and nothing of a value
but the number or the octets that it is used as. Assignments that do not differ in these give one run; only the
first event, which shows the assignment, tells them apart.
-/

namespace Concolic

namespace Ask

/-- The name that a question looks up. A request that is not in order is refused before that. -/
def lookedUp? : Ask → Option String
  | .int r =>
    match r.validate with
    | .ok () => some r.name
    | .error _ => none
  | .sequence r =>
    match r.validate with
    | .ok () => some r.name
    | .error _ => none
  | .assume _ => none
  | .log _ => none
  | .concretize _ => none
  | .mode => none

end Ask

def Trace.lookedUp (t : Trace) : List String :=
  t.questions.filterMap Ask.lookedUp?

theorem Body.run_congr {σ α : Type} {answer answer' : (q : Ask) → Run σ q.Reply} (b : Body α) (s : σ)
    (h : ∀ q ∈ (b.run answer s).trace.questions, answer' q = answer q) :
    b.run answer' s = b.run answer s := by
  induction b generalizing s with
  | done a => rfl
  | fail e => rfl
  | panic p => rfl
  | ask q next ih =>
    have hq : answer' q = answer q := h q (by simp [Body.run])
    have hnext := ih (answer q s).value (answer q s).state fun q' hq' => h q' (by simp [Body.run, hq'])
    simp only [Body.run, Run.bind_apply, Run.record_apply, hq, hnext]

namespace Replay

variable {ι : Type} {test : Test ι} {a a' : Assignment}

theorem phases_congr {log : List String}
    (h : ∀ q ∈ (phases test a log).trace.questions, a'.reply q = a.reply q) :
    phases test a' log = phases test a log := by
  cases hbuild : test.build with
  | error p => simp [phases, hbuild]
  | ok built =>
    have hprepare : (test.prepare built).run a'.reply log = (test.prepare built).run a.reply log := by
      apply Body.run_congr
      intro q hq
      exact h q (by simp [phases, hbuild, hq])
    cases hg : ((test.prepare built).run a.reply log).value.guarded with
    | error f => simp [phases, hbuild, hprepare, hg]
    | ok prepared =>
      have hexecute : (test.execute prepared).run a'.reply ((test.prepare built).run a.reply log).state =
          (test.execute prepared).run a.reply ((test.prepare built).run a.reply log).state := by
        apply Body.run_congr
        intro q hq
        exact h q (by simp [phases, hbuild, hg, hq])
      simp [phases, hbuild, hprepare, hg, hexecute]

theorem run_congr (h : ∀ q ∈ (run test a).2.questions, a'.reply q = a.reply q) :
    (run test a').1 = { (run test a).1 with assignment := a' } ∧
      (run test a').2.questions = (run test a).2.questions := by
  rw [questions_run] at h
  have hphases := phases_congr h
  rw [questions_run, questions_run, hphases]
  simp [run, hphases]

end Replay

namespace Assignment

/-- What can be learnt of a name: nothing if it has no value, else what its value is as a number and as
octets. -/
def use? (a : Assignment) (name : String) : Option (Except Fault Int32 × Bytes) :=
  (a.get? name).map fun v => (v.toInt, v.toBytes)

theorem cases_of_use?_eq {a a' : Assignment} {name : String} (h : a'.use? name = a.use? name) :
    (a'.get? name = none ∧ a.get? name = none) ∨
      ∃ v' v, a'.get? name = some v' ∧ a.get? name = some v ∧ v'.toInt = v.toInt ∧
        v'.toBytes = v.toBytes := by
  unfold use? at h
  cases hget' : a'.get? name with
  | none =>
    rw [hget'] at h
    exact .inl ⟨rfl, Option.map_eq_none_iff.1 h.symm⟩
  | some v' =>
    rw [hget', Option.map_some] at h
    obtain ⟨v, hget, hv⟩ := Option.map_eq_some_iff.1 h.symm
    exact .inr ⟨v', v, rfl, hget, (congrArg Prod.fst hv).symm, (congrArg Prod.snd hv).symm⟩

theorem reply_congr {a a' : Assignment} {q : Ask}
    (h : ∀ name, q.lookedUp? = some name → a'.use? name = a.use? name) : a'.reply q = a.reply q := by
  cases q with
  | int r =>
    cases hv : r.validate with
    | error f => simp only [reply, hv]
    | ok u =>
      have huse := h r.name (by simp only [Ask.lookedUp?, hv])
      obtain ⟨hget', hget⟩ | ⟨v', v, hget', hget, hint, -⟩ := cases_of_use?_eq huse
      · simp only [reply, hv, lookUp, hget', hget]
      · funext log
        simp [reply, hv, lookUp, hget', hget, hint]
  | sequence r =>
    cases hv : r.validate with
    | error f => simp only [reply, hv]
    | ok u =>
      have huse := h r.name (by simp only [Ask.lookedUp?, hv])
      obtain ⟨hget', hget⟩ | ⟨v', v, hget', hget, -, hbytes⟩ := cases_of_use?_eq huse
      · simp only [reply, hv, lookUp, hget', hget]
      · funext log
        simp [reply, hv, lookUp, hget', hget, hbytes]
  | assume condition => rfl
  | log line => rfl
  | concretize v => rfl
  | mode => rfl

end Assignment

namespace Replay

variable {ι : Type} {test : Test ι} {a a' : Assignment}

theorem run_of_use?_eq (h : ∀ name ∈ (run test a).2.lookedUp, a'.use? name = a.use? name) :
    (run test a').1 = { (run test a).1 with assignment := a' } ∧
      (run test a').2.questions = (run test a).2.questions := by
  apply run_congr
  intro q hq
  apply Assignment.reply_congr
  intro name hname
  exact h name (List.mem_filterMap.2 ⟨q, hq, hname⟩)

end Replay

/-- A replay depends only on what it looks up: an assignment with the same values at these names, or with none
where there was none, leads to the same questions, the same lines and the same failure, whatever else it binds
and in whatever order. Each run carries the assignment that it was given. -/
theorem Replay.depends_only_on_names_looked_up {ι : Type} (test : Test ι) {a a' : Assignment}
    (h : ∀ name ∈ (run test a).2.lookedUp, a'.get? name = a.get? name) :
    (run test a').2.questions = (run test a).2.questions ∧ (run test a').1.log = (run test a).1.log ∧
      (run test a').1.failure = (run test a).1.failure ∧ (run test a).1.assignment = a ∧
      (run test a').1.assignment = a' := by
  have huse : ∀ name ∈ (run test a).2.lookedUp, a'.use? name = a.use? name := by
    intro name hname
    simp only [Assignment.use?, h name hname]
  obtain ⟨hrun, hquestions⟩ := run_of_use?_eq huse
  refine ⟨hquestions, ?_, ?_, rfl, rfl⟩
  · rw [hrun]
  · rw [hrun]

/-- A test that looks up a second name only if the first one is big enough, and that never gets to the request
for `z`, since the bounds of that for `y` are in the wrong order. -/
def choosy : Test Unit where
  build := .ok ()
  prepare _ := return ()
  execute _ := do
    let x ← Body.acquireInt ⟨"x", 0, none, none⟩
    Body.put (.log (toString x.toInt))
    if 5 < x then
      let text ← Body.acquireSequence ⟨"text", .bytes [0x3F], none, none, false⟩
      Body.put (.log (Utf8.lossy text))
    let _ ← Body.acquireInt ⟨"y", 1, some 2, some 1⟩
    let _ ← Body.acquireInt ⟨"z", 1, none, none⟩
    return ()

theorem Replay.depends_only_on_names_looked_up_choosy :
    let a := Assignment.ofList [("x", .int 7), ("y", .int 1), ("z", .int 2)]
    let a' := Assignment.ofList [("z", .ofText "no number"), ("x", .int 7)]
    (∀ name ∈ (run choosy a).2.lookedUp, a'.get? name = a.get? name) ∧
      (run choosy a').2.questions = (run choosy a).2.questions ∧
      (run choosy a').1.log = (run choosy a).1.log ∧
      (run choosy a').1.failure = (run choosy a).1.failure ∧
      (run choosy a).2.lookedUp = ["x", "text"] ∧ (run choosy a).1.log = ["7", "?"] ∧
      ((run choosy a).1.failure.map TestFailure.kind) = some "ConfigurationError" := by
  intro a a'
  have h : ∀ name ∈ (run choosy a).2.lookedUp, a'.get? name = a.get? name := by decide +kernel
  obtain ⟨hquestions, hlog, hfailure, -, -⟩ := depends_only_on_names_looked_up choosy h
  exact ⟨h, hquestions, hlog, hfailure, by decide +kernel, by decide +kernel, by decide +kernel⟩

namespace Value

/-- The value with a number replaced by the byte string of its decimal text. -/
def spelled : Value → Value
  | bytes b => bytes b
  | int n => ofText (toString n.toInt)

@[simp] theorem toInt_spelled (v : Value) : v.spelled.toInt = v.toInt := by
  cases v with
  | bytes b => rfl
  | int n => exact toInt_ofText_toString n

@[simp] theorem toBytes_spelled (v : Value) : v.spelled.toBytes = v.toBytes := by
  cases v <;> rfl

end Value

namespace Assignment

def spelled (a : Assignment) (chosen : String → Bool) : Assignment where
  entries := a.entries.map fun e => (e.1, if chosen e.1 then e.2.spelled else e.2)
  nodup := by simpa [Function.comp_def] using a.nodup

variable (a : Assignment) (chosen : String → Bool)

theorem get?_spelled (name : String) :
    (a.spelled chosen).get? name =
      (a.get? name).map fun v => if chosen name then v.spelled else v := by
  unfold get? spelled
  simp only
  induction a.entries with
  | nil => rfl
  | cons e es ih =>
    obtain ⟨k, v⟩ := e
    simp only [List.map_cons, Keyed.lookup_cons, ih]
    by_cases h : name = k
    · simp [h]
    · simp [h]

theorem use?_spelled (name : String) : (a.spelled chosen).use? name = a.use? name := by
  rw [use?, get?_spelled, Option.map_map, use?]
  congr 1
  funext v
  by_cases h : chosen name = true
  · simp [h]
  · simp [h]

end Assignment

/-- Numbers that a person writes as text replay as recorded numbers do: wherever numbers of an assignment are
replaced by their decimal text, every test asks the same questions, logs the same lines and fails in the same
way, be the names acquired as integers or as byte strings. -/
theorem Replay.same_run_for_decimal_text {ι : Type} (test : Test ι) (a : Assignment)
    (chosen : String → Bool) :
    let written := a.spelled chosen
    (run test written).2.questions = (run test a).2.questions ∧
      (run test written).1.log = (run test a).1.log ∧
      (run test written).1.failure = (run test a).1.failure := by
  intro written
  obtain ⟨hrun, hquestions⟩ := run_of_use?_eq fun name _ => a.use?_spelled chosen name
  refine ⟨hquestions, ?_, ?_⟩
  · rw [hrun]
  · rw [hrun]

end Concolic
