import Concolic.Test.Replay

/-!
# Records of runs

What the record of a composite run holds, read off the records of its parts. A call on an engine leaves
one engine call in the record, and looking up a value leaves none.
-/

namespace Concolic

namespace EngineCall

def line? : EngineCall → Option String
  | recordLog line => some line
  | _ => none

end EngineCall

namespace Activity

def question? : Activity → Option Ask
  | asked q => some q
  | _ => none

end Activity

namespace Trace

def questions (t : Trace) : List Ask :=
  t.filterMap Activity.question?

def recordedLines (t : Trace) : List String :=
  t.engineCalls.filterMap EngineCall.line?

@[simp] theorem questions_nil : questions [] = [] := rfl

@[simp] theorem questions_append (t u : Trace) : questions (t ++ u) = questions t ++ questions u :=
  List.filterMap_append

@[simp] theorem questions_logged (e : Event) (t : Trace) : questions (.logged e :: t) = questions t :=
  rfl

@[simp] theorem questions_entered (p : Phase) (t : Trace) :
    questions (.entered p :: t) = questions t := rfl

@[simp] theorem questions_asked (q : Ask) (t : Trace) :
    questions (.asked q :: t) = q :: questions t := rfl

@[simp] theorem engineCalls_append (t u : Trace) :
    engineCalls (t ++ u) = engineCalls t ++ engineCalls u :=
  List.filterMap_append

@[simp] theorem engineCalls_logged (es : List Event) : engineCalls (es.map .logged) = [] := by
  induction es with
  | nil => rfl
  | cons e es ih => exact ih

@[simp] theorem recordedLines_nil : recordedLines [] = [] := rfl

@[simp] theorem recordedLines_append (t u : Trace) :
    recordedLines (t ++ u) = recordedLines t ++ recordedLines u := by
  simp [recordedLines, List.filterMap_append]

@[simp] theorem recordedLines_entered (p : Phase) (t : Trace) :
    recordedLines (.entered p :: t) = recordedLines t := rfl

@[simp] theorem recordedLines_asked (q : Ask) (t : Trace) :
    recordedLines (.asked q :: t) = recordedLines t := rfl

@[simp] theorem recordedLines_logged (e : Event) (t : Trace) :
    recordedLines (.logged e :: t) = recordedLines t := rfl

end Trace

namespace Run

variable {σ : Type}

@[simp] theorem record_apply (t : Trace) (s : σ) : record t s = ⟨(), s, t⟩ := rfl

@[simp] theorem log_apply (e : Event) (s : σ) : log e s = ⟨(), s, [.logged e]⟩ := rfl

@[simp] theorem enter_apply (p : Phase) (s : σ) : enter p s = ⟨(), s, [.entered p]⟩ := rfl

@[simp] theorem update_apply (f : σ → σ) (s : σ) : update f s = ⟨(), f s, []⟩ := rfl

end Run

namespace Engine

variable {ε : Type} (E : Engine ε) (c : EngineCall) (s : ε)

@[simp] theorem value_call : (E.call c s).value = (E.answer c s).1 := rfl

@[simp] theorem engineCalls_call : (E.call c s).trace.engineCalls = [c] := by
  have h := Trace.engineCalls_logged (E.answer c s).2.2
  change c :: Trace.engineCalls ((E.answer c s).2.2.map .logged) = [c]
  rw [h]

@[simp] theorem recordedLines_call : (E.call c s).trace.recordedLines = c.line?.toList := by
  rw [Trace.recordedLines, engineCalls_call]
  cases h : c.line? <;> simp [h]

end Engine

namespace Assignment

variable {σ : Type} (a : Assignment) (name default : String) (s : σ)

@[simp] theorem value_lookUp : (a.lookUp name default s).value = a.get? name := by
  unfold lookUp
  cases h : a.get? name <;> simp

@[simp] theorem state_lookUp : (a.lookUp name default s).state = s := by
  unfold lookUp
  cases h : a.get? name <;> simp

end Assignment

namespace Replay

variable {ι : Type} (test : Test ι) (a : Assignment)

theorem log_run : (run test a).1.log = (phases test a []).state := by
  unfold run
  cases (phases test a []).value <;> rfl

theorem questions_run : (run test a).2.questions = (phases test a []).trace.questions := by
  simp only [run]
  cases (phases test a []).value <;> simp

end Replay

end Concolic
