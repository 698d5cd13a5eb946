import Concolic.Coverage.Collector
import Concolic.Engine
import Concolic.Test.Body

/-!
# Runs

A computation with a state, paired with a record of what it did: the events that it logged, the calls that
it made, the questions that were asked and the phases of tests that were entered. A record only grows.
-/

namespace Concolic

inductive Phase
  | build
  | prepare
  | execute
  deriving DecidableEq, Repr

inductive Activity
  | logged (e : Event)
  | entered (p : Phase)
  | asked (q : Ask)
  | engine (call : EngineCall)
  | collector (call : CollectorCall)
  deriving DecidableEq, Repr

namespace Activity

def event? : Activity → Option Event
  | logged e => some e
  | _ => none

def engineCall? : Activity → Option EngineCall
  | engine call => some call
  | _ => none

def collectorCall? : Activity → Option CollectorCall
  | collector call => some call
  | _ => none

end Activity

/-- A record of a run, in order. -/
abbrev Trace := List Activity

namespace Trace

def events (t : Trace) : List Event :=
  t.filterMap Activity.event?

def engineCalls (t : Trace) : List EngineCall :=
  t.filterMap Activity.engineCall?

def collectorCalls (t : Trace) : List CollectorCall :=
  t.filterMap Activity.collectorCall?

end Trace

/-- What a computation gives: a value, the state after it and its record. -/
structure Outcome (σ α : Type) where
  value : α
  state : σ
  trace : Trace

/-- A computation over states of type `σ`. -/
def Run (σ α : Type) : Type :=
  σ → Outcome σ α

namespace Run

instance : Monad (Run σ) where
  pure a := fun s => ⟨a, s, []⟩
  bind r f := fun s =>
    let first := r s
    let second := f first.value first.state
    ⟨second.value, second.state, first.trace ++ second.trace⟩

@[simp] theorem pure_apply (a : α) (s : σ) : (pure a : Run σ α) s = ⟨a, s, []⟩ := rfl

@[simp] theorem bind_apply (r : Run σ α) (f : α → Run σ β) (s : σ) :
    (r >>= f) s =
      ⟨(f (r s).value (r s).state).value, (f (r s).value (r s).state).state,
        (r s).trace ++ (f (r s).value (r s).state).trace⟩ := rfl

def record (t : Trace) : Run σ Unit :=
  fun s => ⟨(), s, t⟩

def log (e : Event) : Run σ Unit :=
  record [.logged e]

def enter (p : Phase) : Run σ Unit :=
  record [.entered p]

def state : Run σ σ :=
  fun s => ⟨s, s, []⟩

def update (f : σ → σ) : Run σ Unit :=
  fun s => ⟨(), f s, []⟩

end Run

namespace Engine

def call (E : Engine ε) (c : EngineCall) : Run ε c.Answer :=
  fun s =>
    let (a, s', events) := E.answer c s
    -- What the engine logs in answering comes after its call.
    ⟨a, s', .engine c :: events.map .logged⟩

def calibrate (E : Engine ε) : Run ε Unit :=
  Marker.calibration.forM fun m => E.call (.calibrate m)

end Engine

namespace Collector

def call (C : Collector κ) (c : CollectorCall) : Run κ c.Answer :=
  fun s =>
    let (a, s') := C.answer c s
    ⟨a, s', [.collector c]⟩

end Collector

namespace Body

/-- Runs a body, each question answered by `answer`. -/
def run (answer : (q : Ask) → Run σ q.Reply) : Body α → Run σ (Ending α)
  | done a => pure (.done a)
  | fail e => pure (.failed e)
  | panic p => pure (.panicked p)
  | ask q next => do
    Run.record [.asked q]
    let r ← answer q
    (next r).run answer

end Body

end Concolic
