import Concolic.Coverage.Analysis
import Concolic.Fault

/-!
# Coverage collectors

What the harness asks of a tool that measures coverage. A collector is a state and an answer to every call.
-/

namespace Concolic

inductive CollectorCall
  | start
  | stop
  | erase
  | summaryText
  | detailedAnalysis (key : String)
  deriving DecidableEq, Repr

namespace CollectorCall

/-- What a call gives back. -/
abbrev Answer : CollectorCall → Type
  | summaryText => Except Fault String
  | detailedAnalysis _ => Except Fault FileAnalysis
  | _ => Unit

end CollectorCall

/-- A collector with states of type `κ`. -/
structure Collector (κ : Type) where
  answer : (call : CollectorCall) → κ → call.Answer × κ

end Concolic
