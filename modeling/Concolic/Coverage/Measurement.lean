import Concolic.Run

/-!
# Measurements

A measurement runs from its start until it is first stopped. A measurement that is given up is stopped.
-/

namespace Concolic

/-- A measurement that has been started, with the state of its collector. -/
structure Measurement (κ : Type) where
  collector : κ
  running : Bool

namespace Measurement

def start (C : Collector κ) (s : κ) : Outcome (Measurement κ) Unit :=
  let started := (do Run.log (.plain .debug "Coverage measurement started"); C.call .start) s
  ⟨(), ⟨started.state, true⟩, started.trace⟩

def withCollector (r : Run κ α) : Run (Measurement κ) α :=
  fun m =>
    let outcome := r m.collector
    ⟨outcome.value, { m with collector := outcome.state }, outcome.trace⟩

/-- Stops a measurement, if it is running. -/
def stop (C : Collector κ) : Run (Measurement κ) Unit := do
  if (← Run.state).running then
    withCollector (C.call .stop)
    Run.update fun m => { m with running := false }
    Run.log (.plain .debug "Coverage measurement stopped")

end Measurement

end Concolic
