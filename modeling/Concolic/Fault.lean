/-!
# Faults

The failures that the harness itself can raise. A mismatch between recorded and replayed output is a
finding and no fault.
-/

namespace Concolic

/-- A failure of the harness, by what it concerns. -/
inductive Fault
  /-- A test was defined wrongly. -/
  | configuration (reason : String)
  /-- A name, a value or a record could not be decoded. -/
  | decoding (reason : String)
  /-- The engine did not attach. -/
  | engineUnavailable (reason : String)
  /-- An error or a panic left the test body. -/
  | testBody (kind : String) (message : String)
  /-- Coverage was asked for and never measured. -/
  | coverageUnavailable
  /-- A stream failed. -/
  | io (message : String)
  deriving DecidableEq, Repr

namespace Fault

/-- The name under which a report files the fault. -/
def kindName : Fault → String
  | configuration _ => "ConfigurationError"
  | decoding _ => "DecodingError"
  | engineUnavailable _ => "EngineUnavailable"
  | testBody _ _ => "TestBodyError"
  | coverageUnavailable => "CoverageUnavailableError"
  | io _ => "IoError"

def message : Fault → String
  | configuration reason => s!"Configuration error: {reason}"
  | decoding reason => s!"Decoding error: {reason}"
  | engineUnavailable reason => s!"Engine unavailable: {reason}"
  | testBody kind text => s!"Test body failed ({kind}): {text}"
  | coverageUnavailable => "Coverage measurement was never enabled for this batch"
  | io text => s!"I/O error: {text}"

end Fault

end Concolic
