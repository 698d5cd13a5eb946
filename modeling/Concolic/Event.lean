/-!
# Events

What the harness and a test write to the event log. An event has a level, a message and named fields; the
lines that a test logs itself go to a channel of their own.
-/

namespace Concolic

inductive Level
  | debug
  | info
  | warn
  | error
  deriving DecidableEq, Repr

inductive FieldValue
  | number (n : Int)
  | text (s : String)
  deriving DecidableEq, Repr

structure Event where
  level : Level
  message : String
  fields : List (String × FieldValue)
  /-- Whether the event is on the channel for the lines of tests. -/
  fromTest : Bool
  deriving DecidableEq, Repr

namespace Event

def plain (level : Level) (message : String) : Event :=
  ⟨level, message, [], false⟩

def testLine (line : String) : Event :=
  ⟨.info, s!"*log* {line}", [], true⟩

end Event

end Concolic
