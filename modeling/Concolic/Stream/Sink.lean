import Concolic.Text.Utf8

/-!
# Byte sinks

A sink as it answers one write after another. It takes as many octets as it has room for, is interrupted,
which calls for another try, or fails. A sink that takes nothing of a write makes it fail too.
-/

namespace Concolic

/-- One answer of a sink. Room that a write does not use up stays for the next. -/
inductive Acceptance
  | room (count : Nat)
  | interrupted
  | failed (reason : String)
  deriving DecidableEq, Repr

/-- How a sink answers when its scheduled answers are used up. -/
inductive Afterwards
  | takesAll
  | takesNothing
  | fails (reason : String)
  deriving DecidableEq, Repr

/-- A sink with the octets that it has taken so far. -/
structure Sink where
  answers : List Acceptance
  afterwards : Afterwards
  flushFailure : Option String
  taken : Bytes
  deriving DecidableEq, Repr

namespace Sink

def nothingTaken : String := "failed to write whole buffer"

def unlimited : Sink := ⟨[], .takesAll, none, []⟩

/-- Offers octets until all are taken or the sink fails. Gives the outcome, the octets taken and the
answers that are left. -/
def offer (afterwards : Afterwards) : List Acceptance → Bytes →
    Except String Unit × Bytes × List Acceptance
  | answers, [] => (.ok (), [], answers)
  | [], b =>
    match afterwards with
    | .takesAll => (.ok (), b, [])
    | .takesNothing => (.error nothingTaken, [], [])
    | .fails reason => (.error reason, [], [])
  | .interrupted :: answers, b => offer afterwards answers b
  | .failed reason :: answers, _ => (.error reason, [], answers)
  | .room count :: answers, b =>
    if count = 0 then (.error nothingTaken, [], answers)
    else if b.length < count then (.ok (), b, .room (count - b.length) :: answers)
    else
      let (outcome, more, rest) := offer afterwards answers (b.drop count)
      (outcome, b.take count ++ more, rest)

def write (s : Sink) (b : Bytes) : Except String Unit × Sink :=
  let (outcome, more, answers) := offer s.afterwards s.answers b
  (outcome, { s with answers := answers, taken := s.taken ++ more })

def writeText (s : Sink) (text : String) : Except String Unit × Sink :=
  s.write (Utf8.encode text)

def flush (s : Sink) : Except String Unit :=
  match s.flushFailure with
  | some reason => .error reason
  | none => .ok ()

end Sink

end Concolic
