import Concolic.Record.Message
import Concolic.Stream.Frame

/-!
# Test-case files

A test-case file is a sequence of frames, each with one record. A record that does not decode is an item of
its own and leaves its neighbours as they are.
-/

namespace Concolic

structure CaseReader where
  frames : FrameReader
  deriving DecidableEq, Repr

namespace CaseReader

def start (feed : Feed) : CaseReader := ⟨.start feed⟩

/-- How many records have been read, whether they decode or not. -/
def recordsRead (r : CaseReader) : Nat :=
  r.frames.framesRead

/-- An item of a test-case file, or nothing at the end; then the reader after it and what was logged. -/
structure Step where
  item : Option (Except Fault TestCase)
  reader : CaseReader
  events : List Event

def next (r : CaseReader) : Step :=
  let step := r.frames.next
  let item := match step.result with
    | .ok (some payload) => some (TestCase.decodeRecord payload)
    | .ok none => none
    | .error e => some (.error e)
  ⟨item, ⟨step.reader⟩, step.events⟩

/-- The items up to the end, each with the reader after it, then the reader at the end and what was logged
on the way. -/
def steps (r : CaseReader) : List (Except Fault TestCase × CaseReader) × CaseReader × List Event :=
  match r.next with
  | ⟨none, last, events⟩ => ([], last, events)
  | ⟨some item, r', events⟩ =>
    if r'.frames.finished then ([(item, r')], r', events)
    else if r'.frames.feed.unread.length < r.frames.feed.unread.length then
      let (more, last, later) := steps r'
      ((item, r') :: more, last, events ++ later)
    else ([(item, r')], r', events)
termination_by r.frames.feed.unread.length

def items (feed : Feed) : List (Except Fault TestCase) × List Event :=
  let (found, _, events) := (start feed).steps
  (found.map Prod.fst, events)

end CaseReader

structure CaseWriter where
  sink : Sink
  written : Nat
  deriving DecidableEq, Repr

namespace CaseWriter

def start (sink : Sink) : CaseWriter := ⟨sink, 0⟩

def write (w : CaseWriter) (c : TestCase) : Except Fault Unit × CaseWriter :=
  match w.sink.writeFrame c.encodeRecord with
  | (.ok (), sink) => (.ok (), ⟨sink, w.written + 1⟩)
  | (.error e, sink) => (.error e, ⟨sink, w.written⟩)

/-- Flushes the sink and gives the octets that it has taken. -/
def finish (w : CaseWriter) : Except Fault Bytes :=
  match w.sink.flush with
  | .ok () => .ok w.sink.taken
  | .error reason => .error (.io reason)

end CaseWriter

end Concolic
