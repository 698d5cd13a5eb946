import Concolic.Event
import Concolic.Fault
import Concolic.Stream.Feed
import Concolic.Stream.Sink
import Concolic.Text.Word32

/-!
# Frames

A frame is a payload after its length, a word of four octets. A stream may break off anywhere: a frame that
is cut short ends the stream without an error. Once a reader has met the end or an error it reads no more.
-/

namespace Concolic

namespace Frame

def encode (payload : Bytes) : Bytes :=
  Word32.octets (UInt32.ofNat payload.length) ++ payload

end Frame

structure FrameReader where
  feed : Feed
  finished : Bool
  framesRead : Nat
  deriving DecidableEq, Repr

namespace FrameReader

def start (feed : Feed) : FrameReader := ⟨feed, false, 0⟩

def shortHeader (count : Nat) : Event :=
  ⟨.debug, "Truncated record header, stopping", [("bytes", .number count)], false⟩

def shortPayload (declared available : Nat) : Event :=
  ⟨.debug, "Truncated record payload, stopping",
    [("declared", .number declared), ("available", .number available)], false⟩

/-- The outcome of asking for a frame: the payload, nothing at the end, or an error; then the reader
after it and what was logged. -/
structure Step where
  result : Except Fault (Option Bytes)
  reader : FrameReader
  events : List Event

def next (r : FrameReader) : Step :=
  if r.finished then ⟨.ok none, r, []⟩
  else match r.feed.take 4 with
    | (.error reason, feed) => ⟨.error (.io reason), { r with feed := feed, finished := true }, []⟩
    | (.ok [a, b, c, d], feed) =>
      let declared := (Word32.ofOctets a b c d).toNat
      match feed.take declared with
      | (.error reason, feed) =>
        ⟨.error (.io reason), { r with feed := feed, finished := true }, []⟩
      | (.ok payload, feed) =>
        if payload.length < declared then
          ⟨.ok none, { r with feed := feed, finished := true },
            [shortPayload declared payload.length]⟩
        else ⟨.ok (some payload), { r with feed := feed, framesRead := r.framesRead + 1 }, []⟩
    | (.ok header, feed) =>
      ⟨.ok none, { r with feed := feed, finished := true },
        if header.isEmpty then [] else [shortHeader header.length]⟩

@[simp] theorem next_of_finished {r : FrameReader} (h : r.finished = true) :
    r.next = ⟨.ok none, r, []⟩ := by
  simp [next, h]

end FrameReader

namespace Sink

/-- Writes one frame: its length, then its payload. A payload whose length has no word of four octets
is refused before anything is written. -/
def writeFrame (s : Sink) (payload : Bytes) : Except Fault Unit × Sink :=
  if UInt32.size ≤ payload.length then
    (.error (.decoding "record payload exceeds u32 length"), s)
  else match s.write (Word32.octets (UInt32.ofNat payload.length)) with
    | (.error reason, s) => (.error (.io reason), s)
    | (.ok (), s) =>
      match s.write payload with
      | (.error reason, s) => (.error (.io reason), s)
      | (.ok (), s) => (.ok (), s)

end Sink

end Concolic
