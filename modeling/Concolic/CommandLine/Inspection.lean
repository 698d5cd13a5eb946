import Concolic.Json.Printer
import Concolic.Stream.CaseFile

/-!
# Inspection

The contents of a test-case file as text: two lines for each test case, or its JSON on one line. A record
that does not decode is reported in its place.
-/

namespace Concolic

namespace Inspection

def itemText (json : Bool) (index : Nat) : Except Fault TestCase → String
  | .ok c =>
    if json then c.toJson.text ++ "\n"
    else
      let path := c.pathId
      let time := c.timeStamp
      let assignment := toString c.assignment
      let output := String.ofList (Quoted.quote isHidden c.output.toList)
      s!"#{index} path={path} time={time} {assignment}\n    output: {output}\n"
  | .error f =>
    let reason := f.message
    s!"#{index} undecodable: {reason}\n"

/-- Writes the items from a position on until the sink fails. Gives the outcome and the sink after it. -/
def writeItems (json : Bool) (index : Nat) :
    List (Except Fault TestCase) → Sink → Except Fault Unit × Sink
  | [], out => (.ok (), out)
  | item :: items, out =>
    match out.writeText (itemText json index item) with
    | (.error reason, out) => (.error (.io reason), out)
    | (.ok (), out) => writeItems json (index + 1) items out

/-- What an inspection gives: the number of decoded test cases, the sink after it and what was logged. -/
structure Result where
  decoded : Except Fault Nat
  out : Sink
  events : List Event

/-- Inspects a test-case file, given as what opening it gave. -/
def run (json : Bool) (opened : Except String Feed) (out : Sink) : Result :=
  match opened with
  | .error reason => ⟨.error (.io reason), out, []⟩
  | .ok feed =>
    let (items, events) := CaseReader.items feed
    match writeItems json 0 items out with
    | (.error f, out) => ⟨.error f, out, []⟩
    | (.ok (), out) => ⟨.ok (items.countP fun item => item.isOk), out, events⟩

end Inspection

end Concolic
