import Concolic.CommandLine.Tool
import Concolic.Directory

/-!
# The program

The inspection tool as a program: it opens the file that a command names, and writes what the tool gives.
-/

namespace Concolic

def systemText (e : IO.Error) : String :=
  match e with
  | .noFileOrDirectory .. => AccessFault.notFound.message
  | .inappropriateType .. => AccessFault.isADirectory.message
  | e => toString e

/-- The octets of a file as a source. A failure after opening belongs to the source. -/
def readSource (path : String) : IO (Except String Feed) := do
  match ← (IO.FS.Handle.mk path .read).toBaseIO with
  | .error e => return .error (systemText e)
  | .ok handle =>
    match ← handle.readBinToEnd.toBaseIO with
    | .error e => return .ok [.failed (systemText e)]
    | .ok contents => return .ok (Feed.ofBytes contents.toList)

end Concolic

open Concolic in
def main (arguments : List String) : IO UInt32 := do
  let opened ← match ToolCommand.parse arguments with
    | .ok (.inspect path _) => readSource path
    | _ => pure (.ok [])
  let result := ToolCommand.invoke (fun _ => opened) arguments
  IO.print result.out
  unless result.remark.isEmpty do IO.eprintln result.remark
  return result.code
