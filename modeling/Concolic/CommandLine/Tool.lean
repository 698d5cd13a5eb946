import Concolic.CommandLine.Inspection
import Concolic.CommandLine.Usage

/-!
# The inspection tool

The commands of the tool that shows test-case files and spells variable names.
-/

namespace Concolic

inductive ToolCommand
  | inspect (path : String) (json : Bool)
  | encodeName (base : String) (kind hint : Option String)
  deriving DecidableEq, Repr

namespace ToolCommand

def inspectUsage : Usage where
  options := [.switch "json" none]
  positionals := [.single "FILE" none fun path => !path.isEmpty]
  exclusive := []

def encodeNameUsage : Usage where
  options :=
    [.single "kind" (some 'k') fun letter => letter = "i" || letter = "s",
      .single "hint" none fun _ => true]
  positionals := [.single "BASE" none fun _ => true]
  exclusive := []

/-- The error of arguments that do not begin with a command. Help is shown as soon as it is asked for. -/
def withoutCommand : List Char → UsageError
  | ['-', '-', 'h', 'e', 'l', 'p'] => .displayHelp
  | '-' :: '-' :: 'h' :: 'e' :: 'l' :: 'p' :: '=' :: _ => .tooManyValues
  | '-' :: 'h' :: _ => .displayHelp
  | '-' :: _ => .unknownArgument
  | _ => .unknownCommand

def parse : List String → Except UsageError ToolCommand
  | [] => .error .missingArgument
  | "inspect" :: arguments => do
    let given ← inspectUsage.read arguments
    match Usage.operandsOf "FILE" given with
    | path :: _ => return .inspect path (Usage.has "json" given)
    | [] => .error .missingArgument
  | "encode-name" :: arguments => do
    let given ← encodeNameUsage.read arguments
    match Usage.operandsOf "BASE" given with
    | base :: _ =>
      return .encodeName base (Usage.operandsOf "kind" given).head?
        (Usage.operandsOf "hint" given).head?
    | [] => .error .missingArgument
  | "help" :: commands =>
    match commands with
    | [] | ["inspect"] | ["encode-name"] | ["help"] => .error .displayHelp
    | _ => .error .unknownCommand
  | argument :: _ => .error (withoutCommand argument.toList)

/-- The text of a name with the given base, the letter of a kind and a hint. -/
def spellName (base : String) (kind hint : Option String) : Except Fault String := do
  match kind with
  | none => return VarName.encode base none hint
  | some letter => return VarName.encode base (some (← Kind.parse letter)) hint

/-- What the tool gives: its exit code, what it writes, and what it has to say about it. -/
structure Result where
  code : UInt32
  out : String
  remark : String

def helpText : String :=
  "Commands:\n  inspect FILE [--json]\n  encode-name BASE [-k|--kind i|s] [--hint HINT]\n"

def run (openFile : String → Except String Feed) : ToolCommand → Result
  | .inspect path json =>
    let result := Inspection.run json (openFile path) .unlimited
    let out := Utf8.lossy result.out.taken
    match result.decoded with
    | .ok count => ⟨0, out, s!"Decoded {count} test case(s) from {path}"⟩
    | .error f => ⟨1, out, f.message⟩
  | .encodeName base kind hint =>
    match spellName base kind hint with
    | .ok name => ⟨0, name ++ "\n", ""⟩
    | .error f => ⟨1, "", f.message⟩

def invoke (openFile : String → Except String Feed) (arguments : List String) : Result :=
  match parse arguments with
  | .ok command => command.run openFile
  | .error .displayHelp => ⟨0, helpText, ""⟩
  | .error e => ⟨2, "", e.name ++ "\n" ++ helpText⟩

end ToolCommand

end Concolic
