import Concolic.Fault
import Concolic.Json.Decode
import Concolic.Text.Cut

/-!
# Failures of tests

An error that leaves a test body is a root with contexts around it. It is filed under the kind of its
outermost fault, if it has one; a panic is filed under a kind of its own.
-/

namespace Concolic

/-- One layer of an error: a fault of the harness, an input or output error, or any other message. -/
inductive Layer
  | fault (f : Fault)
  | io (message : String)
  | other (message : String)
  deriving DecidableEq, Repr

namespace Layer

def text : Layer → String
  | fault f => f.message
  | io message => message
  | other message => message

def fault? : Layer → Option Fault
  | fault f => some f
  | _ => none

def isIo : Layer → Bool
  | io _ => true
  | _ => false

end Layer

/-- An error that leaves a test body: contexts, the outermost first, around a root. The root may name
causes of its own, the nearest first, which count for nothing but the trace. -/
structure Failure where
  contexts : List Layer
  root : Layer
  causes : List String
  deriving DecidableEq, Repr

namespace Failure

def ofFault (f : Fault) : Failure := ⟨[], .fault f, []⟩

def within (e : Failure) (context : String) : Failure :=
  { e with contexts := .other context :: e.contexts }

/-- The layers, the outermost first. -/
def layers (e : Failure) : List Layer :=
  e.contexts ++ [e.root]

def message (e : Failure) : String :=
  ((e.contexts ++ [e.root]).headD e.root).text

/-- The texts below the outermost one, in order. -/
def sources (e : Failure) : List String :=
  (e.layers.map Layer.text).tail ++ e.causes

/-- The kind of an error: that of its outermost fault, or whether some layer is an input or output
error. -/
def kind (e : Failure) : String :=
  match e.layers.findSome? Layer.fault? with
  | some f => f.kindName
  | none => if e.layers.any Layer.isIo then "IoError" else "TestBodyError"

/-- A text whose first line begins with `first`, and each later one with `indent` blanks. -/
def indented (first : String) (indent : Nat) (s : String) : String :=
  let lines := (piecesAt '\n' s.toList).map String.ofList
  first ++ ("\n" ++ String.ofList (List.replicate indent ' ')).intercalate lines

/-- A number right-aligned in five columns. -/
def column (n : Nat) : String :=
  let digits := toString n
  String.ofList (List.replicate (5 - digits.length) ' ') ++ digits

/-- The texts of an error, the outermost first. Several sources are numbered, and a single one is not. No backtrace is
captured. -/
def trace (e : Failure) : String :=
  match e.sources with
  | [] => e.message
  | [source] => e.message ++ "\n\nCaused by:\n" ++ indented "    " 4 source
  | sources =>
    let numbered := sources.zipIdx.map fun (source, n) =>
      "\n" ++ indented (column n ++ ": ") 7 source
    e.message ++ "\n\nCaused by:" ++ String.join numbered

end Failure

/-- What a panic carries: a text, or something that has none. -/
inductive Panic
  | text (message : String)
  | textless
  deriving DecidableEq, Repr

namespace Panic

def message : Panic → String
  | text message => message
  | textless => "non-string panic payload"

end Panic

/-- A failed run of a test, as a report files it. -/
structure TestFailure where
  kind : String
  message : String
  trace : String
  deriving DecidableEq, Repr

namespace TestFailure

def ofFailure (e : Failure) : TestFailure := ⟨e.kind, e.message, e.trace⟩

def ofPanic (p : Panic) : TestFailure := ⟨"Panic", p.message, "panicked: " ++ p.message⟩

def fault (f : TestFailure) : Fault := .testBody f.kind f.message

instance : ToString TestFailure where
  toString f := f.kind ++ ": " ++ f.message

def toJson (f : TestFailure) : Json :=
  .object [("kind", .string f.kind), ("message", .string f.message), ("trace", .string f.trace)]

def ofJson? (j : Json) : Option TestFailure := do
  match ← j.fullRecord? ["kind", "message", "trace"] with
  | [kind, message, trace] => return ⟨← kind.string?, ← message.string?, ← trace.string?⟩
  | _ => none

end TestFailure

end Concolic
