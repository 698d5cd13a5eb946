import Concolic.Difference
import Concolic.Record.TestCase

/-!
# Batch reports

What a batch of replays found: how many tests ran, how many succeeded, what failed and which outputs
differ.
-/

namespace Concolic

/-- An input of a batch that failed, or that could not be decoded. -/
structure BatchFailure where
  index : Nat
  kind : String
  assignment : Assignment
  trace : String
  deriving DecidableEq

namespace BatchFailure

def toJson (f : BatchFailure) : Json :=
  .object
    [("index", .natural f.index), ("kind", .string f.kind), ("assignment", f.assignment.toJson),
      ("trace", .string f.trace)]

end BatchFailure

structure BatchReport where
  replayed : Nat
  succeeded : Nat
  failures : List BatchFailure
  mismatches : List Mismatch
  deriving DecidableEq

namespace BatchReport

def empty : BatchReport := ⟨0, 0, [], []⟩

/-- Whether nothing failed and no output differs. -/
def isClean (r : BatchReport) : Bool :=
  r.failures.isEmpty && r.mismatches.isEmpty

def toJson (r : BatchReport) : Json :=
  .object
    [("replayed", .natural r.replayed), ("succeeded", .natural r.succeeded),
      ("failures", .array (r.failures.map BatchFailure.toJson)),
      ("mismatches", .array (r.mismatches.map Mismatch.toJson))]

end BatchReport

end Concolic
