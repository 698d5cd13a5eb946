import Concolic.Assignment

/-!
# Test cases

A test case is what an exploration found along one path: the input, and the log that the test wrote.
-/

namespace Concolic

structure TestCase where
  timeStamp : UInt64
  assignment : Assignment
  output : String
  pathId : UInt64
  deriving DecidableEq

namespace TestCase

def toJson (c : TestCase) : Json :=
  .object
    [("time_stamp", .natural c.timeStamp.toNat),
      ("assignment", c.assignment.toJson),
      ("output", .string c.output),
      ("high_level_path_id", .natural c.pathId.toNat)]

end TestCase

end Concolic
