import Concolic.Failure
import Concolic.Request

/-!
# Test bodies

A test talks to the outside through a few questions only. Its body is a tree: it ends, or it asks a question
and goes on with any answer to it.
-/

namespace Concolic

inductive Mode
  | symbolic
  | replay
  deriving DecidableEq, Repr

namespace Mode

def toJson : Mode → Json
  | symbolic => .string "Symbolic"
  | replay => .string "Replay"

def ofJson? (j : Json) : Option Mode := do
  match ← j.variant? with
  | ("Symbolic", .null) => some symbolic
  | ("Replay", .null) => some replay
  | _ => none

end Mode

inductive Ask
  | int (r : IntRequest)
  | sequence (r : SequenceRequest)
  | assume (condition : Bool)
  | log (line : String)
  | concretize (value : Value)
  | mode
  deriving DecidableEq, Repr

namespace Ask

abbrev Reply : Ask → Type
  | int _ => Except Fault Int32
  | sequence _ => Except Fault Bytes
  | assume _ => Unit
  | log _ => Unit
  | concretize _ => Value
  | mode => Mode

end Ask

/-- A body that gives an `α` if it succeeds. -/
inductive Body (α : Type)
  | done (a : α)
  | fail (e : Failure)
  | panic (p : Panic)
  | ask (q : Ask) (next : q.Reply → Body α)

namespace Body

def bind : Body α → (α → Body β) → Body β
  | done a, f => f a
  | fail e, _ => fail e
  | panic p, _ => panic p
  | ask q next, f => ask q fun r => (next r).bind f

instance : Monad Body where
  pure := done
  bind := bind

/-- The question, with its answer as the result. -/
def put (q : Ask) : Body q.Reply :=
  ask q done

/-- A result, or a fault as the error of the body. -/
def ofExcept : Except Fault α → Body α
  | .ok a => done a
  | .error f => fail (.ofFault f)

def acquireInt (r : IntRequest) : Body Int32 :=
  ask (.int r) ofExcept

def acquireSequence (r : SequenceRequest) : Body Bytes :=
  ask (.sequence r) ofExcept

end Body

inductive Ending (α : Type)
  | done (a : α)
  | failed (e : Failure)
  | panicked (p : Panic)

namespace Ending

/-- The result, or the failure that an error or a panic is. -/
def guarded : Ending α → Except TestFailure α
  | done a => .ok a
  | failed e => .error (.ofFailure e)
  | panicked p => .error (.ofPanic p)

end Ending

/-- A test with instances of type `ι`: how an instance is built, how it prepares itself, and what it
does. -/
structure Test (ι : Type) where
  build : Except Panic ι
  prepare : ι → Body ι
  execute : ι → Body Unit

end Concolic
