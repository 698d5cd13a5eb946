import Concolic.Value

/-!
# Requests

What a test asks for when it acquires an input: a name, a default, and bounds. A request is checked before
anything is done about it.
-/

namespace Concolic

structure IntRequest where
  name : String
  default : Int32
  min : Option Int32
  max : Option Int32
  deriving DecidableEq, Repr

namespace IntRequest

/-- Refuses bounds in the wrong order. -/
def validate (r : IntRequest) : Except Fault Unit :=
  match r.min, r.max with
  | some min, some max =>
    if max < min then
      let name := r.name
      let low := min.toInt
      let high := max.toInt
      .error (.configuration s!"'{name}': min_value {low} exceeds max_value {high}")
    else .ok ()
  | _, _ => .ok ()

end IntRequest

/-- A request for a byte string, whose default has to be one. -/
structure SequenceRequest where
  name : String
  default : Value
  minSize : Option Nat
  maxSize : Option Nat
  asciiOnly : Bool
  deriving DecidableEq, Repr

namespace SequenceRequest

def defaultBytes (r : SequenceRequest) : Except Fault Bytes :=
  match r.default.bytes? with
  | some b => .ok b
  | none =>
    let name := r.name
    let default := toString r.default
    .error (.configuration s!"'{name}': default value must be a byte string, got {default}")

/-- Refuses a default that is no byte string, then sizes in the wrong order. -/
def validate (r : SequenceRequest) : Except Fault Unit := do
  let _ ← r.defaultBytes
  match r.minSize, r.maxSize with
  | some min, some max =>
    if max < min then
      let name := r.name
      .error (.configuration s!"'{name}': min_size {min} exceeds max_size {max}")
    else .ok ()
  | _, _ => .ok ()

end SequenceRequest

end Concolic
