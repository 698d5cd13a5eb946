import Concolic.Wire.Skip

/-!
# Fields of a message

A message is a sequence of fields, each of which changes what has been gathered so far. Octets are read
from the whole of what is left, so that a field can run past the end of the message that holds it; the
message is then refused at its end.
-/

namespace Concolic

namespace Wire

/-- Why octets are no message, with the fields that it happened in, the innermost first. -/
structure Malformed where
  location : List String
  cause : Cause
  deriving DecidableEq, Repr

namespace Malformed

def message (m : Malformed) : String :=
  let location := String.join (m.location.map (· ++ ": "))
  "failed to decode Protobuf message: " ++ location ++ m.cause.message

end Malformed

/-- What reading gives. Reading at the front of some octets gives a value and the octets after it. -/
abbrev Reading := Except Malformed

def failure (cause : Cause) : Reading α :=
  .error ⟨[], cause⟩

def inField (name : String) : Reading α → Reading α
  | .ok r => .ok r
  | .error m => .error { m with location := m.location ++ [name] }

/-- Reads fields until at most `limit` octets are left. `field` reads the contents of one field. -/
def readFields (field : σ → Key → Bytes → Reading (σ × Bytes)) (limit : Nat) (s : σ) (bs : Bytes) :
    Reading (σ × Bytes) :=
  if bs.length ≤ limit then .ok (s, bs)
  else match Key.read bs with
    | .error e => failure e
    | .ok (key, r) =>
      match field s key r with
      | .error e => .error e
      | .ok (s', r') =>
        if r'.length < bs.length then readFields field limit s' r' else .ok (s', r')
termination_by bs.length

def withForm (expected : Form) (key : Key) (read : Bytes → Reading (α × Bytes)) (bs : Bytes) :
    Reading (α × Bytes) :=
  if key.form = expected then read bs else failure (.wrongForm key.form expected)

def readNumber (bs : Bytes) : Reading (Nat × Bytes) :=
  match varint? bs with
  | some r => .ok r
  | none => failure .invalidVarint

def readOctets (bs : Bytes) : Reading (Bytes × Bytes) := do
  let (n, r) ← readNumber bs
  if n ≤ r.length then .ok (r.take n, r.drop n) else failure .underflow

def readText (bs : Bytes) : Reading (String × Bytes) := do
  let (octets, r) ← readOctets bs
  match Utf8.decode? octets with
  | some s => .ok (s, r)
  | none => failure .notUtf8

def readMessage (field : σ → Key → Bytes → Reading (σ × Bytes)) (s : σ) (bs : Bytes) :
    Reading (σ × Bytes) := do
  let (n, r) ← readNumber bs
  if r.length < n then failure .underflow
  else
    let (s', r') ← readFields field (r.length - n) s r
    if r'.length = r.length - n then .ok (s', r') else failure .lengthExceeded

/-- Passes over a field that the message does not know. -/
def readUnknown (depth : Nat) (s : σ) (key : Key) (bs : Bytes) : Reading (σ × Bytes) :=
  match skip depth key bs with
  | .ok r => .ok (s, r)
  | .error e => failure e

/-- The field with a number, or nothing if the number is 0, which is the default. -/
def numberField (number : Nat) (n : Nat) : Bytes :=
  if n = 0 then [] else Key.encode ⟨number, .varint⟩ ++ encodeVarint n

def delimited (number : Nat) (contents : Bytes) : Bytes :=
  Key.encode ⟨number, .lengthDelimited⟩ ++ encodeVarint contents.length ++ contents

/-- The field with octets, or nothing if there are none, which is the default. -/
def octetsField (number : Nat) (contents : Bytes) : Bytes :=
  if contents.isEmpty then [] else delimited number contents

end Wire

end Concolic
