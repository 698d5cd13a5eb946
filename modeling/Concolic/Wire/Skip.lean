import Concolic.Wire.Key

/-!
# Unknown fields

A field that a message does not know is passed over, however it is formed. A group holds fields up to the
end of the group with its own number; how deep groups may stand in one another is limited.
-/

namespace Concolic

namespace Wire

def skipOctets (count : Nat) (bs : Bytes) : Except Cause Bytes :=
  if count ≤ bs.length then .ok (bs.drop count) else .error .underflow

/-- Passes over the fields of a group and over its end. `skipField` passes over one of its fields. -/
def skipGroup (skipField : Key → Bytes → Except Cause Bytes) (number : Nat) (bs : Bytes) :
    Except Cause Bytes :=
  match Key.read bs with
  | .error e => .error e
  | .ok (key, r) =>
    if key.form = .endGroup then
      if key.number = number then .ok r else .error .strayEndGroup
    else match skipField key r with
      | .error e => .error e
      | .ok s => if s.length < bs.length then skipGroup skipField number s else .ok s
termination_by bs.length

/-- Passes over the contents of a field. `depth` is how many fields may still stand in one another. -/
def skip : (depth : Nat) → Key → Bytes → Except Cause Bytes
  | 0, _, _ => .error .tooDeep
  | depth + 1, key, bs =>
    match key.form with
    | .varint =>
      match varint? bs with
      | some (_, r) => .ok r
      | none => .error .invalidVarint
    | .thirtyTwoBit => skipOctets 4 bs
    | .sixtyFourBit => skipOctets 8 bs
    | .lengthDelimited =>
      match varint? bs with
      | some (n, r) => skipOctets n r
      | none => .error .invalidVarint
    | .startGroup => skipGroup (skip depth) key.number bs
    | .endGroup => .error .strayEndGroup

end Wire

end Concolic
