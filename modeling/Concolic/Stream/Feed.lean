import Concolic.Text.Utf8

/-!
# Byte sources

A source of octets as it answers one read after another: with some octets, with an interruption, which
calls for another try, or with an error. A source with nothing left answers with no octets, and so does an
empty answer, for one read; no octets mean the end.
-/

namespace Concolic

/-- One answer of a source. A read that asks for less than the octets leaves the rest of them. -/
inductive Delivery
  | octets (b : Bytes)
  | interrupted
  | failed (reason : String)
  deriving DecidableEq, Repr

/-- What a source still answers, in order. -/
abbrev Feed := List Delivery

namespace Feed

def ofBytes (b : Bytes) : Feed :=
  if b.isEmpty then [] else [.octets b]

def unread : Feed → Bytes
  | [] => []
  | .octets b :: f => b ++ unread f
  | _ :: f => unread f

/-- Reads until there are `count` octets, the source ends or it fails. -/
def take : (count : Nat) → Feed → Except String Bytes × Feed
  | 0, f => (.ok [], f)
  | _ + 1, [] => (.ok [], [])
  | count + 1, .interrupted :: f => take (count + 1) f
  | _ + 1, .failed reason :: f => (.error reason, f)
  | count + 1, .octets b :: f =>
    if b.isEmpty then (.ok [], f)
    else if count + 1 < b.length then
      (.ok (b.take (count + 1)), .octets (b.drop (count + 1)) :: f)
    else
      let (result, rest) := take (count + 1 - b.length) f
      (result.map (b ++ ·), rest)

def readAll : Feed → Except String Bytes
  | [] => .ok []
  | .interrupted :: f => readAll f
  | .failed reason :: _ => .error reason
  | .octets b :: f => if b.isEmpty then .ok [] else (readAll f).map (b ++ ·)

@[simp] theorem unread_cons_octets (b : Bytes) (f : Feed) :
    unread (.octets b :: f) = b ++ unread f := rfl

end Feed

end Concolic
