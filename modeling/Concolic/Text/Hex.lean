import Concolic.Text.Utf8

/-!
# Hexadecimal octets

Octets as pairs of hexadecimal digits. Lower case is written; either case is read.
-/

namespace Concolic

namespace Hex

def digit? (c : Char) : Option Nat :=
  if '0' ≤ c ∧ c ≤ '9' then some (c.toNat - 48)
  else if 'a' ≤ c ∧ c ≤ 'f' then some (c.toNat - 87)
  else if 'A' ≤ c ∧ c ≤ 'F' then some (c.toNat - 55)
  else none

def ofByte (b : UInt8) : List Char :=
  [Nat.digitChar (b.toNat / 16), Nat.digitChar (b.toNat % 16)]

def ofBytes (bs : Bytes) : List Char :=
  bs.flatMap ofByte

/-- The octets that pairs of digits spell. -/
def bytes? : List Char → Option Bytes
  | [] => some []
  | [_] => none
  | a :: b :: s => do
    let high ← digit? a
    let low ← digit? b
    let rest ← bytes? s
    return UInt8.ofNat (high * 16 + low) :: rest

def text (bs : Bytes) : String :=
  String.ofList (ofBytes bs)

end Hex

end Concolic
