import Concolic.Text.Utf8

/-!
# Variable-length numbers

A natural number as groups of seven bits, the least significant first. Every octet but the last has its
high bit set. A number of more octets than needed is read like the shortest one.
-/

namespace Concolic

namespace Wire

/-- The shortest octets of a number. -/
def encodeVarint (n : Nat) : Bytes :=
  if n < 0x80 then [UInt8.ofNat n]
  else UInt8.ofNat (n % 0x80 + 0x80) :: encodeVarint (n / 0x80)

/-- Reads a number of at most `room` octets. If it takes ten, the last is 0 or 1, which keeps the number
below `2 ^ 64`. -/
def varintWithin : (room : Nat) → Bytes → Option (Nat × Bytes)
  | _, [] => none
  | 0, _ :: _ => none
  | room + 1, b :: r =>
    if b < 0x80 then
      if room = 0 ∧ 1 < b then none else some (b.toNat, r)
    else
      (varintWithin room r).map fun (n, s) => (b.toNat % 0x80 + 0x80 * n, s)

def varint? (bs : Bytes) : Option (Nat × Bytes) :=
  varintWithin 10 bs

end Wire

end Concolic
