import Concolic.Fault
import Concolic.Text.Hex

/-!
# Escaped values

A byte string as a person types it on a command line. A backslash begins an escape: a letter for one
control octet, two hexadecimal or up to three octal digits for any octet, or a line feed for none. Other
characters after a backslash are kept, and so is the backslash.
-/

namespace Concolic

namespace Escape

/-- Why a text is no escaped value. -/
inductive Malformed
  /-- The text ends in a lone backslash. -/
  | trailingBackslash
  /-- Two hexadecimal digits are missing after the backslash at `offset`. -/
  | hexDigits (offset : Nat)
  deriving DecidableEq, Repr

namespace Malformed

def fault : Malformed → Fault
  | trailingBackslash => .decoding "trailing backslash in escaped value"
  | hexDigits offset => .decoding s!"invalid \\x escape at offset {offset}"

end Malformed

/-- The octet that an escape of one letter stands for. -/
def letter? (b : UInt8) : Option UInt8 :=
  if b = 0x5C ∨ b = 0x27 ∨ b = 0x22 then some b
  else if b = 0x61 then some 0x07
  else if b = 0x62 then some 0x08
  else if b = 0x66 then some 0x0C
  else if b = 0x6E then some 0x0A
  else if b = 0x72 then some 0x0D
  else if b = 0x74 then some 0x09
  else if b = 0x76 then some 0x0B
  else none

def octal? (b : UInt8) : Option Nat :=
  if 0x30 ≤ b ∧ b ≤ 0x37 then some (b.toNat - 0x30) else none

def hex? (b : UInt8) : Option Nat :=
  Hex.digit? (Char.ofNat b.toNat)

/-- Reads octets as escaped text. `offset` counts the octets before them. -/
def read (offset : Nat) : Bytes → Except Malformed Bytes
  | [] => .ok []
  | b :: s =>
    if b ≠ 0x5C then (b :: ·) <$> read (offset + 1) s
    else match s with
      | [] => .error .trailingBackslash
      | e :: s =>
        if e = 0x0A then read (offset + 2) s
        else if e = 0x78 then
          match s with
          | h :: l :: s =>
            match hex? h, hex? l with
            | some high, some low =>
              (UInt8.ofNat (high * 16 + low) :: ·) <$> read (offset + 4) s
            | _, _ => .error (.hexDigits offset)
          | _ => .error (.hexDigits offset)
        else match letter? e, octal? e with
          | some c, _ => (c :: ·) <$> read (offset + 2) s
          | none, none => (fun r => b :: e :: r) <$> read (offset + 2) s
          | none, some high =>
            match s with
            | [] => .ok [UInt8.ofNat high]
            | f :: s =>
              match octal? f with
              | none => (UInt8.ofNat high :: ·) <$> read (offset + 2) (f :: s)
              | some middle =>
                match s with
                | [] => .ok [UInt8.ofNat (high * 8 + middle)]
                | g :: s =>
                  match octal? g with
                  | none => (UInt8.ofNat (high * 8 + middle) :: ·) <$> read (offset + 3) (g :: s)
                  | some low =>
                    (UInt8.ofNat (high * 64 + middle * 8 + low) :: ·) <$> read (offset + 4) s

/-- The octets that an escaped text stands for. -/
def unescape (s : String) : Except Malformed Bytes :=
  read 0 (Utf8.encode s)

end Escape

end Concolic
