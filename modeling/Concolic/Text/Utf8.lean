/-!
# UTF-8

The octets of a text, and the text of a sequence of octets. An ill-formed sequence has no text, but
it still has a reading in which each longest part that could have begun a character, or else a single
octet, stands for U+FFFD.
-/

namespace Concolic

abbrev Bytes := List UInt8

namespace Utf8

def encodeChar (c : Char) : Bytes :=
  let n := c.toNat
  if n < 0x80 then [UInt8.ofNat n]
  else if n < 0x800 then [UInt8.ofNat (0xC0 + n / 0x40), UInt8.ofNat (0x80 + n % 0x40)]
  else if n < 0x10000 then
    [UInt8.ofNat (0xE0 + n / 0x1000), UInt8.ofNat (0x80 + n / 0x40 % 0x40),
      UInt8.ofNat (0x80 + n % 0x40)]
  else
    [UInt8.ofNat (0xF0 + n / 0x40000), UInt8.ofNat (0x80 + n / 0x1000 % 0x40),
      UInt8.ofNat (0x80 + n / 0x40 % 0x40), UInt8.ofNat (0x80 + n % 0x40)]

def encodeChars (s : List Char) : Bytes :=
  s.flatMap encodeChar

@[simp] theorem encodeChars_nil : encodeChars [] = [] := rfl

@[simp] theorem encodeChars_cons (c : Char) (s : List Char) :
    encodeChars (c :: s) = encodeChar c ++ encodeChars s := rfl

def encode (s : String) : Bytes :=
  encodeChars s.toList

def isTail (b : UInt8) : Bool :=
  0x80 ≤ b && b ≤ 0xBF

/-- Whether `b` may follow the lead octet `a`. Four leads narrow the range of a continuation octet,
which excludes overlong forms, surrogates and code points above U+10FFFF. -/
def mayFollow (a b : UInt8) : Bool :=
  if a = 0xE0 then 0xA0 ≤ b && b ≤ 0xBF
  else if a = 0xED then 0x80 ≤ b && b ≤ 0x9F
  else if a = 0xF0 then 0x90 ≤ b && b ≤ 0xBF
  else if a = 0xF4 then 0x80 ≤ b && b ≤ 0x8F
  else isTail b

/-- What the octets at one place of a sequence are: a character, or a part of none. -/
inductive Piece
  | char (c : Char)
  | broken
  deriving DecidableEq, Repr

namespace Piece

def char? : Piece → Option Char
  | char c => some c
  | broken => none

def reading : Piece → Char
  | char c => c
  | broken => '\uFFFD'

end Piece

/-- Cuts octets into characters and broken parts, the parts as long as they can be. -/
def pieces : Bytes → List Piece
  | [] => []
  | a :: r₁ =>
    if a < 0x80 then .char (Char.ofNat a.toNat) :: pieces r₁
    else if a < 0xC2 || 0xF4 < a then .broken :: pieces r₁
    else match r₁ with
      | [] => [.broken]
      | b :: r₂ =>
        if !mayFollow a b then .broken :: pieces (b :: r₂)
        else if a < 0xE0 then
          .char (Char.ofNat (a.toNat % 0x20 * 0x40 + b.toNat % 0x40)) :: pieces r₂
        else match r₂ with
          | [] => [.broken]
          | c :: r₃ =>
            if !isTail c then .broken :: pieces (c :: r₃)
            else if a < 0xF0 then
              .char (Char.ofNat
                (a.toNat % 0x10 * 0x1000 + b.toNat % 0x40 * 0x40 + c.toNat % 0x40)) :: pieces r₃
            else match r₃ with
              | [] => [.broken]
              | d :: r₄ =>
                if !isTail d then .broken :: pieces (d :: r₄)
                else
                  .char (Char.ofNat (a.toNat % 0x08 * 0x40000 + b.toNat % 0x40 * 0x1000 +
                    c.toNat % 0x40 * 0x40 + d.toNat % 0x40)) :: pieces r₄

def decodeChars? (bs : Bytes) : Option (List Char) :=
  (pieces bs).mapM Piece.char?

def decode? (bs : Bytes) : Option String :=
  (decodeChars? bs).map String.ofList

/-- A text for any octets, with U+FFFD for each broken part. -/
def lossy (bs : Bytes) : String :=
  String.ofList ((pieces bs).map Piece.reading)

end Utf8

end Concolic
