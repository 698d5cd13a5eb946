/-!
# Decimal numbers

Reading decimal text. A number is written by `toString`, and what is written is read back.
-/

namespace Concolic

namespace Decimal

/-- The number that a non-empty run of ASCII digits denotes; leading zeros are allowed. -/
def nat? (s : List Char) : Option Nat :=
  if !s.isEmpty && s.all Char.isDigit then some (Nat.ofDigitChars 10 s 0) else none

/-- The number that digits with at most one sign in front denote. -/
def int? : List Char → Option Int
  | '+' :: s => (nat? s).map Int.ofNat
  | '-' :: s => (nat? s).map fun n => -Int.ofNat n
  | s => (nat? s).map Int.ofNat

def int32? (s : List Char) : Option Int32 := do
  let n ← int? s
  if Int32.minValue.toInt ≤ n ∧ n ≤ Int32.maxValue.toInt then some (Int32.ofInt n) else none

end Decimal

end Concolic
