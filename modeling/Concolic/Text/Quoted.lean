import Concolic.Text.Interval

/-!
# Quoted text

A text between double quotes, with an escape for each character that a reader could mistake. The set of
further characters to escape is a parameter.
-/

namespace Concolic

namespace Quoted

/-- The escape by code point, such as `\u{200b}`. -/
def byCodePoint (c : Char) : List Char :=
  '\\' :: 'u' :: '\x7b' :: (Nat.toDigits 16 c.toNat ++ ['\x7d'])

/-- How `c` is written inside the quotes, when `hidden` tells which characters are not shown raw. -/
def escape (hidden : Char → Bool) (c : Char) : List Char :=
  if c = '\x00' then ['\\', '0']
  else if c = '\t' then ['\\', 't']
  else if c = '\r' then ['\\', 'r']
  else if c = '\n' then ['\\', 'n']
  else if c = '"' then ['\\', '"']
  else if c = '\\' then ['\\', '\\']
  else if hidden c then byCodePoint c
  else [c]

def quote (hidden : Char → Bool) (s : List Char) : List Char :=
  '"' :: (s.flatMap (escape hidden) ++ ['"'])

end Quoted

end Concolic
