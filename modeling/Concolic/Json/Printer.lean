import Concolic.Json.Value

/-!
# Writing JSON

The compact text of a value: no blanks, and an escape exactly for quotes, backslashes and the
characters below U+0020.
-/

namespace Concolic

namespace Json

def escape (c : Char) : List Char :=
  if c = '"' then ['\\', '"']
  else if c = '\\' then ['\\', '\\']
  else if c = '\x08' then ['\\', 'b']
  else if c = '\x0c' then ['\\', 'f']
  else if c = '\n' then ['\\', 'n']
  else if c = '\r' then ['\\', 'r']
  else if c = '\t' then ['\\', 't']
  else if c.toNat < 0x20 then
    ['\\', 'u', '0', '0', Nat.digitChar (c.toNat / 16), Nat.digitChar (c.toNat % 16)]
  else [c]

def quote (s : String) : List Char :=
  '"' :: (s.toList.flatMap escape ++ ['"'])

mutual

def chars : Json → List Char
  | null => ['n', 'u', 'l', 'l']
  | bool true => ['t', 'r', 'u', 'e']
  | bool false => ['f', 'a', 'l', 's', 'e']
  | number digits => digits.toList
  | string s => quote s
  | garbled => ['"', '\\', 'u', 'd', '8', '0', '0', '"']
  | array items => '[' :: (itemChars items ++ [']'])
  | object fields => '\x7b' :: (fieldChars fields ++ ['\x7d'])

/-- The characters of the items of an array, with commas between them. -/
def itemChars : List Json → List Char
  | [] => []
  | [x] => chars x
  | x :: y :: xs => chars x ++ ',' :: itemChars (y :: xs)

def fieldChars : List (String × Json) → List Char
  | [] => []
  | [(k, x)] => quote k ++ ':' :: chars x
  | (k, x) :: f :: fs => quote k ++ ':' :: (chars x ++ ',' :: fieldChars (f :: fs))

end

def text (j : Json) : String :=
  String.ofList j.chars

end Json

end Concolic
