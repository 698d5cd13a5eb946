import Concolic.Text.Hex

/-!
# JSON tokens

A text is cut into punctuation, strings and words, one character at a time. A word is a longest run of
other characters; it has to be a literal or a number.
-/

namespace Concolic

namespace Json

/-- A token. A string without a text is one that spells half of a surrogate pair. -/
inductive Token
  | openBrace
  | closeBrace
  | openBracket
  | closeBracket
  | colon
  | comma
  | null
  | bool (b : Bool)
  | number (digits : String)
  | string (s : Option String)
  deriving DecidableEq, Repr

namespace Token

/-- One element of a string: a character, or a 16-bit unit given by its number. -/
inductive Element
  | char (c : Char)
  | unit (n : Nat)
  deriving DecidableEq, Repr

/-- The characters that the elements spell; the units of a surrogate pair spell one together. -/
def spelled? : List Element → Option (List Char)
  | [] => some []
  | .char c :: es => (spelled? es).map (c :: ·)
  | .unit n :: es =>
    if n < 0xD800 ∨ 0xDFFF < n then (spelled? es).map (Char.ofNat n :: ·)
    else match es with
      | .unit m :: es' =>
        if n < 0xDC00 ∧ 0xDC00 ≤ m ∧ m ≤ 0xDFFF then
          (spelled? es').map
            (Char.ofNat (0x10000 + (n - 0xD800) * 0x400 + (m - 0xDC00)) :: ·)
        else none
      | _ => none

def escaped? : Char → Option Char
  | '"' => some '"'
  | '\\' => some '\\'
  | '/' => some '/'
  | 'b' => some '\x08'
  | 'f' => some '\x0c'
  | 'n' => some '\n'
  | 'r' => some '\r'
  | 't' => some '\t'
  | _ => none

/-- The text without its leading digits, of which there must be one. -/
def afterDigits? (s : List Char) : Option (List Char) :=
  if (s.takeWhile Char.isDigit).isEmpty then none else some (s.dropWhile Char.isDigit)

/-- The text without a leading integer part, which is `0` or does not begin with `0`. -/
def afterInteger? : List Char → Option (List Char)
  | '0' :: s => some s
  | s => afterDigits? s

def afterFraction? : List Char → Option (List Char)
  | '.' :: s => afterDigits? s
  | s => some s

def afterExponent? : List Char → Option (List Char)
  | 'e' :: s | 'E' :: s =>
    match s with
    | '+' :: s | '-' :: s => afterDigits? s
    | s => afterDigits? s
  | s => some s

def isNumber (s : List Char) : Bool :=
  let unsigned := match s with
    | '-' :: s => s
    | s => s
  (((afterInteger? unsigned).bind afterFraction?).bind afterExponent?) == some []

def ofWord? (s : List Char) : Option Token :=
  if s = ['n', 'u', 'l', 'l'] then some null
  else if s = ['t', 'r', 'u', 'e'] then some (bool true)
  else if s = ['f', 'a', 'l', 's', 'e'] then some (bool false)
  else if isNumber s then some (number (String.ofList s))
  else none

def ofPunctuation? : Char → Option Token
  | '\x7b' => some openBrace
  | '\x7d' => some closeBrace
  | '[' => some openBracket
  | ']' => some closeBracket
  | ':' => some colon
  | ',' => some comma
  | _ => none

/-- Where the cutting stands; what has been read of a token is kept in reverse. -/
inductive Place
  | between
  | word (read : List Char)
  | string (read : List Element)
  | escape (read : List Element)
  | unit (read : List Element) (value : Nat) (missing : Nat)
  deriving Repr

/-- The tokens completed by one character, and the place after it. -/
def step : Place → Char → Option (List Token × Place)
  | .between, c => atStart [] c
  | .word read, c =>
    if c = '"' ∨ c = ' ' ∨ c = '\t' ∨ c = '\n' ∨ c = '\r' ∨ (ofPunctuation? c).isSome then
      (ofWord? read.reverse).bind fun t => atStart [t] c
    else some ([], .word (c :: read))
  | .string read, c =>
    if c = '"' then some ([string ((spelled? read.reverse).map String.ofList)], .between)
    else if c = '\\' then some ([], .escape read)
    else if c.toNat < 0x20 then none
    else some ([], .string (.char c :: read))
  | .escape read, c =>
    if c = 'u' then some ([], .unit read 0 4)
    else (escaped? c).map fun e => ([], .string (.char e :: read))
  | .unit read value missing, c =>
    (Hex.digit? c).map fun d =>
      if missing = 1 then ([], .string (.unit (value * 16 + d) :: read))
      else ([], .unit read (value * 16 + d) (missing - 1))
where
  /-- A character that begins a token, after the tokens `before`. -/
  atStart (before : List Token) (c : Char) : Option (List Token × Place) :=
    if c = ' ' ∨ c = '\t' ∨ c = '\n' ∨ c = '\r' then some (before, .between)
    else if c = '"' then some (before, .string [])
    else match ofPunctuation? c with
      | some t => some (before ++ [t], .between)
      | none => some (before, .word [c])

def scan : Place → List Char → Option (List Token)
  | .between, [] => some []
  | .word read, [] => (ofWord? read.reverse).map fun t => [t]
  | _, [] => none
  | p, c :: s => do
    let (tokens, next) ← step p c
    let rest ← scan next s
    return tokens ++ rest

def tokens? (s : String) : Option (List Token) :=
  scan .between s.toList

end Token

end Json

end Concolic
