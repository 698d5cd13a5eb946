import Concolic.Fault
import Concolic.Json.Value
import Concolic.Text.Blank
import Concolic.Text.Decimal
import Concolic.Text.Hex
import Concolic.Text.Hidden
import Concolic.Text.Quoted
import Concolic.Text.Word32

/-!
# Values

What a test acquires: a byte string or a 32-bit integer. A byte string that is decimal text may be used as
an integer, and an integer as its decimal text.
-/

namespace Concolic

inductive Kind
  | sequence
  | integer
  deriving DecidableEq, Repr, Inhabited

namespace Kind

def letter : Kind → Char
  | sequence => 's'
  | integer => 'i'

def ofLetter? : List Char → Option Kind
  | ['s'] => some sequence
  | ['i'] => some integer
  | _ => none

@[simp] theorem ofLetter?_letter (k : Kind) : ofLetter? [k.letter] = some k := by
  cases k <;> rfl

/-- The kind with the given letter, which a person typed. -/
def parse (letter : String) : Except Fault Kind :=
  match ofLetter? letter.toList with
  | some k => .ok k
  | none => .error (.decoding s!"invalid assignment kind '{letter}'")

end Kind

inductive Value
  | bytes (b : Bytes)
  | int (n : Int32)
  deriving DecidableEq, Repr

namespace Value

def ofText (s : String) : Value :=
  bytes (Utf8.encode s)

def kind : Value → Kind
  | bytes _ => .sequence
  | int _ => .integer

def bytes? : Value → Option Bytes
  | bytes b => some b
  | int _ => none

def int? : Value → Option Int32
  | bytes _ => none
  | int n => some n

/-- The value as an integer: its number, or the number that its text denotes between white space. -/
def toInt : Value → Except Fault Int32
  | int n => .ok n
  | bytes b =>
    match (Utf8.decodeChars? b).bind fun s => Decimal.int32? (trim s) with
    | some n => .ok n
    | none =>
      let text := Utf8.lossy b
      .error (.decoding s!"value '{text}' is not an integer")

/-- The value as a byte string: its bytes, or the decimal text of its number. -/
def toBytes : Value → Bytes
  | bytes b => b
  | int n => Utf8.encode (toString n.toInt)

/-- The characters that show a value: a number, a quoted text, or hexadecimal octets. -/
def display : Value → List Char
  | int n => (toString n.toInt).toList
  | bytes b =>
    match Utf8.decodeChars? b with
    | some s => Quoted.quote isHidden s
    | none => '0' :: 'x' :: Hex.ofBytes b

instance : ToString Value where
  toString v := String.ofList v.display

/-- A number, a string, or an object that holds hexadecimal octets. -/
def toJson : Value → Json
  | int n => .integer n.toInt
  | bytes b =>
    match Utf8.decode? b with
    | some s => .string s
    | none => .object [("hex", .string (Hex.text b))]

def encode : Value → Bytes
  | bytes b => b
  | int n => Word32.octets n.toUInt32

/-- The value of the given kind with these octets; an integer has exactly four. -/
def decode : Kind → Bytes → Except Fault Value
  | .sequence, b => .ok (bytes b)
  | .integer, [a, b, c, d] => .ok (int (Word32.ofOctets a b c d).toInt32)
  | .integer, b =>
    let count := b.length
    .error (.decoding s!"integer value must be 4 bytes, got {count}")

end Value

end Concolic
