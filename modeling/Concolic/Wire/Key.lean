import Concolic.Wire.Varint

/-!
# Field keys

A field begins with a key, which holds the number of the field and the form of what follows.
-/

namespace Concolic

namespace Wire

inductive Form
  | varint
  | sixtyFourBit
  | lengthDelimited
  | startGroup
  | endGroup
  | thirtyTwoBit
  deriving DecidableEq, Repr

namespace Form

def code : Form → Nat
  | varint => 0
  | sixtyFourBit => 1
  | lengthDelimited => 2
  | startGroup => 3
  | endGroup => 4
  | thirtyTwoBit => 5

def ofCode? : Nat → Option Form
  | 0 => some varint
  | 1 => some sixtyFourBit
  | 2 => some lengthDelimited
  | 3 => some startGroup
  | 4 => some endGroup
  | 5 => some thirtyTwoBit
  | _ => none

@[simp] theorem ofCode?_code (f : Form) : ofCode? f.code = some f := by
  cases f <;> rfl

def name : Form → String
  | varint => "Varint"
  | sixtyFourBit => "SixtyFourBit"
  | lengthDelimited => "LengthDelimited"
  | startGroup => "StartGroup"
  | endGroup => "EndGroup"
  | thirtyTwoBit => "ThirtyTwoBit"

end Form

/-- Why octets are no message. -/
inductive Cause
  | invalidVarint
  | invalidKey (key : Nat)
  | invalidForm (code : Nat)
  | zeroNumber
  | wrongForm (actual expected : Form)
  | underflow
  | lengthExceeded
  | strayEndGroup
  | notUtf8
  | tooDeep
  deriving DecidableEq, Repr

namespace Cause

def message : Cause → String
  | invalidVarint => "invalid varint"
  | invalidKey key => s!"invalid key value: {key}"
  | invalidForm code => s!"invalid wire type value: {code}"
  | zeroNumber => "invalid tag value: 0"
  | wrongForm actual expected =>
    "invalid wire type: " ++ actual.name ++ " (expected " ++ expected.name ++ ")"
  | underflow => "buffer underflow"
  | lengthExceeded => "delimited length exceeded"
  | strayEndGroup => "unexpected end group tag"
  | notUtf8 => "invalid string value: data is not UTF-8 encoded"
  | tooDeep => "recursion limit reached"

end Cause

structure Key where
  number : Nat
  form : Form
  deriving DecidableEq, Repr

namespace Key

def encode (key : Key) : Bytes :=
  encodeVarint (key.number * 8 + key.form.code)

/-- The key that a number holds. It has 32 bits; the form is checked before the field number. -/
def ofNat (n : Nat) : Except Cause Key :=
  if UInt32.size ≤ n then .error (.invalidKey n)
  else match Form.ofCode? (n % 8) with
    | none => .error (.invalidForm (n % 8))
    | some form => if n / 8 = 0 then .error .zeroNumber else .ok ⟨n / 8, form⟩

def read (bs : Bytes) : Except Cause (Key × Bytes) :=
  match varint? bs with
  | none => .error .invalidVarint
  | some (n, r) => (ofNat n).map fun key => (key, r)

end Key

end Wire

end Concolic
