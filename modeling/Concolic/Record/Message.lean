import Concolic.Record.TestCase
import Concolic.Wire.Field

/-!
# Records

A record holds one test case as a message of four fields: the time stamp, the input, the output and the
path identifier. The input is a message of entries, and an entry is a message of a written name and the
octets of a value.
-/

namespace Concolic

/-- An entry of the input as a record holds it. -/
structure Entry where
  name : String
  octets : Bytes
  deriving DecidableEq, Repr

namespace Entry

def blank : Entry := ⟨"", []⟩

def readField (e : Entry) (key : Wire.Key) (bs : Bytes) : Wire.Reading (Entry × Bytes) :=
  if key.number = 1 then
    Wire.inField "VarAssignment.name" do
      let (name, r) ← Wire.withForm .lengthDelimited key Wire.readText bs
      return ({ e with name := name }, r)
  else if key.number = 2 then
    Wire.inField "VarAssignment.value" do
      let (octets, r) ← Wire.withForm .lengthDelimited key Wire.readOctets bs
      return ({ e with octets := octets }, r)
  else Wire.readUnknown 98 e key bs

def readInputField (es : List Entry) (key : Wire.Key) (bs : Bytes) : Wire.Reading (List Entry × Bytes) :=
  if key.number = 1 then
    Wire.inField "InputMessage.var_assignment" do
      let (e, r) ← Wire.withForm .lengthDelimited key (Wire.readMessage readField blank) bs
      return (es ++ [e], r)
  else Wire.readUnknown 99 es key bs

def encode (e : Entry) : Bytes :=
  Wire.octetsField 1 (Utf8.encode e.name) ++ Wire.octetsField 2 e.octets

def encodeAll (es : List Entry) : Bytes :=
  es.flatMap fun e => Wire.delimited 1 e.encode

end Entry

/-- The message of a record, before its entries are decoded. -/
structure Message where
  timeStamp : UInt64
  entries : List Entry
  output : String
  pathId : UInt64
  deriving DecidableEq, Repr

namespace Message

def blank : Message := ⟨0, [], "", 0⟩

def readField (m : Message) (key : Wire.Key) (bs : Bytes) : Wire.Reading (Message × Bytes) :=
  if key.number = 1 then
    Wire.inField "TestCaseMessage.time_stamp" do
      let (n, r) ← Wire.withForm .varint key Wire.readNumber bs
      return ({ m with timeStamp := UInt64.ofNat n }, r)
  else if key.number = 2 then
    Wire.inField "TestCaseMessage.input" do
      let (es, r) ←
        Wire.withForm .lengthDelimited key (Wire.readMessage Entry.readInputField m.entries) bs
      return ({ m with entries := es }, r)
  else if key.number = 3 then
    Wire.inField "TestCaseMessage.output" do
      let (s, r) ← Wire.withForm .lengthDelimited key Wire.readText bs
      return ({ m with output := s }, r)
  else if key.number = 4 then
    Wire.inField "TestCaseMessage.high_level_path_id" do
      let (n, r) ← Wire.withForm .varint key Wire.readNumber bs
      return ({ m with pathId := UInt64.ofNat n }, r)
  else Wire.readUnknown 100 m key bs

def decode (bs : Bytes) : Wire.Reading Message :=
  (Wire.readFields readField 0 blank bs).map Prod.fst

/-- The octets of a message. The input is there even if it has no entries. -/
def encode (m : Message) : Bytes :=
  Wire.numberField 1 m.timeStamp.toNat ++ Wire.delimited 2 (Entry.encodeAll m.entries) ++
    Wire.octetsField 3 (Utf8.encode m.output) ++ Wire.numberField 4 m.pathId.toNat

end Message

namespace TestCase

def ofMessage (m : Message) : Except Fault TestCase := do
  let assignment ← Assignment.decode (m.entries.map fun e => (e.name, e.octets))
  return ⟨m.timeStamp, assignment, m.output, m.pathId⟩

/-- The message of a test case. Every name says its kind. -/
def toMessage (c : TestCase) : Message where
  timeStamp := c.timeStamp
  entries := c.assignment.entries.map fun (base, value) =>
    ⟨VarName.encode base (some value.kind) none, value.encode⟩
  output := c.output
  pathId := c.pathId

def encodeRecord (c : TestCase) : Bytes :=
  c.toMessage.encode

def decodeRecord (bs : Bytes) : Except Fault TestCase :=
  match Message.decode bs with
  | .ok m => ofMessage m
  | .error e => .error (.decoding ("malformed test case record: " ++ e.message))

end TestCase

end Concolic
