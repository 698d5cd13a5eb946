import Concolic.Proofs.Naming
import Concolic.Proofs.RecordLayout
import Mathlib.Algebra.Group.Nat.Defs

/-!
# Records read back

A record is decoded to the message that it was written from. The message says its names with their kinds, so
that the test case comes back exactly if no name has a point in it: a point would end the base early.
-/

namespace Concolic

namespace Assignment

/-- The entries of an assignment as a record holds them: each name with its kind, each value as octets. -/
def written (a : Assignment) : List (String × Bytes) :=
  a.entries.map fun e => (VarName.encode e.1 (some e.2.kind) none, e.2.encode)

theorem mapM_decodeEntry_written {l : List (String × Value)} (h : ∀ e ∈ l, '.' ∉ e.1.toList) :
    ((l.map fun e => (VarName.encode e.1 (some e.2.kind) none, e.2.encode)).mapM fun e =>
      VarName.decodeEntry e.1 e.2) = .ok l := by
  induction l with
  | nil => rfl
  | cons e l ih =>
    have hfirst := VarName.decodeEntry_encode (h e (by simp)) e.2 none
    have hrest := ih fun e' he' => h e' (List.mem_cons_of_mem _ he')
    simp only [List.map_cons, List.mapM_cons, hfirst, hrest]
    rfl

/-- Written entries are decoded to the assignment that they are from, with the entries in order, exactly
if no name has a point. -/
theorem decode_written_iff (a : Assignment) :
    decode a.written = .ok a ↔ ∀ e ∈ a.entries, '.' ∉ e.1.toList := by
  refine ⟨not_mem_name_of_decode, fun h => ?_⟩
  rw [decode_eq_map, written, mapM_decodeEntry_written h]
  exact congrArg Except.ok (ofList_entries a)

end Assignment

namespace TestCase

theorem ofMessage_eq_map (m : Message) :
    ofMessage m = (Assignment.decode (m.entries.map fun e => (e.name, e.octets))).map fun a =>
      ⟨m.timeStamp, a, m.output, m.pathId⟩ := by
  unfold ofMessage
  cases Assignment.decode (m.entries.map fun e => (e.name, e.octets)) <;> rfl

theorem decodeRecord_eq_map {c : TestCase} (h : c.encodeRecord.length < 2 ^ 64) :
    decodeRecord c.encodeRecord =
      (Assignment.decode c.assignment.written).map fun a => { c with assignment := a } := by
  have hmessage : Message.decode c.encodeRecord = .ok c.toMessage := Message.decode_encode h
  have hentries : (c.toMessage.entries.map fun e => (e.name, e.octets)) = c.assignment.written := by
    simp [toMessage, Assignment.written]
  simp only [decodeRecord, hmessage, ofMessage_eq_map, hentries]
  rfl

theorem decodeRecord_eq_ok_iff {c : TestCase} (h : c.encodeRecord.length < 2 ^ 64) :
    decodeRecord c.encodeRecord = .ok c ↔ ∀ e ∈ c.assignment.entries, '.' ∉ e.1.toList := by
  rw [decodeRecord_eq_map h, ← Assignment.decode_written_iff]
  cases hdecoded : Assignment.decode c.assignment.written with
  | error f => simp [Except.map]
  | ok a =>
    simp only [Except.map, Except.ok.injEq]
    constructor
    · intro heq
      exact congrArg TestCase.assignment heq
    · rintro rfl
      rfl

theorem eq_decoding_of_decodeRecord {b : Bytes} {f : Fault} (h : decodeRecord b = .error f) :
    ∃ reason, f = .decoding reason := by
  unfold decodeRecord at h
  split at h
  · next m _ =>
    rw [ofMessage_eq_map] at h
    cases hdecoded : Assignment.decode (m.entries.map fun e => (e.name, e.octets)) with
    | error f' =>
      simp only [hdecoded, Except.map, Except.error.injEq] at h
      exact h ▸ Assignment.eq_decoding_of_decode hdecoded
    | ok a => simp [hdecoded, Except.map] at h
  · cases h
    exact ⟨_, rfl⟩

/-- A field as it lies in a record: the octet of its key, the number of the octets in it, and these. -/
def fieldLayout (key : UInt8) (contents : Bytes) : Bytes :=
  key :: (Wire.encodeVarint contents.length ++ contents)

/-- An entry as it lies in a record. Its name is never empty; a value without octets is left out. -/
def entryLayout (base : String) (v : Value) : Bytes :=
  fieldLayout 0x0A (Utf8.encode (base ++ "." ++ String.ofList [v.kind.letter])) ++
    if v.encode = [] then [] else fieldLayout 0x12 v.encode

/-- A record octet by octet: the fields in the order of their numbers, without those that hold their default,
and always with an input. -/
def layout (c : TestCase) : Bytes :=
  (if c.timeStamp = 0 then [] else 0x08 :: Wire.encodeVarint c.timeStamp.toNat) ++
    fieldLayout 0x12
      (c.assignment.entries.flatMap fun e => fieldLayout 0x0A (entryLayout e.1 e.2)) ++
    (if c.output = "" then [] else fieldLayout 0x1A (Utf8.encode c.output)) ++
    if c.pathId = 0 then [] else 0x20 :: Wire.encodeVarint c.pathId.toNat

theorem encode_key_of_lt {key : Wire.Key} (h : key.number < 16) :
    key.encode = [UInt8.ofNat (key.number * 8 + key.form.code)] := by
  have hcode : key.form.code ≤ 5 := by cases key.form <;> decide
  rw [Wire.Key.encode, Wire.encodeVarint, if_pos (by omega)]

theorem delimited_eq_fieldLayout {number : Nat} (h : number < 16) (contents : Bytes) :
    Wire.delimited number contents = fieldLayout (UInt8.ofNat (number * 8 + 2)) contents := by
  rw [Wire.delimited, encode_key_of_lt h]
  rfl

theorem octetsField_eq_ite {number : Nat} (h : number < 16) (contents : Bytes) :
    Wire.octetsField number contents =
      if contents = [] then [] else fieldLayout (UInt8.ofNat (number * 8 + 2)) contents := by
  rw [← delimited_eq_fieldLayout h]
  cases contents <;> rfl

theorem numberField_eq_ite {number : Nat} (h : number < 16) (n : UInt64) :
    Wire.numberField number n.toNat =
      if n = 0 then [] else UInt8.ofNat (number * 8) :: Wire.encodeVarint n.toNat := by
  have hzero : n.toNat = 0 ↔ n = 0 := ⟨fun hn => UInt64.toNat.inj hn, fun hn => hn ▸ rfl⟩
  rw [Wire.numberField, encode_key_of_lt h]
  simp only [hzero]
  rfl

theorem encode_entry_eq_entryLayout (base : String) (v : Value) :
    (Entry.mk (VarName.encode base (some v.kind) none) v.encode).encode = entryLayout base v := by
  have hname : VarName.encode base (some v.kind) none =
      base ++ "." ++ String.ofList [v.kind.letter] := rfl
  have hne : Utf8.encode (base ++ "." ++ String.ofList [v.kind.letter]) ≠ [] := by
    rw [Ne, Utf8.encode_eq_nil_iff]
    simp
  rw [Entry.encode, octetsField_eq_ite (by decide), octetsField_eq_ite (by decide), hname, if_neg hne]
  rfl

theorem encodeRecord_eq_layout (c : TestCase) : c.encodeRecord = c.layout := by
  have hinput : Entry.encodeAll c.toMessage.entries =
      c.assignment.entries.flatMap fun e => fieldLayout 0x0A (entryLayout e.1 e.2) := by
    simp only [Entry.encodeAll, toMessage, List.flatMap_map, encode_entry_eq_entryLayout,
      delimited_eq_fieldLayout (by decide : 1 < 16)]
    rfl
  simp only [encodeRecord, Message.encode, hinput, numberField_eq_ite (by decide : 1 < 16),
    numberField_eq_ite (by decide : 4 < 16), delimited_eq_fieldLayout (by decide : 2 < 16),
    octetsField_eq_ite (by decide : 3 < 16), Utf8.encode_eq_nil_iff]
  rfl

/-- A record is laid out as the format says, and it is read back as the test case that it is of, entry by
entry in order, exactly if no name of the test case has a point in it. -/
theorem record_round_trip_iff {c : TestCase} (h : c.encodeRecord.length < 2 ^ 32) :
    c.encodeRecord = c.layout ∧
      (decodeRecord c.encodeRecord = .ok c ↔ ∀ e ∈ c.assignment.entries, '.' ∉ e.1.toList) :=
  ⟨encodeRecord_eq_layout c, decodeRecord_eq_ok_iff (by omega)⟩

/-- A test case with the greatest numbers and with names that are empty or have a number sign. -/
def edgeCase : TestCase :=
  ⟨0xFFFFFFFFFFFFFFFF, .ofList [("", .int (-1)), ("a#b", .bytes []), ("c", .bytes [0xFF])], "é",
    0xFFFFFFFFFFFFFFFF⟩

theorem record_round_trip_edgeCase :
    edgeCase.encodeRecord.length < 2 ^ 32 ∧ edgeCase.encodeRecord = edgeCase.layout ∧
      (decodeRecord edgeCase.encodeRecord = .ok edgeCase ↔
        ∀ e ∈ edgeCase.assignment.entries, '.' ∉ e.1.toList) :=
  ⟨by decide +kernel, record_round_trip_iff (by decide +kernel)⟩

end TestCase

end Concolic
