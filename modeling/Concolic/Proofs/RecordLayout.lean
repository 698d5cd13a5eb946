import Concolic.Proofs.Layout
import Concolic.Record.Message
import Mathlib.Control.Monad.Basic

/-!
# Records in any layout

Which octets are the record of a message: the fields in any order, a field given again or given its default, the
entries spread over any number of inputs, the numbers in any spelling, and unknown fields anywhere. Exactly these
octets are decoded to the message, and what the message is encoded to is among them, so that a record means the
same in every layout.
-/

namespace Concolic

namespace Wire

/-- The octets are the contents of a field with none of the given numbers. `depth` is how many fields may stand
in one another. -/
structure Unknown (numbers : List Nat) (depth : Nat) (key : Key) (c : Bytes) : Prop where
  number_not_mem : key.number ∉ numbers
  contents : Contents depth key c

variable {α β σ : Type}

theorem readUnknown_append {depth : Nat} {key : Key} {c : Bytes} (h : Contents depth key c) (s : σ)
    (r : Bytes) : readUnknown depth s key (c ++ r) = .ok (s, r) := by
  simp only [readUnknown, h.skip_append]

theorem exists_of_readUnknown {depth : Nat} {key : Key} {s s' : σ} {bs r : Bytes}
    (h : readUnknown depth s key bs = .ok (s', r)) : ∃ c, bs = c ++ r ∧ Contents depth key c ∧ s' = s := by
  unfold readUnknown at h
  split at h
  · next r' hskip =>
    cases h
    obtain ⟨c, hc, hcontents⟩ := Contents.exists_of_skip hskip
    exact ⟨c, hc, hcontents, rfl⟩
  · cases h

theorem inField_withForm_eq_ok_iff {name : String} {form : Form} {key : Key}
    {read : Bytes → Reading (α × Bytes)} {gather : α × Bytes → Reading β} {bs : Bytes} {r : β} :
    inField name (withForm form key read bs >>= gather) = .ok r ↔
      key.form = form ∧ ∃ x, read bs = .ok x ∧ gather x = .ok r := by
  unfold withForm
  split
  · next hform =>
    cases hread : read bs with
    | error e => simp [inField, bind, Except.bind]
    | ok x => cases hgather : gather x <;> simp [inField, bind, Except.bind, hgather, hform]
  · next hform => simp [inField, failure, bind, Except.bind, hform]

end Wire

namespace Entry

open Wire

inductive Field
  | name (name : String)
  | octets (octets : Bytes)

namespace Field

def name? : Field → Option String
  | .name s => some s
  | .octets _ => none

def octets? : Field → Option Bytes
  | .name _ => none
  | .octets b => some b

/-- The octets `c` are the contents of the field under a key. -/
inductive Spelled : Field → Key → Bytes → Prop
  | name {name : String} {c : Bytes} (h : Delimited (Utf8.encode name) c) :
      Spelled (.name name) ⟨1, .lengthDelimited⟩ c
  | octets {octets c : Bytes} (h : Delimited octets c) : Spelled (.octets octets) ⟨2, .lengthDelimited⟩ c

end Field

def set (e : Entry) : Field → Entry
  | .name name => { e with name := name }
  | .octets octets => { e with octets := octets }

/-- The entry with fields replaced. The last of each kind counts. -/
def setAll (e : Entry) (fs : List Field) : Entry where
  name := (fs.filterMap Field.name?).getLastD e.name
  octets := (fs.filterMap Field.octets?).getLastD e.octets

theorem foldl_set (e : Entry) (fs : List Field) : fs.foldl set e = e.setAll fs := by
  induction fs generalizing e with
  | nil => rfl
  | cons f fs ih =>
    rw [List.foldl_cons, ih]
    cases f <;> simp only [set, setAll, Field.name?, Field.octets?, List.filterMap_cons, List.getLastD_cons]

theorem readsFields : ReadsFields readField Field.Spelled (Unknown [1, 2] 98) set where
  takes := by
    intro f key c h e r
    cases h with
    | name h => exact inField_withForm_eq_ok_iff.2 ⟨rfl, _, h.readText_append r, rfl⟩
    | octets h => exact inField_withForm_eq_ok_iff.2 ⟨rfl, _, h.readOctets_append r, rfl⟩
  passes := by
    intro key c h e r
    have hnumber := h.number_not_mem
    simp only [List.mem_cons, List.not_mem_nil, or_false, not_or] at hnumber
    simp only [readField, if_neg hnumber.1, if_neg hnumber.2, readUnknown_append h.contents]
  only := by
    rintro e e' ⟨number, form⟩ bs r h
    unfold readField at h
    split at h
    · next hnumber =>
      obtain ⟨hform, ⟨name, r'⟩, hread, hset⟩ := inField_withForm_eq_ok_iff.1 h
      cases hset
      obtain ⟨c, rfl, hc⟩ := Delimited.exists_of_readText hread
      obtain rfl : number = 1 := hnumber
      obtain rfl : form = .lengthDelimited := hform
      exact ⟨c, rfl, .inl ⟨.name name, .name hc, rfl⟩⟩
    · split at h
      · next hnumber =>
        obtain ⟨hform, ⟨octets, r'⟩, hread, hset⟩ := inField_withForm_eq_ok_iff.1 h
        cases hset
        obtain ⟨c, rfl, hc⟩ := Delimited.exists_of_readOctets hread
        obtain rfl : number = 2 := hnumber
        obtain rfl : form = .lengthDelimited := hform
        exact ⟨c, rfl, .inl ⟨.octets octets, .octets hc, rfl⟩⟩
      · next hname hoctets =>
        obtain ⟨c, rfl, hc, rfl⟩ := exists_of_readUnknown h
        exact ⟨c, rfl, .inr ⟨⟨by simp_all, hc⟩, rfl⟩⟩

def Spelled (e : Entry) (b : Bytes) : Prop :=
  ∃ fs, Layout Field.Spelled (Unknown [1, 2] 98) fs b ∧ e = blank.setAll fs

/-- The octets `c` are the contents of the field of an input that holds the entry. -/
inductive Enclosed : Entry → Key → Bytes → Prop
  | intro {e : Entry} {b c : Bytes} (he : e.Spelled b) (h : Delimited b c) :
      Enclosed e ⟨1, .lengthDelimited⟩ c

def SpelledAll : List Entry → Bytes → Prop :=
  Layout Enclosed (Unknown [1] 99)

theorem readsInputFields :
    ReadsFields readInputField Enclosed (Unknown [1] 99) (fun es e => es ++ [e]) where
  takes := by
    rintro e key c ⟨⟨fs, hlayout, rfl⟩, h⟩ es r
    have hread := readsFields.readMessage_append hlayout h blank r
    rw [foldl_set] at hread
    exact inField_withForm_eq_ok_iff.2 ⟨rfl, _, hread, rfl⟩
  passes := by
    intro key c h es r
    have hnumber := h.number_not_mem
    simp only [List.mem_singleton] at hnumber
    simp only [readInputField, if_neg hnumber, readUnknown_append h.contents]
  only := by
    rintro es es' ⟨number, form⟩ bs r h
    unfold readInputField at h
    split at h
    · next hnumber =>
      obtain ⟨hform, ⟨e, r'⟩, hread, hset⟩ := inField_withForm_eq_ok_iff.1 h
      cases hset
      obtain ⟨fs, b, c, rfl, hc, hlayout, rfl⟩ := readsFields.exists_of_readMessage hread
      obtain rfl : number = 1 := hnumber
      obtain rfl : form = .lengthDelimited := hform
      exact ⟨c, rfl, .inl ⟨_, ⟨⟨fs, hlayout, foldl_set blank fs⟩, hc⟩, rfl⟩⟩
    · next hnumber =>
      obtain ⟨c, rfl, hc, rfl⟩ := exists_of_readUnknown h
      exact ⟨c, rfl, .inr ⟨⟨by simpa using hnumber, hc⟩, rfl⟩⟩

/-- The fields of an entry as it is written: those that hold their default are left out. -/
def fields (e : Entry) : List Field :=
  (if Utf8.encode e.name = [] then [] else [.name e.name]) ++ if e.octets = [] then [] else [.octets e.octets]

theorem setAll_fields (e : Entry) : blank.setAll e.fields = e := by
  have hname : Utf8.encode e.name = [] → blank.set (.name e.name) = blank := by
    intro hnil
    rw [Utf8.encode_eq_nil_iff.1 hnil]
    rfl
  have hoctets : e.octets = [] → set ⟨e.name, []⟩ (.octets e.octets) = ⟨e.name, []⟩ := by
    intro hnil
    rw [hnil]
    rfl
  rw [← foldl_set, fields, List.foldl_append, foldl_ite_nil hname]
  exact foldl_ite_nil hoctets

theorem spelled_encode {e : Entry} (h : e.encode.length < 2 ^ 64) : e.Spelled e.encode := by
  have hname := length_le_length_octetsField 1 (Utf8.encode e.name)
  have hoctets := length_le_length_octetsField 2 e.octets
  simp only [encode, List.length_append] at h
  refine ⟨e.fields, Layout.append ?name ?octets, (setAll_fields e).symm⟩
  case name => exact Layout.octetsField (by decide) (by decide) (.name (.encode (by omega)))
  case octets => exact Layout.octetsField (by decide) (by decide) (.octets (.encode (by omega)))

theorem spelledAll_encodeAll {es : List Entry} (h : (encodeAll es).length < 2 ^ 64) :
    SpelledAll es (encodeAll es) := by
  induction es with
  | nil => exact .nil
  | cons e es ih =>
    have he := length_le_length_delimited 1 e.encode
    simp only [encodeAll, List.flatMap_cons, List.length_append] at h
    have hfirst := Enclosed.intro (spelled_encode (e := e) (by omega)) (.encode (by omega))
    exact (Layout.delimited (by decide) (by decide) hfirst).append (ih (by simp only [encodeAll]; omega))

theorem foldl_append_singleton (es fs : List Entry) : fs.foldl (fun es e => es ++ [e]) es = es ++ fs := by
  rw [List.foldl_append_eq_append, ← List.flatMap_def, List.flatMap_singleton']

end Entry

namespace Message

open Wire

inductive Field
  | timeStamp (n : UInt64)
  | entries (es : List Entry)
  | output (output : String)
  | pathId (n : UInt64)

namespace Field

def timeStamp? : Field → Option UInt64
  | .timeStamp n => some n
  | _ => none

def inputEntries : Field → List Entry
  | .entries es => es
  | _ => []

def output? : Field → Option String
  | .output s => some s
  | _ => none

def pathId? : Field → Option UInt64
  | .pathId n => some n
  | _ => none

inductive Spelled : Field → Key → Bytes → Prop
  | timeStamp {n : UInt64} {c : Bytes} (h : SpellsNumber n.toNat c) : Spelled (.timeStamp n) ⟨1, .varint⟩ c
  | entries {es : List Entry} {b c : Bytes} (hes : Entry.SpelledAll es b) (h : Delimited b c) :
      Spelled (.entries es) ⟨2, .lengthDelimited⟩ c
  | output {output : String} {c : Bytes} (h : Delimited (Utf8.encode output) c) :
      Spelled (.output output) ⟨3, .lengthDelimited⟩ c
  | pathId {n : UInt64} {c : Bytes} (h : SpellsNumber n.toNat c) : Spelled (.pathId n) ⟨4, .varint⟩ c

end Field

def set (m : Message) : Field → Message
  | .timeStamp n => { m with timeStamp := n }
  | .entries es => { m with entries := m.entries ++ es }
  | .output output => { m with output := output }
  | .pathId n => { m with pathId := n }

/-- The message with fields added. The last time stamp, output and path identifier count, and the entries of all
inputs are joined. -/
def setAll (m : Message) (fs : List Field) : Message where
  timeStamp := (fs.filterMap Field.timeStamp?).getLastD m.timeStamp
  entries := m.entries ++ fs.flatMap Field.inputEntries
  output := (fs.filterMap Field.output?).getLastD m.output
  pathId := (fs.filterMap Field.pathId?).getLastD m.pathId

theorem foldl_set (m : Message) (fs : List Field) : fs.foldl set m = m.setAll fs := by
  induction fs generalizing m with
  | nil => simp [setAll]
  | cons f fs ih =>
    rw [List.foldl_cons, ih]
    cases f <;> simp only [set, setAll, Field.timeStamp?, Field.inputEntries, Field.output?, Field.pathId?,
      List.filterMap_cons, List.getLastD_cons, List.flatMap_cons, List.append_assoc, List.nil_append]

theorem readsFields : ReadsFields readField Field.Spelled (Unknown [1, 2, 3, 4] 100) set where
  takes := by
    intro f key c h m r
    cases h with
    | timeStamp h =>
      simp [readField, withForm, h.readNumber_append, inField, bind, Except.bind, pure, Except.pure, set]
    | entries hes h =>
      have hread := Entry.readsInputFields.readMessage_append hes h m.entries r
      rw [Entry.foldl_append_singleton] at hread
      exact inField_withForm_eq_ok_iff.2 ⟨rfl, _, hread, rfl⟩
    | output h => exact inField_withForm_eq_ok_iff.2 ⟨rfl, _, h.readText_append r, rfl⟩
    | pathId h =>
      simp [readField, withForm, h.readNumber_append, inField, bind, Except.bind, pure, Except.pure, set]
  passes := by
    intro key c h m r
    have hnumber := h.number_not_mem
    simp only [List.mem_cons, List.not_mem_nil, or_false, not_or] at hnumber
    obtain ⟨h₁, h₂, h₃, h₄⟩ := hnumber
    simp only [readField, if_neg h₁, if_neg h₂, if_neg h₃, if_neg h₄, readUnknown_append h.contents]
  only := by
    rintro m m' ⟨number, form⟩ bs r h
    simp only [readField] at h
    split at h
    · next hnumber =>
      obtain ⟨rfl, ⟨n, r'⟩, hread, hset⟩ := inField_withForm_eq_ok_iff.1 h
      cases hset
      obtain ⟨c, rfl, hc⟩ := SpellsNumber.exists_of_readNumber hread
      have hn : (UInt64.ofNat n).toNat = n := UInt64.toNat_ofNat_of_lt hc.lt
      exact ⟨c, rfl, .inl ⟨.timeStamp (.ofNat n), hnumber ▸ .timeStamp (hn.symm ▸ hc), rfl⟩⟩
    · split at h
      · next hnumber =>
        obtain ⟨rfl, ⟨es, r'⟩, hread, hset⟩ := inField_withForm_eq_ok_iff.1 h
        cases hset
        obtain ⟨es, b, c, rfl, hc, hlayout, rfl⟩ := Entry.readsInputFields.exists_of_readMessage hread
        rw [Entry.foldl_append_singleton]
        exact ⟨c, rfl, .inl ⟨.entries es, hnumber ▸ .entries hlayout hc, rfl⟩⟩
      · split at h
        · next hnumber =>
          obtain ⟨rfl, ⟨output, r'⟩, hread, hset⟩ := inField_withForm_eq_ok_iff.1 h
          cases hset
          obtain ⟨c, rfl, hc⟩ := Delimited.exists_of_readText hread
          exact ⟨c, rfl, .inl ⟨.output output, hnumber ▸ .output hc, rfl⟩⟩
        · split at h
          · next hnumber =>
            obtain ⟨rfl, ⟨n, r'⟩, hread, hset⟩ := inField_withForm_eq_ok_iff.1 h
            cases hset
            obtain ⟨c, rfl, hc⟩ := SpellsNumber.exists_of_readNumber hread
            have hn : (UInt64.ofNat n).toNat = n := UInt64.toNat_ofNat_of_lt hc.lt
            exact ⟨c, rfl, .inl ⟨.pathId (.ofNat n), hnumber ▸ .pathId (hn.symm ▸ hc), rfl⟩⟩
          · next h₁ h₂ h₃ h₄ =>
            obtain ⟨c, rfl, hc, rfl⟩ := exists_of_readUnknown h
            exact ⟨c, rfl, .inr ⟨⟨by simp_all, hc⟩, rfl⟩⟩

/-- The octets are the given fields of a record, with unknown fields anywhere among them. -/
def LaidOut : List Field → Bytes → Prop :=
  Layout Field.Spelled (Unknown [1, 2, 3, 4] 100)

def Spelled (m : Message) (b : Bytes) : Prop :=
  ∃ fs, LaidOut fs b ∧ m = blank.setAll fs

/-- The fields of a record as it is written: those that hold their default are left out, but for the input. -/
def fields (m : Message) : List Field :=
  (if m.timeStamp.toNat = 0 then [] else [.timeStamp m.timeStamp]) ++ [.entries m.entries] ++
    (if Utf8.encode m.output = [] then [] else [.output m.output]) ++
    if m.pathId.toNat = 0 then [] else [.pathId m.pathId]

theorem setAll_fields (m : Message) : blank.setAll m.fields = m := by
  have htime : m.timeStamp.toNat = 0 → blank.set (.timeStamp m.timeStamp) = blank := by
    intro hzero
    rw [UInt64.toNat.inj (b := 0) hzero]
    rfl
  have houtput : Utf8.encode m.output = [] →
      set ⟨m.timeStamp, m.entries, "", 0⟩ (.output m.output) = ⟨m.timeStamp, m.entries, "", 0⟩ := by
    intro hnil
    rw [Utf8.encode_eq_nil_iff.1 hnil]
    rfl
  have hpath : m.pathId.toNat = 0 →
      set ⟨m.timeStamp, m.entries, m.output, 0⟩ (.pathId m.pathId) =
        ⟨m.timeStamp, m.entries, m.output, 0⟩ := by
    intro hzero
    rw [UInt64.toNat.inj (b := 0) hzero]
    rfl
  have hinput : [Field.entries m.entries].foldl set (blank.set (.timeStamp m.timeStamp)) =
      ⟨m.timeStamp, m.entries, "", 0⟩ := rfl
  rw [← foldl_set, fields, List.foldl_append, List.foldl_append, List.foldl_append, foldl_ite_nil htime,
    hinput, foldl_ite_nil houtput]
  exact foldl_ite_nil hpath

theorem spelled_encode {m : Message} (h : m.encode.length < 2 ^ 64) : m.Spelled m.encode := by
  have hentries := length_le_length_delimited 2 (Entry.encodeAll m.entries)
  have houtput := length_le_length_octetsField 3 (Utf8.encode m.output)
  simp only [encode, List.length_append] at h
  have hinput : Entry.SpelledAll m.entries (Entry.encodeAll m.entries) :=
    Entry.spelledAll_encodeAll (by omega)
  refine ⟨m.fields, ((Layout.append ?time ?input).append ?output).append ?path, (setAll_fields m).symm⟩
  case time => exact Layout.numberField (by decide) (by decide) (.timeStamp (.encodeVarint m.timeStamp.toNat_lt))
  case input => exact Layout.delimited (by decide) (by decide) (.entries hinput (.encode (by omega)))
  case output => exact Layout.octetsField (by decide) (by decide) (.output (.encode (by omega)))
  case path => exact Layout.numberField (by decide) (by decide) (.pathId (.encodeVarint m.pathId.toNat_lt))

/-- Exactly the layouts of a message are decoded to it. -/
theorem decode_eq_ok_iff {m : Message} {b : Bytes} : decode b = .ok m ↔ m.Spelled b := by
  constructor
  · intro h
    unfold decode at h
    cases hread : Wire.readFields readField 0 blank b with
    | error e =>
      rw [hread] at h
      cases h
    | ok found =>
      rw [hread] at h
      cases h
      obtain ⟨m, r⟩ := found
      obtain ⟨fs, b, rfl, hlayout, rfl, hle⟩ := readsFields.exists_of_readFields hread
      obtain rfl : r = [] := List.length_eq_zero_iff.1 (Nat.le_zero.1 hle)
      exact ⟨fs, by rwa [List.append_nil], foldl_set blank fs⟩
  · rintro ⟨fs, hlayout, rfl⟩
    have hread := (readsFields.advances hlayout blank).readFields_eq []
    rw [List.append_nil, List.length_nil, foldl_set] at hread
    rw [decode, hread]
    rfl

theorem decode_encode {m : Message} (h : m.encode.length < 2 ^ 64) : decode m.encode = .ok m :=
  decode_eq_ok_iff.2 (spelled_encode h)

end Message

namespace TestCase

open Message

/-- A record in any layout is decoded by decoding its entries as they were written, and to the same as the record
that the message is encoded to. -/
theorem decodeRecord_of_spelled {m : Message} {b : Bytes} (h : m.Spelled b) :
    decodeRecord b = ofMessage m ∧
      (m.encode.length < 2 ^ 64 → decodeRecord b = decodeRecord m.encode) := by
  have hrecord : decodeRecord b = ofMessage m := by
    rw [decodeRecord, decode_eq_ok_iff.2 h]
  refine ⟨hrecord, fun hlength => ?_⟩
  rw [hrecord, decodeRecord, decode_encode hlength]

def twoEntries : Message :=
  ⟨0, [⟨"n", [0x61]⟩, ⟨"m", []⟩], "ok", 7⟩

/-- A record of it in disorder: a group in a group; the path identifier, its key and its number too long; an
output that does not count; an input with an entry in which the octets come first, and with unknown fields; the
time stamp, which is the default; the output; and an input with an entry whose name comes twice. -/
def disordered : Bytes :=
  [0x2B, 0x08, 0x01, 0x33, 0x15, 0, 0, 0, 0, 0x34, 0x2C] ++
  [0xA0, 0x80, 0x00, 0x87, 0x80, 0x00] ++
  [0x1A, 0x01, 0x78] ++
  [0x12, 0x97, 0x00, 0x0A, 0x8F, 0x80, 0x00, 0x12, 0x01, 0x61, 0x19, 0, 0, 0, 0, 0, 0, 0, 0,
    0x0A, 0x01, 0x6E, 0x12, 0x02, 0xFF, 0xFF] ++
  [0x08, 0x00] ++
  [0x1A, 0x02, 0x6F, 0x6B] ++
  [0x12, 0x09, 0x0A, 0x07, 0x0A, 0x00, 0x0A, 0x01, 0x6D, 0x12, 0x00]

theorem decodeRecord_of_spelled_disordered :
    twoEntries.Spelled disordered ∧ decodeRecord disordered = ofMessage twoEntries ∧
      decodeRecord disordered = decodeRecord twoEntries.encode := by
  have h : twoEntries.Spelled disordered := decode_eq_ok_iff.1 (by decide +kernel)
  obtain ⟨hmessage, hencoded⟩ := decodeRecord_of_spelled h
  exact ⟨h, hmessage, hencoded (by decide +kernel)⟩

end TestCase

end Concolic
