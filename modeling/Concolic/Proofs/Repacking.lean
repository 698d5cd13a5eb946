import Concolic.Proofs.CaseStream

/-!
# Repacking a stream

The test cases that are read from any stream can be written to a file and are read back from it as they were.
However the octets of a record came to be accepted, no name in what they decode to has a point, and a name
without one survives writing.
-/

namespace Concolic

namespace TestCase

theorem not_mem_name_of_decodeRecord {b : Bytes} {c : TestCase} (h : decodeRecord b = .ok c) :
    ∀ e ∈ c.assignment.entries, '.' ∉ e.1.toList := by
  unfold decodeRecord at h
  split at h
  · next m _ =>
    rw [ofMessage_eq_map] at h
    cases hdecoded : Assignment.decode (m.entries.map fun e => (e.name, e.octets)) with
    | error f => simp [hdecoded, Except.map] at h
    | ok a =>
      simp only [hdecoded, Except.map, Except.ok.injEq] at h
      subst h
      exact Assignment.not_mem_name_of_decode hdecoded
  · cases h

theorem decodeRecord_encodeRecord_of_decodeRecord {b : Bytes} {c : TestCase} (h : decodeRecord b = .ok c)
    (hlength : c.encodeRecord.length < 2 ^ 32) : decodeRecord c.encodeRecord = .ok c :=
  (decodeRecord_eq_ok_iff (by omega)).2 (not_mem_name_of_decodeRecord h)

end TestCase

namespace CaseReader

def decoded (feed : Feed) : List TestCase :=
  (items feed).1.filterMap Except.toOption

theorem decoded_of_delivers {feed : Feed} {b : Bytes} {e : Option String} (h : Delivers feed b e) :
    decoded feed = (Frame.payloads b).filterMap fun p => (TestCase.decodeRecord p).toOption := by
  have herror : (e.toList.map fun reason => (.error (.io reason) : Except Fault TestCase)).filterMap
      Except.toOption = [] := by
    cases e <;> rfl
  rw [decoded, items_of_delivers h, itemsOf, List.filterMap_append, herror, List.append_nil,
    List.filterMap_map]
  rfl

theorem exists_record_of_mem_decoded {feed : Feed} {c : TestCase} (h : c ∈ decoded feed) :
    ∃ b, TestCase.decodeRecord b = .ok c := by
  obtain ⟨b, e, hfeed⟩ := feed.exists_delivers
  rw [decoded_of_delivers hfeed] at h
  obtain ⟨p, -, hp⟩ := List.mem_filterMap.1 h
  refine ⟨p, ?_⟩
  cases hrecord : TestCase.decodeRecord p with
  | error f =>
    rw [hrecord] at hp
    cases hp
  | ok d =>
    rw [hrecord] at hp
    exact congrArg Except.ok (Option.some.inj hp)

end CaseReader

namespace CaseWriter

/-- What is read from any source can be packed again. No name of a decoded record has a point, whatever the
record looked like; and if their own records are short enough for a frame, the test cases that are read are
written without an error, and the file gives back exactly these, in order, however it is delivered. -/
theorem read_back_repacked (feed : Feed) :
    (∀ b c, TestCase.decodeRecord b = .ok c → ∀ e ∈ c.assignment.entries, '.' ∉ e.1.toList) ∧
      ((∀ c ∈ CaseReader.decoded feed, c.encodeRecord.length < 2 ^ 32) →
        ∃ file,
          (∀ outcome ∈ ((start .unlimited).writeAll (CaseReader.decoded feed)).1, outcome = .ok ()) ∧
          ((start .unlimited).writeAll (CaseReader.decoded feed)).2.finish = .ok file ∧
          ∀ again, Delivers again file none →
            (CaseReader.items again).1 = (CaseReader.decoded feed).map .ok) := by
  refine ⟨fun b c => TestCase.not_mem_name_of_decodeRecord, fun hlength => ?_⟩
  have hwritten := writeAll_holding hlength [] 0
  have hstart : start .unlimited = ⟨.holding [], 0⟩ := rfl
  rw [hstart, hwritten]
  refine ⟨TestCase.file (CaseReader.decoded feed), fun outcome ho => List.eq_of_mem_replicate ho, rfl,
    fun again hagain => ?_⟩
  have hitems := TestCase.itemsOf_file_append hlength [] none
  rw [List.append_nil] at hitems
  have hend : CaseReader.itemsOf [] none = [] := CaseReader.itemsOf_of_none rfl
  rw [CaseReader.items_of_delivers hagain, hitems, hend, List.append_nil]
  apply List.map_congr_left
  intro c hc
  obtain ⟨b, hb⟩ := CaseReader.exists_record_of_mem_decoded hc
  exact TestCase.decodeRecord_encodeRecord_of_decodeRecord hb (hlength c hc)

/-- A record with numbers longer than they need be, fields that come twice, a field that is not known, a hint,
and a name that comes twice with values of two kinds. -/
def wildRecord : Bytes :=
  [0x08, 0x87, 0x00, 0x78, 0x01, 0x12, 0x0F, 0x0A, 0x0D, 0x0A, 0x05, 0x6E, 0x2E, 0x69, 0x23, 0x68, 0x12, 0x04,
    5, 0, 0, 0, 0x12, 0x15, 0x0A, 0x0B, 0x0A, 0x03, 0x6D, 0x2E, 0x69, 0x12, 0x04, 0xFF, 0xFF, 0xFF, 0xFF,
    0x0A, 0x06, 0x0A, 0x01, 0x6E, 0x12, 0x01, 0x78, 0x08, 0x03]

def wildStream : Bytes :=
  Frame.encode wildRecord ++ Frame.encode [0xFF] ++ Frame.encode [] ++ [9, 0]

theorem read_back_repacked_wildStream :
    let found : List TestCase :=
      [⟨3, .ofList [("n", .bytes [0x78]), ("m", .int (-1))], "", 0⟩, ⟨0, .empty, "", 0⟩]
    (∀ c ∈ CaseReader.decoded (.ofBytes wildStream), c.encodeRecord.length < 2 ^ 32) ∧
      ∃ file, ((start .unlimited).writeAll found).2.finish = .ok file ∧
        (CaseReader.items (.ofBytes file)).1 = found.map .ok := by
  intro found
  have hpayloads : Frame.payloads wildStream = [wildRecord, [0xFF], []] := by decide +kernel
  have hfound : CaseReader.decoded (.ofBytes wildStream) = found := by
    rw [CaseReader.decoded_of_delivers (Feed.delivers_ofBytes _), hpayloads]
    decide +kernel
  have hlength : ∀ c ∈ CaseReader.decoded (.ofBytes wildStream), c.encodeRecord.length < 2 ^ 32 := by
    rw [hfound]
    decide +kernel
  obtain ⟨file, -, hfinish, hitems⟩ := (read_back_repacked (.ofBytes wildStream)).2 hlength
  rw [hfound] at hfinish hitems
  exact ⟨hlength, file, hfinish, hitems _ (Feed.delivers_ofBytes file)⟩

end CaseWriter

end Concolic
