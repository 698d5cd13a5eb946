import Concolic.Proofs.CaseStream

/-!
# What a torn file keeps

A sink may take any part of what it is offered, be interrupted, take nothing or fail. A write that fails leaves
a proper beginning of its frame at the end of the file, where a reader takes it for the end. So the first failure
costs no record that was acknowledged and adds none, and what is written after it comes after these records.
-/

namespace Concolic

namespace Sink

/-- Either all octets are taken, or the sink fails after some of them but not all. -/
theorem offer_cases (afterwards : Afterwards) (answers : List Acceptance) (b : Bytes) :
    ((offer afterwards answers b).1 = .ok () ∧ (offer afterwards answers b).2.1 = b) ∨
      ∃ reason n, (offer afterwards answers b).1 = .error reason ∧ n < b.length ∧
        (offer afterwards answers b).2.1 = b.take n := by
  fun_induction offer afterwards answers b with
  | case1 answers => exact .inl ⟨rfl, rfl⟩
  | case2 b hb => exact .inl ⟨rfl, rfl⟩
  | case3 b hb => exact .inr ⟨_, 0, rfl, List.length_pos_iff.2 hb, rfl⟩
  | case4 b hb reason => exact .inr ⟨_, 0, rfl, List.length_pos_iff.2 hb, rfl⟩
  | case5 answers b hb ih => exact ih
  | case6 reason answers b hb => exact .inr ⟨_, 0, rfl, List.length_pos_iff.2 hb, rfl⟩
  | case7 answers b hb => exact .inr ⟨_, 0, rfl, List.length_pos_iff.2 hb, rfl⟩
  | case8 count answers b hb hcount hlt => exact .inl ⟨rfl, rfl⟩
  | case9 count answers b hb hcount hle outcome more rest hrec ih =>
    simp only [hrec] at ih
    rcases ih with ⟨hok, hmore⟩ | ⟨reason, n, herror, hn, hmore⟩
    · exact .inl ⟨hok, by simp only [hmore, List.take_append_drop]⟩
    · rw [List.length_drop] at hn
      exact .inr ⟨reason, count + n, herror, by omega, by simp only [hmore, List.take_add]⟩

theorem write_cases (s : Sink) (b : Bytes) :
    (∃ s', s.write b = (.ok (), s') ∧ s'.taken = s.taken ++ b) ∨
      ∃ reason s' n, s.write b = (.error reason, s') ∧ n < b.length ∧
        s'.taken = s.taken ++ b.take n := by
  rcases offer_cases s.afterwards s.answers b with ⟨hok, htaken⟩ | ⟨reason, n, herror, hn, htaken⟩
  · refine .inl ⟨(s.write b).2, Prod.ext hok rfl, ?_⟩
    simp only [write, htaken]
  · refine .inr ⟨reason, (s.write b).2, n, Prod.ext herror rfl, hn, ?_⟩
    simp only [write, htaken]

theorem writeFrame_cases (s : Sink) (payload : Bytes) :
    (2 ^ 32 ≤ payload.length ∧
        s.writeFrame payload = (.error (.decoding "record payload exceeds u32 length"), s)) ∨
      payload.length < 2 ^ 32 ∧
        ((∃ s', s.writeFrame payload = (.ok (), s') ∧ s'.taken = s.taken ++ Frame.encode payload) ∨
          ∃ reason s' n, s.writeFrame payload = (.error (.io reason), s') ∧
            n < (Frame.encode payload).length ∧ s'.taken = s.taken ++ (Frame.encode payload).take n) := by
  by_cases hlong : UInt32.size ≤ payload.length
  · exact .inl ⟨hlong, by rw [writeFrame, if_pos hlong]⟩
  · refine .inr ⟨Nat.lt_of_not_le hlong, ?_⟩
    rw [writeFrame, if_neg hlong, Frame.length_encode, Frame.encode]
    obtain ⟨s₁, hfirst, htaken₁⟩ | ⟨reason, s₁, n, hfirst, hn, htaken₁⟩ :=
      s.write_cases (Word32.octets (UInt32.ofNat payload.length))
    · obtain ⟨s₂, hsecond, htaken₂⟩ | ⟨reason, s₂, n, hsecond, hn, htaken₂⟩ := s₁.write_cases payload
      · refine .inl ⟨s₂, by rw [hfirst]; simp only [hsecond], ?_⟩
        rw [htaken₂, htaken₁, List.append_assoc]
      · -- The length is whole and the payload is not.
        have htake (w : UInt32) : (Word32.octets w ++ payload).take (4 + n) =
            Word32.octets w ++ payload.take n := by
          rw [← Word32.length_octets w, List.take_length_add_append]
        refine .inr ⟨reason, s₂, 4 + n, by rw [hfirst]; simp only [hsecond], by omega, ?_⟩
        rw [htaken₂, htaken₁, List.append_assoc, htake]
    · rw [Word32.length_octets] at hn
      refine .inr ⟨reason, s₁, n, by rw [hfirst], by omega, ?_⟩
      rw [htaken₁, List.take_append_of_le_length (by rw [Word32.length_octets]; omega)]

end Sink

namespace CaseWriter

def sinkFailed : Except Fault Unit → Bool
  | .error (.io _) => true
  | _ => false

/-- The test cases whose writes do not fail. -/
def acknowledged (w : CaseWriter) : List TestCase → List TestCase
  | [] => []
  | c :: cs =>
    match w.write c with
    | (.ok (), w) => c :: w.acknowledged cs
    | (.error _, w) => w.acknowledged cs

/-- A test case is refused and nothing changes, or its record is in the sink whole and counts, or the record is
torn and does not count. -/
theorem write_cases (w : CaseWriter) (c : TestCase) :
    (2 ^ 32 ≤ c.encodeRecord.length ∧
        w.write c = (.error (.decoding "record payload exceeds u32 length"), w)) ∨
      c.encodeRecord.length < 2 ^ 32 ∧
        ((∃ sink, w.write c = (.ok (), ⟨sink, w.written + 1⟩) ∧
            sink.taken = w.sink.taken ++ Frame.encode c.encodeRecord) ∨
          ∃ reason sink n, w.write c = (.error (.io reason), ⟨sink, w.written⟩) ∧
            n < (Frame.encode c.encodeRecord).length ∧
            sink.taken = w.sink.taken ++ (Frame.encode c.encodeRecord).take n) := by
  rcases w.sink.writeFrame_cases c.encodeRecord with ⟨hlong, hframe⟩ | ⟨hfits, hframe⟩
  · exact .inl ⟨hlong, by rw [write, hframe]⟩
  · refine .inr ⟨hfits, ?_⟩
    obtain ⟨sink, hframe, htaken⟩ | ⟨reason, sink, n, hframe, hn, htaken⟩ := hframe
    · exact .inl ⟨sink, by rw [write, hframe], htaken⟩
    · exact .inr ⟨reason, sink, n, by rw [write, hframe], hn, htaken⟩

theorem write_of_sinkFailed {w : CaseWriter} {c : TestCase} (h : sinkFailed (w.write c).1 = true) :
    c.encodeRecord.length < 2 ^ 32 ∧ (w.write c).2.written = w.written ∧
      ∃ n, n < (Frame.encode c.encodeRecord).length ∧
        (w.write c).2.sink.taken = w.sink.taken ++ (Frame.encode c.encodeRecord).take n := by
  rcases w.write_cases c with ⟨-, hwrite⟩ | ⟨hfits, ⟨sink, hwrite, -⟩ | ⟨reason, sink, n, hwrite, hn, htaken⟩⟩
  · rw [hwrite] at h
    cases h
  · rw [hwrite] at h
    cases h
  · rw [hwrite]
    exact ⟨hfits, rfl, n, hn, htaken⟩

theorem taken_write (w : CaseWriter) (c : TestCase) : w.sink.taken <+: (w.write c).2.sink.taken := by
  rcases w.write_cases c with ⟨-, hwrite⟩ | ⟨-, ⟨sink, hwrite, htaken⟩ | ⟨reason, sink, n, hwrite, -, htaken⟩⟩
  · simp only [hwrite, List.prefix_refl]
  · simp only [hwrite, htaken, List.prefix_append]
  · simp only [hwrite, htaken, List.prefix_append]

theorem taken_writeAll (w : CaseWriter) (cs : List TestCase) :
    w.sink.taken <+: (w.writeAll cs).2.sink.taken := by
  induction cs generalizing w with
  | nil => exact List.prefix_refl _
  | cons c cs ih => exact (w.taken_write c).trans (ih (w.write c).2)

/-- The sink holds the file of some test cases and nothing else, and the writer has counted them. -/
structure Holds (w : CaseWriter) (kept : List TestCase) : Prop where
  taken : w.sink.taken = TestCase.file kept
  written : w.written = kept.length
  fits : ∀ c ∈ kept, c.encodeRecord.length < 2 ^ 32

namespace Holds

theorem start {sink : Sink} (h : sink.taken = []) : (start sink).Holds [] :=
  ⟨h, rfl, by simp⟩

theorem push {w : CaseWriter} {kept : List TestCase} (h : w.Holds kept) {c : TestCase} {sink : Sink}
    (hfits : c.encodeRecord.length < 2 ^ 32)
    (htaken : sink.taken = w.sink.taken ++ Frame.encode c.encodeRecord) :
    Holds ⟨sink, w.written + 1⟩ (kept ++ [c]) where
  taken := by
    rw [htaken, h.taken]
    simp [TestCase.file]
  written := by simp [h.written]
  fits := by
    intro d hd
    rcases List.mem_append.1 hd with hd | hd
    · exact h.fits d hd
    · rw [List.mem_singleton.1 hd]
      exact hfits

/-- As long as the sink does not fail, it holds what was acknowledged and no more. -/
theorem writeAll {w : CaseWriter} {kept cs : List TestCase} (h : w.Holds kept)
    (hcs : ∀ outcome ∈ (w.writeAll cs).1, sinkFailed outcome = false) :
    (w.writeAll cs).2.Holds (kept ++ w.acknowledged cs) := by
  induction cs generalizing w kept with
  | nil => simpa [acknowledged, CaseWriter.writeAll] using h
  | cons c cs ih =>
    rcases w.write_cases c with ⟨-, hwrite⟩ | ⟨hfits, ⟨sink, hwrite, htaken⟩ | ⟨reason, sink, n, hwrite, -, -⟩⟩
    · -- A record that is too long is neither in the sink nor among what is acknowledged.
      simp only [CaseWriter.writeAll, acknowledged, hwrite] at hcs ⊢
      exact ih h fun outcome ho => hcs outcome (List.mem_cons_of_mem _ ho)
    · simp only [CaseWriter.writeAll, acknowledged, hwrite] at hcs ⊢
      have hrest := ih (h.push hfits htaken) fun outcome ho => hcs outcome (List.mem_cons_of_mem _ ho)
      rwa [List.append_assoc] at hrest
    · simp only [CaseWriter.writeAll, hwrite] at hcs
      have hfailed := hcs (.error (.io reason)) (by simp)
      cases hfailed

theorem items {w : CaseWriter} {kept : List TestCase} (h : w.Holds kept) {feed : Feed} {rest : Bytes}
    {e : Option String} (hfeed : Delivers feed (w.sink.taken ++ rest) e) :
    (CaseReader.items feed).1 =
      kept.map (fun c => TestCase.decodeRecord c.encodeRecord) ++ CaseReader.itemsOf rest e := by
  rw [CaseReader.items_of_delivers hfeed, h.taken, TestCase.itemsOf_file_append h.fits]

end Holds

/-- Test cases are written to a sink that has taken nothing. When the sink fails for the first time, the octets
that it has taken are read back as the records of the writes that were acknowledged and as nothing else, and the
writer has counted these. Whatever is written after that, reading still begins with them. A record that is too
long for a frame is refused at any time, and neither the sink nor the count changes. -/
theorem keeps_acknowledged_records {sink : Sink} (hsink : sink.taken = []) {before : List TestCase}
    {c : TestCase} (hbefore : ∀ outcome ∈ ((start sink).writeAll before).1, sinkFailed outcome = false)
    (hfails : sinkFailed (((start sink).writeAll before).2.write c).1 = true) :
    let torn := (((start sink).writeAll before).2.write c).2
    let kept := ((start sink).acknowledged before).map fun d => TestCase.decodeRecord d.encodeRecord
    (∀ feed, Delivers feed torn.sink.taken none → (CaseReader.items feed).1 = kept) ∧
      torn.written = kept.length ∧
      (∀ later feed, Delivers feed (torn.writeAll later).2.sink.taken none →
        kept <+: (CaseReader.items feed).1) ∧
      ∀ w d, 2 ^ 32 ≤ d.encodeRecord.length →
        write w d = (.error (.decoding "record payload exceeds u32 length"), w) := by
  intro torn kept
  have hholds := (Holds.start hsink).writeAll hbefore
  rw [List.nil_append] at hholds
  obtain ⟨hfits, hwritten, n, hn, htaken⟩ := write_of_sinkFailed hfails
  refine ⟨fun feed hfeed => ?_, ?_, fun later feed hfeed => ?_, fun w d hlong => ?_⟩
  · have hrest : CaseReader.itemsOf ((Frame.encode c.encodeRecord).take n) none = [] :=
      CaseReader.itemsOf_of_none (Frame.first?_take_encode hfits hn)
    rw [htaken] at hfeed
    rw [hholds.items hfeed, hrest, List.append_nil]
  · rw [hwritten, hholds.written, List.length_map]
  · obtain ⟨more, hmore⟩ := torn.taken_writeAll later
    rw [← hmore, htaken, List.append_assoc] at hfeed
    rw [hholds.items hfeed]
    exact List.prefix_append _ _
  · rcases w.write_cases d with ⟨-, hwrite⟩ | ⟨hfits, -⟩
    · exact hwrite
    · omega

/-- A sink that is interrupted once, and that fails once after fifty octets. -/
def fullDisk : Sink :=
  ⟨[.room 10, .interrupted, .room 40, .failed "disk full"], .takesAll, none, []⟩

def numbered : TestCase := ⟨7, .ofList [("n", .int 5)], "", 0⟩

def dotted : TestCase := ⟨0, .ofList [("a.b", .bytes [])], "x", 0⟩

theorem keeps_acknowledged_records_fullDisk :
    let w := ((start fullDisk).writeAll [numbered, dotted]).2
    let torn := (w.write numbered).2
    let found (b : Bytes) : List (Option TestCase) :=
      (CaseReader.items (.ofBytes b)).1.map Except.toOption
    (fullDisk.taken = [] ∧
        (∀ outcome ∈ ((start fullDisk).writeAll [numbered, dotted]).1, sinkFailed outcome = false) ∧
        sinkFailed (w.write numbered).1 = true) ∧
      torn.sink.taken.length = 50 ∧ torn.written = 2 ∧
      found torn.sink.taken = [some numbered, none] ∧
      [some numbered, none] <+: found (torn.writeAll [numbered, dotted]).2.sink.taken := by
  intro w torn found
  have hbefore : ∀ outcome ∈ ((start fullDisk).writeAll [numbered, dotted]).1,
      sinkFailed outcome = false := by decide +kernel
  have hfails : sinkFailed (w.write numbered).1 = true := by decide +kernel
  obtain ⟨hitems, hwritten, hlater, -⟩ := keeps_acknowledged_records rfl hbefore hfails
  have hkept : (((start fullDisk).acknowledged [numbered, dotted]).map fun d =>
      TestCase.decodeRecord d.encodeRecord).map Except.toOption = [some numbered, none] := by
    decide +kernel
  have hlength := congrArg List.length hkept
  rw [List.length_map] at hlength
  refine ⟨⟨rfl, hbefore, hfails⟩, by decide +kernel, hwritten.trans hlength, ?_, ?_⟩
  · rw [← hkept]
    exact congrArg _ (hitems _ (Feed.delivers_ofBytes _))
  · rw [← hkept]
    exact (hlater [numbered, dotted] _ (Feed.delivers_ofBytes _)).map _

end CaseWriter

end Concolic
