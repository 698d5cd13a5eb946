import Concolic.Proofs.Delivery
import Concolic.Proofs.RecordCodec
import Concolic.Stream.CaseFile
import Mathlib.Algebra.Group.Nat.Defs

/-!
# Test cases read from a stream

Reading test cases decodes the complete frames of what a source delivers, one after another, and ends with
the error of the source if it has one. A file that is cut anywhere gives back the test cases that were
written whole before the cut.
-/

namespace Concolic

namespace CaseReader

/-- The items of octets that end as `e` says: the complete frames decoded, each for itself, then the
error. -/
def itemsOf (b : Bytes) (e : Option String) : List (Except Fault TestCase) :=
  (Frame.payloads b).map TestCase.decodeRecord ++ e.toList.map fun reason => .error (.io reason)

def after (r : CaseReader) : Nat → CaseReader
  | 0 => r
  | n + 1 => r.next.reader.after n

/-- Nothing comes any more and nothing changes, whatever the source would answer. -/
def Closed (r : CaseReader) : Prop :=
  ∀ f : Feed, next ⟨{ r.frames with feed := f }⟩ = ⟨none, ⟨{ r.frames with feed := f }⟩, []⟩

theorem closed_of_finished {r : CaseReader} (h : r.frames.finished = true) : r.Closed := by
  intro f
  rw [next, FrameReader.next_of_finished (r := { r.frames with feed := f }) h]

theorem Closed.next {r : CaseReader} (h : r.Closed) : r.next = ⟨none, r, []⟩ :=
  h r.frames.feed

theorem Closed.after {r : CaseReader} (h : r.Closed) (n : Nat) : r.after n = r := by
  induction n with
  | zero => rfl
  | succ n ih => rw [CaseReader.after, h.next, ih]

section Next

variable {r : CaseReader} {b p rest : Bytes} {e : Option String}

theorem next_of_first?_eq_some (hr : r.frames.finished = false) (h : Delivers r.frames.feed b e)
    (hb : Frame.first? b = some (p, rest)) :
    ∃ g, r.next = ⟨some (TestCase.decodeRecord p), ⟨⟨g, false, r.recordsRead + 1⟩⟩, []⟩ ∧
      Delivers g rest e ∧ g.unread.length < r.frames.feed.unread.length := by
  obtain ⟨g, hnext, hg, hlt⟩ := FrameReader.next_of_first?_eq_some hr h hb
  refine ⟨g, ?_, hg, hlt⟩
  rw [next, hnext]
  rfl

theorem next_of_first?_eq_none (hr : r.frames.finished = false) (h : Delivers r.frames.feed b e)
    (hb : Frame.first? b = none) :
    ∃ g events, r.next =
      ⟨e.map fun reason => .error (.io reason), ⟨⟨g, true, r.recordsRead⟩⟩, events⟩ := by
  obtain ⟨g, events, hnext⟩ := FrameReader.next_of_first?_eq_none hr h hb
  refine ⟨g, events, ?_⟩
  rw [next, hnext]
  cases e <;> rfl

theorem itemsOf_of_some (hb : Frame.first? b = some (p, rest)) :
    itemsOf b e = TestCase.decodeRecord p :: itemsOf rest e := by
  rw [itemsOf, Frame.payloads_of_some hb]
  rfl

theorem itemsOf_of_none (hb : Frame.first? b = none) :
    itemsOf b e = e.toList.map fun reason => .error (.io reason) := by
  rw [itemsOf, Frame.payloads_of_none hb]
  rfl

/-- The calls of a reader in the middle of a stream: its items are those of the octets to come. -/
theorem next_after_of_delivers (hr : r.frames.finished = false) (h : Delivers r.frames.feed b e)
    (n : Nat) :
    (r.after n).next.item = (itemsOf b e)[n]? ∧
      (r.after n).recordsRead = r.recordsRead + min n (Frame.payloads b).length ∧
      ((Frame.payloads b).length ≤ n → (r.after n).next.reader.Closed) := by
  induction n generalizing r b with
  | zero =>
    cases hb : Frame.first? b with
    | none =>
      obtain ⟨g, events, hnext⟩ := next_of_first?_eq_none hr h hb
      rw [after, hnext, itemsOf_of_none hb, Frame.payloads_of_none hb]
      refine ⟨?_, rfl, fun _ => closed_of_finished rfl⟩
      cases e <;> rfl
    | some found =>
      obtain ⟨g, hnext, -, -⟩ := next_of_first?_eq_some hr h hb
      rw [after, hnext, itemsOf_of_some hb, Frame.payloads_of_some hb]
      refine ⟨rfl, by simp, fun hle => ?_⟩
      cases hle
  | succ n ih =>
    cases hb : Frame.first? b with
    | none =>
      obtain ⟨g, events, hnext⟩ := next_of_first?_eq_none hr h hb
      have hclosed : Closed ⟨⟨g, true, r.recordsRead⟩⟩ := closed_of_finished rfl
      rw [after, hnext, hclosed.after, hclosed.next, itemsOf_of_none hb, Frame.payloads_of_none hb]
      refine ⟨?_, by simp [recordsRead], fun _ => hclosed⟩
      cases e <;> rfl
    | some found =>
      obtain ⟨g, hnext, hg, -⟩ := next_of_first?_eq_some hr h hb
      obtain ⟨hitem, hcount, hclosed⟩ := ih (r := ⟨⟨g, false, r.recordsRead + 1⟩⟩) rfl hg
      rw [after, hnext, itemsOf_of_some hb, Frame.payloads_of_some hb]
      refine ⟨hitem, ?_, fun hle => hclosed (by simpa using hle)⟩
      rw [hcount, List.length_cons]
      simp only [recordsRead]
      omega

theorem steps_of_delivers (hr : r.frames.finished = false) (h : Delivers r.frames.feed b e) :
    r.steps.1.map Prod.fst = itemsOf b e ∧ r.steps.2.1.Closed ∧
      r.steps.2.1.recordsRead = r.recordsRead + (Frame.payloads b).length := by
  induction b using Frame.payloads.induct generalizing r with
  | case1 b hb =>
    obtain ⟨g, events, hnext⟩ := next_of_first?_eq_none hr h hb
    have hclosed : Closed ⟨⟨g, true, r.recordsRead⟩⟩ := closed_of_finished rfl
    rw [itemsOf_of_none hb, Frame.payloads_of_none hb, steps, hnext]
    cases e with
    | none => exact ⟨rfl, hclosed, rfl⟩
    | some reason => exact ⟨rfl, hclosed, rfl⟩
  | case2 b p rest hb ih =>
    obtain ⟨g, hnext, hg, hlt⟩ := next_of_first?_eq_some hr h hb
    obtain ⟨hitems, hclosed, hcount⟩ := ih (r := ⟨⟨g, false, r.recordsRead + 1⟩⟩) rfl hg
    rw [itemsOf_of_some hb, Frame.payloads_of_some hb, steps, hnext]
    simp only [Bool.false_eq_true, if_false, if_pos hlt]
    refine ⟨?_, hclosed, ?_⟩
    · rw [List.map_cons, hitems]
    · rw [hcount, List.length_cons]
      simp only [recordsRead]
      omega

end Next

theorem items_of_delivers {feed : Feed} {b : Bytes} {e : Option String} (h : Delivers feed b e) :
    (items feed).1 = itemsOf b e :=
  (steps_of_delivers (r := .start feed) rfl h).1

/-- However octets are delivered, the items of a reader are the complete frames decoded, each for itself, and
then the error of the source if there is one. The reader counts the frames; after the error or the end it
is closed. -/
theorem next_after_start {feed : Feed} {b : Bytes} {e : Option String} (h : Delivers feed b e)
    (n : Nat) :
    let r := (start feed).after n
    r.next.item = (itemsOf b e)[n]? ∧ r.recordsRead = min n (Frame.payloads b).length ∧
      ((r.next.item = none ∨ ∃ reason, r.next.item = some (.error (.io reason))) →
        r.next.reader.Closed) := by
  intro r
  obtain ⟨hitem, hcount, hclosed⟩ := next_after_of_delivers (r := start feed) rfl h n
  refine ⟨hitem, hcount.trans (Nat.zero_add _), fun hlast => ?_⟩
  by_cases hn : (Frame.payloads b).length ≤ n
  · exact hclosed hn
  · -- An item before that is a record that was decoded, well or not.
    have hlt : n < (Frame.payloads b).length := by omega
    have hdecoded : r.next.item = some (TestCase.decodeRecord (Frame.payloads b)[n]) := by
      rw [hitem, itemsOf, List.getElem?_append_left (by simpa using hlt)]
      simp [hlt]
    rcases hlast with hnone | ⟨reason, hio⟩
    · rw [hdecoded] at hnone
      cases hnone
    · rw [hdecoded, Option.some.injEq] at hio
      obtain ⟨reason', heq⟩ := TestCase.eq_decoding_of_decodeRecord hio
      cases heq

/-- A source that delivers a malformed record, an empty one and half of a length, with interruptions, and
then fails. -/
def failingFeed : Feed :=
  [.octets [1], .interrupted, .octets [0, 0, 0, 0x08, 0, 0], .interrupted, .interrupted,
    .octets [0, 0, 5], .octets [0], .failed "disk failure"]

theorem delivers_failingFeed :
    Delivers failingFeed [1, 0, 0, 0, 0x08, 0, 0, 0, 0, 5, 0] (some "disk failure") :=
  .octets (by decide) <| .interrupted <| .octets (by decide) <| .interrupted <| .interrupted <|
    .octets (by decide) <| .octets (by decide) <| .failed _ _

theorem next_after_start_failingFeed :
    let r := (start failingFeed).after 2
    r.next.item = some (.error (.io "disk failure")) ∧ r.recordsRead = 2 ∧ r.next.reader.Closed := by
  have hpayloads : Frame.payloads [1, 0, 0, 0, 0x08, 0, 0, 0, 0, 5, 0] = [[0x08], []] := by
    have hfirst : Frame.first? [1, 0, 0, 0, 0x08, 0, 0, 0, 0, 5, 0] =
        some ([0x08], [0, 0, 0, 0, 5, 0]) := by decide
    have hsecond : Frame.first? [0, 0, 0, 0, 5, 0] = some ([], [5, 0]) := by decide
    rw [Frame.payloads_of_some hfirst, Frame.payloads_of_some hsecond, Frame.payloads_of_none rfl]
  obtain ⟨hitem, hcount, hclosed⟩ := next_after_start delivers_failingFeed 2
  rw [itemsOf, hpayloads] at hitem
  rw [hpayloads] at hcount
  exact ⟨hitem, hcount, hclosed (.inr ⟨"disk failure", hitem⟩)⟩

end CaseReader

namespace TestCase

/-- The octets of a file of test cases: their records as frames, one after another. -/
def file (cs : List TestCase) : Bytes :=
  cs.flatMap fun c => Frame.encode c.encodeRecord

/-- The test cases whose frames end by the cut, when the frames lie one after another from `start` on. -/
def wholeBefore (cut : Nat) : (start : Nat) → List TestCase → List TestCase
  | _, [] => []
  | start, c :: cs =>
    let stop := start + (Frame.encode c.encodeRecord).length
    if stop ≤ cut then c :: wholeBefore cut stop cs else wholeBefore cut stop cs

theorem wholeBefore_of_lt {cut start : Nat} (h : cut < start) (cs : List TestCase) :
    wholeBefore cut start cs = [] := by
  induction cs generalizing start with
  | nil => rfl
  | cons c cs ih =>
    rw [wholeBefore, if_neg (by omega)]
    exact ih (by omega)

theorem wholeBefore_of_le {cut start : Nat} {cs : List TestCase}
    (h : start + (file cs).length ≤ cut) : wholeBefore cut start cs = cs := by
  induction cs generalizing start with
  | nil => rfl
  | cons c cs ih =>
    rw [file, List.flatMap_cons, List.length_append] at h
    rw [wholeBefore, if_pos (by omega), ih (by rw [file]; omega)]

theorem mem_of_mem_wholeBefore {cut start : Nat} {cs : List TestCase} {c : TestCase}
    (h : c ∈ wholeBefore cut start cs) : c ∈ cs := by
  induction cs generalizing start with
  | nil => exact h
  | cons d cs ih =>
    rw [wholeBefore] at h
    split at h
    · rcases List.mem_cons.1 h with rfl | h
      · simp
      · exact List.mem_cons_of_mem _ (ih h)
    · exact List.mem_cons_of_mem _ (ih h)

/-- The complete frames of a file before a cut are the records that were written whole before it. -/
theorem payloads_take_file {cs : List TestCase} (h : ∀ c ∈ cs, c.encodeRecord.length < 2 ^ 32)
    (cut start : Nat) :
    Frame.payloads ((file cs).take (cut - start)) = (wholeBefore cut start cs).map encodeRecord := by
  induction cs generalizing start with
  | nil =>
    rw [file, List.flatMap_nil, List.take_nil]
    exact Frame.payloads_of_none rfl
  | cons c cs ih =>
    have hc := h c (by simp)
    have hrest := ih (fun d hd => h d (List.mem_cons_of_mem _ hd))
      (start + (Frame.encode c.encodeRecord).length)
    rw [wholeBefore, file, List.flatMap_cons]
    by_cases hstop : start + (Frame.encode c.encodeRecord).length ≤ cut
    · rw [if_pos hstop, List.take_append, List.take_of_length_le (by omega),
        Frame.payloads_of_some (Frame.first?_encode_append hc _), Nat.sub_sub, ← file, hrest]
      rfl
    · -- The cut falls into this frame.
      rw [if_neg hstop, wholeBefore_of_lt (by omega)]
      by_cases hstart : cut - start = 0
      · rw [hstart]
        exact Frame.payloads_of_none rfl
      · rw [List.take_append_of_le_length (by omega)]
        exact Frame.payloads_of_none (Frame.first?_take_encode hc (by omega))

theorem itemsOf_file_append {cs : List TestCase} (h : ∀ c ∈ cs, c.encodeRecord.length < 2 ^ 32)
    (rest : Bytes) (e : Option String) :
    CaseReader.itemsOf (file cs ++ rest) e =
      cs.map (fun c => decodeRecord c.encodeRecord) ++ CaseReader.itemsOf rest e := by
  induction cs with
  | nil => rfl
  | cons c cs ih =>
    have hfirst := Frame.first?_encode_append (h c (by simp)) (file cs ++ rest)
    have hrest := ih fun d hd => h d (List.mem_cons_of_mem _ hd)
    rw [file, List.flatMap_cons, ← file, List.append_assoc, CaseReader.itemsOf_of_some hfirst, hrest]
    rfl

theorem itemsOf_take_file {cs : List TestCase}
    (hnames : ∀ c ∈ cs, ∀ e ∈ c.assignment.entries, '.' ∉ e.1.toList)
    (hlength : ∀ c ∈ cs, c.encodeRecord.length < 2 ^ 32) (cut : Nat) :
    CaseReader.itemsOf ((file cs).take cut) none = (wholeBefore cut 0 cs).map .ok := by
  have hpayloads := payloads_take_file hlength cut 0
  rw [Nat.sub_zero] at hpayloads
  simp only [CaseReader.itemsOf, hpayloads, List.map_map, Option.toList_none, List.map_nil,
    List.append_nil]
  apply List.map_congr_left
  intro c hc
  have hmem := mem_of_mem_wholeBefore hc
  have hlt := hlength c hmem
  exact (decodeRecord_eq_ok_iff (by omega)).2 (hnames c hmem)

end TestCase

namespace Sink

def holding (b : Bytes) : Sink := { unlimited with taken := b }

theorem write_holding (taken b : Bytes) : (holding taken).write b = (.ok (), holding (taken ++ b)) := by
  cases b <;> rfl

theorem writeFrame_holding (taken : Bytes) {payload : Bytes} (h : payload.length < 2 ^ 32) :
    (holding taken).writeFrame payload = (.ok (), holding (taken ++ Frame.encode payload)) := by
  have hfits : ¬ UInt32.size ≤ payload.length := by
    rw [UInt32.size]
    omega
  simp only [writeFrame, if_neg hfits, write_holding, Frame.encode, List.append_assoc]

end Sink

namespace CaseWriter

/-- Writes test cases one after another. Gives the outcomes and the writer after them. -/
def writeAll (w : CaseWriter) : List TestCase → List (Except Fault Unit) × CaseWriter
  | [] => ([], w)
  | c :: cs =>
    let (outcome, w) := w.write c
    let (outcomes, last) := w.writeAll cs
    (outcome :: outcomes, last)

theorem writeAll_holding {cs : List TestCase} (h : ∀ c ∈ cs, c.encodeRecord.length < 2 ^ 32)
    (taken : Bytes) (n : Nat) :
    writeAll ⟨.holding taken, n⟩ cs =
      (List.replicate cs.length (.ok ()), ⟨.holding (taken ++ TestCase.file cs), n + cs.length⟩) := by
  induction cs generalizing taken n with
  | nil => simp [writeAll, TestCase.file]
  | cons c cs ih =>
    have hwrite := Sink.writeFrame_holding taken (h c (by simp))
    have hrest := ih (fun d hd => h d (List.mem_cons_of_mem _ hd))
      (taken ++ Frame.encode c.encodeRecord) (n + 1)
    simp only [writeAll, write, hwrite, hrest]
    simp [TestCase.file, List.replicate_succ]
    omega

/-- Test cases whose names have no point are written without an error. Of their file, cut anywhere, exactly
those that lie whole before the cut are read back, in order and without an error, and then nothing more; of
the uncut file all are. -/
theorem read_back_cut_file {cs : List TestCase}
    (hnames : ∀ c ∈ cs, ∀ e ∈ c.assignment.entries, '.' ∉ e.1.toList)
    (hlength : ∀ c ∈ cs, c.encodeRecord.length < 2 ^ 32) :
    ∃ file, (∀ outcome ∈ ((start .unlimited).writeAll cs).1, outcome = .ok ()) ∧
      ((start .unlimited).writeAll cs).2.finish = .ok file ∧ ∀ cut,
        let (found, last, _) := (CaseReader.start (.ofBytes (file.take cut))).steps
        found.map Prod.fst = (TestCase.wholeBefore cut 0 cs).map .ok ∧ last.Closed ∧
          last.recordsRead = found.length ∧
          (file.length ≤ cut → found.map Prod.fst = cs.map .ok) := by
  have hwritten := writeAll_holding hlength [] 0
  have hstart : start .unlimited = ⟨.holding [], 0⟩ := rfl
  rw [hstart, hwritten]
  refine ⟨TestCase.file cs, fun outcome ho => List.eq_of_mem_replicate ho, rfl, fun cut => ?_⟩
  obtain ⟨hitems, hclosed, hcount⟩ :=
    CaseReader.steps_of_delivers (r := .start (.ofBytes ((TestCase.file cs).take cut))) rfl
      (Feed.delivers_ofBytes _)
  have hlen := congrArg List.length hitems
  rw [List.length_map, CaseReader.itemsOf, List.length_append, List.length_map] at hlen
  rw [TestCase.itemsOf_take_file hnames hlength] at hitems
  refine ⟨hitems, hclosed, hcount.trans ?_, fun hle => ?_⟩
  · exact (Nat.zero_add _).trans hlen.symm
  · rw [hitems, TestCase.wholeBefore_of_le (by omega)]

def sampleCases : List TestCase :=
  [⟨0, .empty, "", 0⟩, ⟨7, .ofList [("", .bytes []), ("a#b", .int (-1))], "é", 3⟩]

theorem read_back_cut_file_sampleCases :
    ∃ file, ((start .unlimited).writeAll sampleCases).2.finish = .ok file ∧
      let (found, last, _) := (CaseReader.start (.ofBytes (file.take 10))).steps
      found.map Prod.fst = [.ok ⟨0, .empty, "", 0⟩] ∧ last.Closed ∧ last.recordsRead = 1 := by
  have hnames : ∀ c ∈ sampleCases, ∀ e ∈ c.assignment.entries, '.' ∉ e.1.toList := by decide
  have hlength : ∀ c ∈ sampleCases, c.encodeRecord.length < 2 ^ 32 := by decide +kernel
  obtain ⟨file, _, hfinish, hcut⟩ := read_back_cut_file hnames hlength
  obtain ⟨hfound, hclosed, hcount, _⟩ := hcut 10
  have hwhole : TestCase.wholeBefore 10 0 sampleCases = [⟨0, .empty, "", 0⟩] := by decide +kernel
  rw [hwhole] at hfound
  have hlen := congrArg List.length hfound
  rw [List.length_map] at hlen
  exact ⟨file, hfinish, hfound, hclosed, hcount.trans hlen⟩

end CaseWriter

end Concolic
