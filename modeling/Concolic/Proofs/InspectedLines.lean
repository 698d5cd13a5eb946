import Concolic.Proofs.CaseText
import Concolic.Proofs.RefusedRecord

/-!
# Lines of an inspection

An inspection that writes JSON writes a line for each record, unless a record is refused for a name with a line feed in
it: the text of the fault quotes the name as it is, and what stands behind the line feed is a line that no record
asked for.
-/

namespace Concolic

namespace Inspection

def line (index : Nat) : Except Fault TestCase → String
  | .ok c => c.toJson.text
  | .error f => s!"#{index} undecodable: " ++ f.message

def lines (index : Nat) (items : List (Except Fault TestCase)) : List String :=
  (items.zipIdx index).map fun x => line x.2 x.1

/-- The JSON of the test cases among items. -/
def objects (items : List (Except Fault TestCase)) : List String :=
  items.filterMap fun item => item.toOption.map fun c => c.toJson.text

def beginsObject (s : String) : Bool :=
  s.toList.head? == some '\x7b'

theorem itemText_eq_line (index : Nat) (item : Except Fault TestCase) :
    itemText true index item = line index item ++ "\n" := by
  cases item <;> rfl

theorem visible_opening (index : Nat) : Visible (s!"#{index} undecodable: ").toList := by
  change Visible ("#" ++ toString index ++ " undecodable: ").toList
  rw [String.toList_append, String.toList_append]
  have hnumber := Visible.append (by decide : Visible "#".toList) (.natural index)
  exact hnumber.append (by decide : Visible " undecodable: ".toList)

/-- A line feed in a line comes from the text of a fault. -/
theorem mem_line_iff {index : Nat} {item : Except Fault TestCase} :
    '\n' ∈ (line index item).toList ↔ ∃ f, item = .error f ∧ '\n' ∈ f.message.toList := by
  cases item with
  | ok c => simp [line, c.visible_text.not_mem (by decide : ('\n').toNat < 0x20)]
  | error f =>
    have hopening := (visible_opening index).not_mem (by decide : ('\n').toNat < 0x20)
    rw [line, String.toList_append, List.mem_append, or_iff_right hopening]
    simp

theorem textLines_itemText {index : Nat} {payload : Bytes} (h : ¬ TestCase.BreaksLine payload) :
    textLines (itemText true index (TestCase.decodeRecord payload)) = [line index (TestCase.decodeRecord payload)] := by
  rw [itemText_eq_line]
  refine textLines_of_not_mem (fun hfeed => ?_) ?_
  · exact h (TestCase.breaksLine_iff.2 (mem_line_iff.1 hfeed))
  · cases hitem : TestCase.decodeRecord payload with
    | ok c => exact fun hlast => c.visible_text.not_mem (by decide) (List.mem_of_getLast? hlast)
    | error f =>
      rw [line, String.toList_append, List.getLast?_append]
      intro hlast
      obtain hmessage | ⟨-, hopening⟩ := Option.or_eq_some_iff.1 hlast
      · exact TestCase.getLast?_of_refused hitem hmessage
      · exact (visible_opening index).not_mem (by decide) (List.mem_of_getLast? hopening)

theorem exists_line_mem {item : Except Fault TestCase} {items : List (Except Fault TestCase)} (h : item ∈ items)
    (index : Nat) : ∃ k, line k item ∈ lines index items := by
  obtain ⟨k, hk⟩ := List.mem_iff_getElem?.1 h
  have hmem : (item, index + k) ∈ items.zipIdx index := by
    simp [List.mem_zipIdx_iff_le_and_getElem?_sub, hk]
  exact ⟨index + k, List.mem_map.2 ⟨_, hmem, rfl⟩⟩

theorem textLines_texts_iff {index : Nat} {payloads : List Bytes} :
    textLines (String.join (texts true index (payloads.map TestCase.decodeRecord))) =
        lines index (payloads.map TestCase.decodeRecord) ↔
      ∀ payload ∈ payloads, ¬ TestCase.BreaksLine payload := by
  constructor
  · intro h payload hpayload hbreaks
    obtain ⟨k, hline⟩ := exists_line_mem (List.mem_map_of_mem hpayload) index
    -- No line of a text has a line feed in it, and this one would.
    rw [← h] at hline
    exact not_mem_of_mem_textLines hline (mem_line_iff.2 (TestCase.breaksLine_iff.1 hbreaks))
  · intro h
    have hone : ∀ x ∈ (payloads.map TestCase.decodeRecord).zipIdx index,
        textLines (itemText true x.2 x.1) = [line x.2 x.1] := by
      intro x hx
      obtain ⟨payload, hpayload, hitem⟩ := List.mem_map.1 (List.fst_mem_of_mem_zipIdx hx)
      rw [← hitem]
      exact textLines_itemText (h payload hpayload)
    rw [textLines_join_texts, texts, lines, List.flatMap_map, List.flatMap_congr hone]
    exact List.map_eq_flatMap.symm

theorem beginsObject_line (index : Nat) (item : Except Fault TestCase) : beginsObject (line index item) = item.isOk := by
  cases item with
  | ok c =>
    have hhead : c.toJson.text.toList.head? = some '\x7b' := by
      rw [Json.text, String.toList_ofList, TestCase.toJson, Json.chars]
      rfl
    rw [beginsObject, line, hhead]
    rfl
  | error f =>
    have hhead : ("#" ++ toString index ++ " undecodable: " ++ f.message).toList.head? = some '#' := by
      have hsharp : "#".toList = ['#'] := rfl
      simp only [String.toList_append, hsharp, List.cons_append, List.head?_cons]
    change (("#" ++ toString index ++ " undecodable: " ++ f.message).toList.head? == some '\x7b') = false
    rw [hhead]
    rfl

theorem filter_lines (index : Nat) (items : List (Except Fault TestCase)) :
    (lines index items).filter beginsObject = objects items := by
  induction items generalizing index with
  | nil => rfl
  | cons item items ih =>
    have hlines : lines index (item :: items) = line index item :: lines (index + 1) items := rfl
    rw [hlines, List.filter_cons, beginsObject_line, ih]
    cases item <;> rfl

theorem length_objects (items : List (Except Fault TestCase)) :
    (objects items).length = items.countP fun item => item.isOk := by
  rw [objects, List.length_filterMap_eq_countP]
  congr 1
  funext item
  cases item <;> rfl

/-- Whatever a file holds, an inspection counts its test cases and writes a text, and the text is one line for each
record exactly if no record is refused for a name with a line feed in it. Then the lines that begin like an object
are the JSON of the test cases in order, and as many as the inspection counts. -/
theorem one_line_per_record_iff {feed : Feed} {b : Bytes} (h : Delivers feed b none) {out : Sink}
    (hanswers : out.answers = []) (htakes : out.afterwards = .takesAll) :
    let items := (CaseReader.items feed).1
    let inspected := run true (.ok feed) out
    ∃ text : String, inspected.decoded = .ok (items.countP fun item => item.isOk) ∧
      inspected.out.taken = out.taken ++ Utf8.encode text ∧
      (textLines text = lines 0 items ↔ ∀ payload ∈ Frame.payloads b, ¬ TestCase.BreaksLine payload) ∧
      ((∀ payload ∈ Frame.payloads b, ¬ TestCase.BreaksLine payload) →
        (textLines text).filter beginsObject = objects items ∧
          inspected.decoded = .ok ((textLines text).filter beginsObject).length) := by
  intro items inspected
  have hitems : items = (Frame.payloads b).map TestCase.decodeRecord := by
    simp [items, CaseReader.items_of_delivers h, CaseReader.itemsOf]
  have hlines : textLines (String.join (texts true 0 items)) = lines 0 items ↔
      ∀ payload ∈ Frame.payloads b, ¬ TestCase.BreaksLine payload := by
    rw [hitems]
    exact textLines_texts_iff
  -- The sink takes everything, so that the inspection does not fail with it.
  have hok := writeItems_of_takesAll true 0 items hanswers htakes
  obtain ⟨out', hwrite, htaken⟩ | ⟨reason, out', hwrite, -⟩ := writeItems_cases true 0 items out
  case inr =>
    rw [hwrite] at hok
    cases hok
  have hinspected : inspected = ⟨.ok (items.countP fun item => item.isOk), out', (CaseReader.items feed).2⟩ :=
    run_of_writeItems true feed hwrite
  rw [hinspected]
  refine ⟨String.join (texts true 0 items), rfl, htaken, hlines, fun hnone => ?_⟩
  rw [hlines.2 hnone, filter_lines, length_objects]
  exact ⟨rfl, rfl⟩

/-- A record that is well-formed, one that is malformed and one without octets. -/
theorem one_line_per_record_iff_wildStream :
    let b := CaseWriter.wildStream
    let inspected := run true (.ok (.ofBytes b)) .unlimited
    Delivers (.ofBytes b) b none ∧ Sink.unlimited.answers = [] ∧ Sink.unlimited.afterwards = .takesAll ∧
      (∀ payload ∈ Frame.payloads b, ¬ TestCase.BreaksLine payload) ∧
      ∃ text : String, inspected.out.taken = Utf8.encode text ∧
        textLines text = lines 0 (CaseReader.items (.ofBytes b)).1 ∧
        (textLines text).filter beginsObject = objects (CaseReader.items (.ofBytes b)).1 ∧
        inspected.decoded = .ok ((textLines text).filter beginsObject).length := by
  intro b inspected
  have hpayloads : Frame.payloads b = [CaseWriter.wildRecord, [0xFF], []] := by decide +kernel
  have hnone : ∀ payload ∈ Frame.payloads b, ¬ TestCase.BreaksLine payload := by
    rw [hpayloads]
    decide +kernel
  have hdelivers : Delivers (.ofBytes b) b none := Feed.delivers_ofBytes b
  have hanswers : Sink.unlimited.answers = [] := rfl
  have htakes : Sink.unlimited.afterwards = .takesAll := rfl
  obtain ⟨text, -, htaken, hlines, hobjects⟩ := one_line_per_record_iff hdelivers hanswers htakes
  exact ⟨hdelivers, hanswers, htakes, hnone, text, htaken, hlines.2 hnone, hobjects hnone⟩

/-- A record with a name that holds an object on a line of its own. The record is refused, and two lines of five look
like test cases. -/
theorem one_line_per_record_forged :
    let record := Message.encode ⟨0, [⟨"x.\n\x7b\x7d\n", []⟩], "", 0⟩
    let feed : Feed := .ofBytes (Frame.encode record)
    let inspected := run true (.ok feed) .unlimited
    (CaseReader.items feed).1.length = 1 ∧ inspected.decoded = .ok 0 ∧
      ∃ text : String, inspected.out.taken = Utf8.encode text ∧
        textLines text ≠ lines 0 (CaseReader.items feed).1 ∧
        textLines text = ["#0 undecodable: Decoding error: invalid kind '", "\x7b\x7d", "' in assignment name 'x.",
          "\x7b\x7d", "'"] := by
  intro record feed inspected
  have hitems : (CaseReader.items feed).1.length = 1 := by decide +kernel
  have htaken : inspected.out.taken = Utf8.encode ("#0 undecodable: Decoding error: invalid kind '\n\x7b\x7d\n' in " ++
      "assignment name 'x.\n\x7b\x7d\n'\n") := by decide +kernel
  refine ⟨hitems, by decide +kernel, _, htaken, fun hlines => ?_, by decide +kernel⟩
  have hlength := congrArg List.length hlines
  rw [lines, List.length_map, List.length_zipIdx, hitems] at hlength
  exact absurd hlength (by decide +kernel)

end Inspection

end Concolic
