import Concolic.Proofs.AssignmentEntries
import Concolic.Proofs.LineEndings

/-!
# Texts about refused records

What the text of a fault holds that a record is refused with. It quotes nothing of the record but a name of an
unknown kind, and the letters that stand for the kind. So it has control characters only from such a name.
-/

namespace Concolic

namespace Wire

theorem Form.visible_name (f : Form) : Visible f.name.toList := by
  cases f <;> decide

theorem Cause.visible_message (c : Cause) : Visible c.message.toList := by
  cases c with
  | invalidKey key =>
    change Visible ("invalid key value: " ++ toString key).toList
    rw [String.toList_append]
    exact .append (by decide : Visible "invalid key value: ".toList) (.natural key)
  | invalidForm code =>
    change Visible ("invalid wire type value: " ++ toString code).toList
    rw [String.toList_append]
    exact .append (by decide : Visible "invalid wire type value: ".toList) (.natural code)
  | wrongForm actual expected =>
    change Visible ("invalid wire type: " ++ actual.name ++ " (expected " ++ expected.name ++ ")").toList
    simp only [String.toList_append]
    have hactual := Visible.append (by decide : Visible "invalid wire type: ".toList) actual.visible_name
    have hexpected := Visible.append (by decide : Visible " (expected ".toList) expected.visible_name
    rw [List.append_assoc _ " (expected ".toList]
    exact (hactual.append hexpected).append (by decide : Visible ")".toList)
  | _ => decide

namespace Malformed

/-- The fields that a failure happened in have names without control characters. -/
def Located (m : Malformed) : Prop :=
  ∀ name ∈ m.location, Visible name.toList

theorem visible_join {names : List String} (h : ∀ name ∈ names, Visible name.toList) :
    Visible (String.join (names.map (· ++ ": "))).toList := by
  induction names with
  | nil => decide
  | cons name names ih =>
    have hname := h name List.mem_cons_self
    have hrest := ih fun name' hname' => h name' (List.mem_cons_of_mem name hname')
    rw [List.map_cons, String.join_cons, String.toList_append, String.toList_append]
    exact (hname.append (by decide : Visible ": ".toList)).append hrest

theorem Located.visible_message {m : Malformed} (h : m.Located) : Visible m.message.toList := by
  have hopening : Visible "failed to decode Protobuf message: ".toList := by decide
  unfold message
  rw [String.toList_append, String.toList_append]
  exact (hopening.append (visible_join h)).append m.cause.visible_message

end Malformed

/-- A reading fails, if it does, in fields that have names without control characters. -/
def FailsLocated (r : Reading α) : Prop :=
  ∀ m, r = .error m → m.Located

namespace FailsLocated

theorem ok (a : α) : FailsLocated (.ok a : Reading α) := nofun

theorem failure (cause : Cause) : FailsLocated (Wire.failure cause : Reading α) := by
  rintro m ⟨⟩
  exact nofun

theorem bind {r : Reading α} {next : α → Reading β} (hr : FailsLocated r) (hnext : ∀ a, FailsLocated (next a)) :
    FailsLocated (r >>= next) := by
  cases r with
  | error m =>
    rintro _ ⟨⟩
    exact hr m rfl
  | ok a => exact hnext a

theorem inField {name : String} (hname : Visible name.toList) {r : Reading α} (hr : FailsLocated r) :
    FailsLocated (Wire.inField name r) := by
  cases r with
  | ok a => exact ok a
  | error m =>
    rintro _ ⟨⟩
    exact List.forall_mem_append.2 ⟨hr m rfl, List.forall_mem_singleton.2 hname⟩

variable {σ : Type} {field : σ → Key → Bytes → Reading (σ × Bytes)}

theorem withForm {expected : Form} {key : Key} {read : Bytes → Reading (α × Bytes)} (hread : ∀ bs, FailsLocated (read bs))
    (bs : Bytes) : FailsLocated (Wire.withForm expected key read bs) := by
  unfold Wire.withForm
  split
  · exact hread bs
  · exact failure _

theorem readNumber (bs : Bytes) : FailsLocated (Wire.readNumber bs) := by
  unfold Wire.readNumber
  split
  · exact ok _
  · exact failure _

theorem readOctets (bs : Bytes) : FailsLocated (Wire.readOctets bs) := by
  refine bind (readNumber bs) fun (n, r) => ?_
  dsimp only
  split
  · exact ok _
  · exact failure _

theorem readText (bs : Bytes) : FailsLocated (Wire.readText bs) := by
  refine bind (readOctets bs) fun (octets, r) => ?_
  dsimp only
  split
  · exact ok _
  · exact failure _

theorem readUnknown (depth : Nat) (s : σ) (key : Key) (bs : Bytes) : FailsLocated (Wire.readUnknown depth s key bs) := by
  unfold Wire.readUnknown
  split
  · exact ok _
  · exact failure _

/-- The induction is on the octets that are left, as in the reading. -/
theorem readFields (hfield : ∀ s key bs, FailsLocated (field s key bs)) (limit : Nat) (s : σ) (bs : Bytes) :
    FailsLocated (Wire.readFields field limit s bs) := by
  induction bs using (measure List.length).wf.induction generalizing s with
  | _ bs ih =>
    rw [Wire.readFields]
    split
    · exact ok _
    · split
      · exact failure _
      · rename_i key r hkey
        split
        · rename_i m hm
          rintro _ ⟨⟩
          exact hfield s key r m hm
        · rename_i s' r' hread
          split
          · rename_i hlt
            exact ih r' hlt s'
          · exact ok _

theorem readMessage (hfield : ∀ s key bs, FailsLocated (field s key bs)) (s : σ) (bs : Bytes) :
    FailsLocated (Wire.readMessage field s bs) := by
  refine bind (readNumber bs) fun (n, r) => ?_
  dsimp only
  split
  · exact failure _
  · refine bind (readFields hfield _ s r) fun (s', r') => ?_
    dsimp only
    split
    · exact ok _
    · exact failure _

end FailsLocated

end Wire

open Wire

theorem Entry.failsLocated_readField (e : Entry) (key : Key) (bs : Bytes) : FailsLocated (e.readField key bs) := by
  unfold readField
  split_ifs
  · exact .inField (by decide) (.bind (.withForm .readText bs) fun _ => .ok _)
  · exact .inField (by decide) (.bind (.withForm .readOctets bs) fun _ => .ok _)
  · exact .readUnknown _ _ _ _

theorem Entry.failsLocated_readInputField (es : List Entry) (key : Key) (bs : Bytes) :
    FailsLocated (readInputField es key bs) := by
  unfold readInputField
  split_ifs
  · exact .inField (by decide) (.bind (.withForm (.readMessage failsLocated_readField blank) bs) fun _ => .ok _)
  · exact .readUnknown _ _ _ _

theorem Message.failsLocated_readField (m : Message) (key : Key) (bs : Bytes) : FailsLocated (m.readField key bs) := by
  unfold readField
  split_ifs
  · exact .inField (by decide) (.bind (.withForm .readNumber bs) fun _ => .ok _)
  · exact .inField (by decide)
      (.bind (.withForm (.readMessage Entry.failsLocated_readInputField m.entries) bs) fun _ => .ok _)
  · exact .inField (by decide) (.bind (.withForm .readText bs) fun _ => .ok _)
  · exact .inField (by decide) (.bind (.withForm .readNumber bs) fun _ => .ok _)
  · exact .readUnknown _ _ _ _

theorem Message.failsLocated_decode (bs : Bytes) : FailsLocated (decode bs) := by
  intro m h
  unfold decode at h
  cases hread : readFields readField 0 blank bs with
  | ok found => rw [hread] at h; cases h
  | error m' =>
    rw [hread] at h
    cases h
    exact FailsLocated.readFields failsLocated_readField 0 blank bs m hread

theorem Fault.message_decoding (reason : String) : (decoding reason).message = "Decoding error: " ++ reason := rfl

theorem VarName.message_of_parse {raw : String} {f : Fault} (h : parse raw = .error f) :
    ∃ letter : String, (∀ c ∈ letter.toList, c ∈ raw.toList) ∧
      f.message = "Decoding error: " ++ ("invalid kind '" ++ letter ++ "' in assignment name '" ++ raw ++ "'") := by
  unfold parse at h
  split at h
  · cases h
  · rename_i base rest hcut
    have hraw : raw.toList = base ++ '.' :: rest := (cut?_eq_some_iff.1 hcut).2
    have hrest : ∀ c ∈ rest, c ∈ raw.toList := by
      intro c hc
      rw [hraw]
      exact List.mem_append_right base (List.mem_cons_of_mem '.' hc)
    split at h
    rename_i letter hint hsplit
    split at h
    · cases h
    · cases h
      refine ⟨String.ofList letter, ?_, rfl⟩
      rw [String.toList_ofList]
      split at hsplit
      · rename_i hhash
        have hletter := (cut?_eq_some_iff.1 hhash).2
        cases hsplit
        exact fun c hc => hrest c (hletter ▸ List.mem_append_left _ hc)
      · cases hsplit
        exact hrest

theorem VarName.mem_message_of_parse {raw : String} {f : Fault} (h : parse raw = .error f) {c : Char}
    (hc : c.toNat < 0x20) : c ∈ f.message.toList ↔ c ∈ raw.toList := by
  obtain ⟨letter, hletter, hmessage⟩ := message_of_parse h
  have hopening : c ∉ "Decoding error: ".toList := Visible.not_mem (by decide) hc
  have hkind : c ∉ "invalid kind '".toList := Visible.not_mem (by decide) hc
  have hname : c ∉ "' in assignment name '".toList := Visible.not_mem (by decide) hc
  have hclosing : c ∉ "'".toList := Visible.not_mem (by decide) hc
  rw [hmessage]
  simp only [String.toList_append, List.mem_append, hopening, hkind, hname, hclosing, false_or, or_false]
  exact ⟨fun hmem => hmem.elim (hletter c) id, .inr⟩

theorem Value.visible_of_decode {k : Kind} {b : Bytes} {f : Fault} (h : decode k b = .error f) :
    Visible f.message.toList := by
  unfold decode at h
  split at h
  · cases h
  · cases h
  · cases h
    change Visible ("Decoding error: " ++ ("integer value must be 4 bytes, got " ++ toString _)).toList
    rw [String.toList_append, String.toList_append]
    have hcount := Visible.append (by decide : Visible "integer value must be 4 bytes, got ".toList) (.natural b.length)
    exact Visible.append (by decide) hcount

theorem VarName.decodeEntry_eq_error_iff {raw : String} {octets : Bytes} {f : Fault} :
    decodeEntry raw octets = .error f ↔
      parse raw = .error f ∨ ∃ name, parse raw = .ok name ∧ Value.decode name.kind octets = .error f := by
  unfold decodeEntry
  cases parse raw with
  | error f' => simp [bind, Except.bind]
  | ok name => cases hvalue : Value.decode name.kind octets <;> simp [hvalue, bind, Except.bind, pure, Except.pure]

namespace TestCase

theorem ofMessage_eq_error_iff {m : Message} {f : Fault} :
    ofMessage m = .error f ↔ FailsFirst (fun e : Entry => VarName.decodeEntry e.name e.octets) m.entries f := by
  have hmap : (m.entries.map fun e => (e.name, e.octets)).mapM (fun e => VarName.decodeEntry e.1 e.2) =
      m.entries.mapM fun e => VarName.decodeEntry e.name e.octets := List.mapM_map
  rw [← mapM_eq_error_iff, ofMessage_eq_map, Assignment.decode_eq_map, hmap]
  cases m.entries.mapM fun e => VarName.decodeEntry e.name e.octets <;> simp [Except.map]

/-- The first entry of a record that does not decode has a name of an unknown kind. -/
def FailsAtName (payload : Bytes) (name : String) (f : Fault) : Prop :=
  ∃ (m : Message) (before : List Entry) (e : Entry) (after : List Entry),
    Message.decode payload = .ok m ∧ m.entries = before ++ e :: after ∧
    (∀ x ∈ before, ∃ found, VarName.decodeEntry x.name x.octets = .ok found) ∧
    e.name = name ∧ VarName.parse name = .error f

theorem FailsAtName.decodeRecord_eq {payload : Bytes} {name : String} {f : Fault} (h : FailsAtName payload name f) :
    decodeRecord payload = .error f := by
  obtain ⟨m, before, e, after, hm, hentries, hbefore, rfl, hparse⟩ := h
  have hentry : VarName.decodeEntry e.name e.octets = .error f := VarName.decodeEntry_eq_error_iff.2 (.inl hparse)
  rw [decodeRecord, hm]
  exact ofMessage_eq_error_iff.2 ⟨before, e, after, hentries, hbefore, hentry⟩

/-- A record is refused for a name of an unknown kind, or with a fault whose text has no control characters. -/
theorem failsAtName_or_visible {payload : Bytes} {f : Fault} (h : decodeRecord payload = .error f) :
    (∃ name, FailsAtName payload name f) ∨ Visible f.message.toList := by
  unfold decodeRecord at h
  split at h
  · rename_i m hm
    obtain ⟨before, e, after, hentries, hbefore, hentry⟩ := ofMessage_eq_error_iff.1 h
    obtain hparse | ⟨name, -, hvalue⟩ := VarName.decodeEntry_eq_error_iff.1 hentry
    · exact .inl ⟨e.name, m, before, e, after, hm, hentries, hbefore, rfl, hparse⟩
    · exact .inr (Value.visible_of_decode hvalue)
  · rename_i m hm
    cases h
    rw [Fault.message_decoding, String.toList_append, String.toList_append]
    have hmessage := (Message.failsLocated_decode payload m hm).visible_message
    exact .inr (.append (by decide) (.append (by decide) hmessage))

def BreaksLine (payload : Bytes) : Prop :=
  ∃ name f, FailsAtName payload name f ∧ '\n' ∈ name.toList

theorem FailsAtName.parse_eq {payload : Bytes} {name : String} {f : Fault} (h : FailsAtName payload name f) :
    VarName.parse name = .error f := by
  obtain ⟨-, -, -, -, -, -, -, -, hparse⟩ := h
  exact hparse

theorem breaksLine_iff {payload : Bytes} :
    BreaksLine payload ↔ ∃ f, decodeRecord payload = .error f ∧ '\n' ∈ f.message.toList := by
  constructor
  · rintro ⟨name, f, hname, hfeed⟩
    exact ⟨f, hname.decodeRecord_eq, (VarName.mem_message_of_parse hname.parse_eq (by decide)).2 hfeed⟩
  · rintro ⟨f, hrefused, hfeed⟩
    obtain ⟨name, hname⟩ | hvisible := failsAtName_or_visible hrefused
    · exact ⟨name, f, hname, (VarName.mem_message_of_parse hname.parse_eq (by decide)).1 hfeed⟩
    · exact absurd hfeed (hvisible.not_mem (by decide))

instance (payload : Bytes) : Decidable (BreaksLine payload) :=
  match h : decodeRecord payload with
  | .ok _ => .isFalse fun hbreaks => by
    obtain ⟨f, hrefused, -⟩ := breaksLine_iff.1 hbreaks
    rw [h] at hrefused
    cases hrefused
  | .error f => decidable_of_iff ('\n' ∈ f.message.toList) <| by
    rw [breaksLine_iff, h]
    simp

theorem getLast?_of_refused {payload : Bytes} {f : Fault} (h : decodeRecord payload = .error f) :
    f.message.toList.getLast? ≠ some '\r' := by
  obtain ⟨name, hname⟩ | hvisible := failsAtName_or_visible h
  · obtain ⟨letter, -, hmessage⟩ := VarName.message_of_parse hname.parse_eq
    have hquote : "'".toList = ['\''] := rfl
    simp only [hmessage, String.toList_append, hquote, ← List.append_assoc, List.getLast?_concat]
    decide
  · exact fun hlast => hvisible.not_mem (by decide) (List.mem_of_getLast? hlast)

end TestCase

end Concolic
