import Concolic.Proofs.EscapeGrammar
import Concolic.Proofs.RecordCodec

/-!
# Assignments from entries

An assignment is built from entries, or not at all if one of them is refused: then the first that is decides the
fault. Names come in the order in which they first came, with the value that came last. Overrides are entries
whose values are escaped, and to escape every octet brings any assignment back.
-/

namespace Concolic

namespace Assignment

theorem ofList_append_singleton (es : List (String × Value)) (e : String × Value) :
    ofList (es ++ [e]) = (ofList es).insert e.1 e.2 := by
  rw [ofList, List.foldl_append]
  rfl

theorem entries_ofList (es : List (String × Value)) : (ofList es).entries = Keyed.ofEntries es := by
  induction es using List.reverseRecOn with
  | nil => rfl
  | append_singleton es e ih =>
    have hinsert : ((ofList es).insert e.1 e.2).entries = Keyed.put e.1 e.2 (ofList es).entries := rfl
    rw [ofList_append_singleton, hinsert, ih, Keyed.ofEntries_append_singleton]

theorem names_ofList (es : List (String × Value)) :
    (ofList es).entries.map Prod.fst = (es.map Prod.fst).eraseDups := by
  rw [entries_ofList, Keyed.keys_ofEntries]

theorem get?_ofList (es : List (String × Value)) (name : String) :
    (ofList es).get? name = es.reverse.lookup name := by
  rw [get?, entries_ofList, Keyed.lookup_ofEntries]

theorem decode_eq_error_iff {es : List (String × Bytes)} {f : Fault} :
    decode es = .error f ↔ FailsFirst (fun e => VarName.decodeEntry e.1 e.2) es f := by
  rw [decode_eq_map, ← mapM_eq_error_iff]
  cases es.mapM fun e => VarName.decodeEntry e.1 e.2 <;> simp [Except.map]

theorem decode_eq_ok_iff {es : List (String × Bytes)} {a : Assignment} :
    decode es = .ok a ↔
      ∃ found, es.map (fun e => VarName.decodeEntry e.1 e.2) = found.map .ok ∧ a = ofList found := by
  rw [decode_eq_map]
  simp only [← mapM_eq_ok_iff]
  cases es.mapM fun e => VarName.decodeEntry e.1 e.2 <;> simp [Except.map, eq_comm]

theorem exists_decode_iff {es : List (String × Bytes)} :
    (∃ a, decode es = .ok a) ↔ ∀ e ∈ es, ∃ found, VarName.decodeEntry e.1 e.2 = .ok found := by
  constructor
  · rintro ⟨a, h⟩ e he
    obtain ⟨found, hfound, -⟩ := decode_eq_ok_iff.1 h
    have hmem : VarName.decodeEntry e.1 e.2 ∈ es.map fun e => VarName.decodeEntry e.1 e.2 :=
      List.mem_map.2 ⟨e, he, rfl⟩
    rw [hfound] at hmem
    obtain ⟨x, -, hx⟩ := List.mem_map.1 hmem
    exact ⟨x, hx.symm⟩
  · intro h
    cases hdecode : decode es with
    | ok a => exact ⟨a, rfl⟩
    | error f =>
      obtain ⟨before, e, after, rfl, -, he⟩ := decode_eq_error_iff.1 hdecode
      obtain ⟨found, hfound⟩ := h e (by simp)
      cases hfound.symm.trans he

/-- What an override is as an entry: its value is unescaped before its name is looked at. -/
def readOverride (name escaped : String) : Except Fault (String × Value) := do
  let octets ← (Escape.unescape escaped).mapError Escape.Malformed.fault
  VarName.decodeEntry name octets

theorem readOverride_of_ok {escaped : String} {octets : Bytes} (h : Escape.unescape escaped = .ok octets)
    (name : String) : readOverride name escaped = VarName.decodeEntry name octets := by
  rw [readOverride, h]
  rfl

theorem readOverride_of_error {escaped : String} {m : Escape.Malformed}
    (h : Escape.unescape escaped = .error m) (name : String) :
    readOverride name escaped = .error m.fault := by
  rw [readOverride, h]
  rfl

theorem exists_readOverride_iff {name escaped : String} :
    (∃ found, readOverride name escaped = .ok found) ↔
      ∃ octets found, Escape.unescape escaped = .ok octets ∧ VarName.decodeEntry name octets = .ok found := by
  cases h : Escape.unescape escaped with
  | error m => simp [readOverride_of_error h]
  | ok octets => simp [readOverride_of_ok h]

theorem readOverride_eq_error_iff {name escaped : String} {f : Fault} :
    readOverride name escaped = .error f ↔
      (∃ m, Escape.unescape escaped = .error m ∧ f = m.fault) ∨
      ∃ octets, Escape.unescape escaped = .ok octets ∧ VarName.decodeEntry name octets = .error f := by
  cases h : Escape.unescape escaped with
  | error m => simp [readOverride_of_error h, eq_comm]
  | ok octets => simp [readOverride_of_ok h]

theorem ofOverrides_eq_map (os : List (String × String)) :
    ofOverrides os = (os.mapM fun o => readOverride o.1 o.2).map ofList := by
  refine foldlM_insert (fun a o => ?_) os empty
  cases h : Escape.unescape o.2 with
  | error m =>
    rw [readOverride_of_error h]
    rfl
  | ok octets =>
    rw [readOverride_of_ok h]
    cases hentry : VarName.decodeEntry o.1 octets with
    | error f => simp [Except.mapError, bind, Except.bind, Except.map, hentry]
    | ok found => simp [Except.mapError, bind, Except.bind, Except.map, pure, Except.pure, hentry]

theorem ofOverrides_eq_error_iff {os : List (String × String)} {f : Fault} :
    ofOverrides os = .error f ↔ FailsFirst (fun o => readOverride o.1 o.2) os f := by
  rw [ofOverrides_eq_map, ← mapM_eq_error_iff]
  cases os.mapM fun o => readOverride o.1 o.2 <;> simp [Except.map]

theorem ofOverrides_of_unescaped {os : List (String × String)} {es : List (String × Bytes)}
    (h : List.Forall₂ (fun o e => o.1 = e.1 ∧ Escape.unescape o.2 = .ok e.2) os es) :
    ofOverrides os = decode es := by
  have hread : (os.mapM fun o => readOverride o.1 o.2) = es.mapM fun e => VarName.decodeEntry e.1 e.2 := by
    induction h with
    | nil => rfl
    | @cons o e os es hentry hrest ih =>
      rw [List.mapM_cons, List.mapM_cons, ih, readOverride_of_ok hentry.2, hentry.1]
  rw [ofOverrides_eq_map, decode_eq_map, hread]

/-- Whether overrides give these entries, each octet of a value spelled by two hexadecimal digits. -/
def SpelledOut (os : List (String × String)) (es : List (String × Bytes)) : Prop :=
  List.Forall₂ (fun o e => o.1 = e.1 ∧ Escape.SpellsHex e.2 o.2) os es

theorem exists_spelledOut (es : List (String × Bytes)) : ∃ os, SpelledOut os es := by
  induction es with
  | nil => exact ⟨[], .nil⟩
  | cons e es ih =>
    obtain ⟨escaped, hescaped⟩ := Escape.exists_spellsHex e.2
    obtain ⟨os, hos⟩ := ih
    exact ⟨(e.1, escaped) :: os, .cons ⟨rfl, hescaped⟩ hos⟩

theorem ofOverrides_of_spelledOut {os : List (String × String)} {es : List (String × Bytes)}
    (h : SpelledOut os es) : ofOverrides os = decode es :=
  ofOverrides_of_unescaped (h.imp fun _ _ hentry => ⟨hentry.1, Escape.unescape_of_spellsHex hentry.2⟩)

/-- What entries are decoded to, or which of them is refused; overrides as entries, or which of them is refused
and why; and overrides that bring an assignment back. -/
theorem built_from_entries :
    (∀ es : List (String × Bytes),
      ((∃ a, decode es = .ok a) ↔ ∀ e ∈ es, ∃ found, VarName.decodeEntry e.1 e.2 = .ok found) ∧
      (∀ f, decode es = .error f ↔ FailsFirst (fun e => VarName.decodeEntry e.1 e.2) es f) ∧
      ∀ a, decode es = .ok a → ∃ found : List (String × Value),
        es.map (fun e => VarName.decodeEntry e.1 e.2) = found.map .ok ∧
        (a.entries.map Prod.fst).Nodup ∧ a.entries.map Prod.fst = (found.map Prod.fst).eraseDups ∧
        ∀ name, a.get? name = found.reverse.lookup name) ∧
    (∀ os : List (String × String),
      (∀ es, List.Forall₂ (fun o e => o.1 = e.1 ∧ Escape.unescape o.2 = .ok e.2) os es →
        ofOverrides os = decode es) ∧
      ∀ f, ofOverrides os = .error f ↔ ∃ before o after, os = before ++ o :: after ∧
        (∀ x ∈ before, ∃ octets found,
          Escape.unescape x.2 = .ok octets ∧ VarName.decodeEntry x.1 octets = .ok found) ∧
        ((∃ m, Escape.unescape o.2 = .error m ∧ f = m.fault) ∨
          ∃ octets, Escape.unescape o.2 = .ok octets ∧ VarName.decodeEntry o.1 octets = .error f)) ∧
    ∀ a : Assignment, (∀ e ∈ a.entries, '.' ∉ e.1.toList) →
      (∃ os, SpelledOut os a.written) ∧ ∀ os, SpelledOut os a.written → ofOverrides os = .ok a := by
  refine ⟨fun es => ⟨exists_decode_iff, fun f => decode_eq_error_iff, fun a h => ?built⟩,
    fun os => ⟨fun es h => ofOverrides_of_unescaped h, fun f => ?refused⟩,
    fun a h => ⟨exists_spelledOut a.written, fun os hos => ?spelled⟩⟩
  case built =>
    obtain ⟨found, hfound, rfl⟩ := decode_eq_ok_iff.1 h
    exact ⟨found, hfound, (ofList found).nodup, names_ofList found, get?_ofList found⟩
  case refused =>
    simp only [ofOverrides_eq_error_iff, FailsFirst, exists_readOverride_iff, readOverride_eq_error_iff]
  case spelled =>
    rw [ofOverrides_of_spelledOut hos]
    exact (decode_written_iff a).2 h

/-- Entries of which two have the base `x`, with different kinds and hints. -/
def repeatedEntries : List (String × Bytes) :=
  [("x.i#0", [0x2A, 0x00, 0x00, 0x00]), ("n", [0x01]), ("x.s", [0xFF])]

def lastValues : Assignment :=
  .ofList [("x", .bytes [0xFF]), ("n", .bytes [0x01])]

theorem built_from_entries_repeatedName :
    decode repeatedEntries = .ok lastValues ∧
    (∃ found : List (String × Value),
      repeatedEntries.map (fun e => VarName.decodeEntry e.1 e.2) = found.map .ok ∧
      lastValues.entries.map Prod.fst = (found.map Prod.fst).eraseDups) ∧
    List.Forall₂ (fun o e => o.1 = e.1 ∧ Escape.unescape o.2 = .ok e.2) [("x.i", "*\\0\\00\\x00")]
      [("x.i", [0x2A, 0x00, 0x00, 0x00])] ∧
    ofOverrides [("x.i", "*\\0\\00\\x00")] = decode [("x.i", [0x2A, 0x00, 0x00, 0x00])] ∧
    (∀ e ∈ lastValues.entries, '.' ∉ e.1.toList) ∧
    ∃ os, SpelledOut os lastValues.written ∧ ofOverrides os = .ok lastValues := by
  have hdecode : decode repeatedEntries = .ok lastValues := by decide +kernel
  have hunescaped : List.Forall₂ (fun o e => o.1 = e.1 ∧ Escape.unescape o.2 = .ok e.2)
      [("x.i", "*\\0\\00\\x00")] [("x.i", [0x2A, 0x00, 0x00, 0x00])] :=
    .cons ⟨rfl, by decide +kernel⟩ .nil
  have hnames : ∀ e ∈ lastValues.entries, '.' ∉ e.1.toList := by decide +kernel
  obtain ⟨found, hfound, -, hbases, -⟩ := (built_from_entries.1 repeatedEntries).2.2 _ hdecode
  obtain ⟨⟨os, hos⟩, hback⟩ := built_from_entries.2.2 lastValues hnames
  exact ⟨hdecode, ⟨found, hfound, hbases⟩, hunescaped, (built_from_entries.2.1 _).1 _ hunescaped, hnames, os,
    hos, hback os hos⟩

end Assignment

end Concolic
