import Concolic.Proofs.Naming
import Concolic.Proofs.RecordLayout

/-!
# Records joined

Two records one after the other are read as one: the fields of the second count over those of the first, and the
entries are joined. Why octets are refused does not depend on what stands before them.
-/

namespace Concolic

namespace Wire

variable {α β σ τ : Type} {field : σ → Key → Bytes → Reading (σ × Bytes)}

/-- Two readings leave the same octets or fail for the same reason. -/
inductive Alike : Reading (α × Bytes) → Reading (β × Bytes) → Prop
  | ok (a : α) (b : β) (r : Bytes) : Alike (.ok (a, r)) (.ok (b, r))
  | error (e : Malformed) : Alike (.error e) (.error e)

namespace Alike

theorem refl (x : Reading (α × Bytes)) : Alike x x := by
  cases x with
  | error e => exact error e
  | ok a => exact ok a.1 a.1 a.2

theorem inField {x : Reading (α × Bytes)} {y : Reading (β × Bytes)} (h : Alike x y) (name : String) :
    Alike (Wire.inField name x) (Wire.inField name y) := by
  cases h with
  | ok a b r => exact ok a b r
  | error e => exact error _

theorem bind {x : Reading (α × Bytes)} {y : Reading (β × Bytes)} (h : Alike x y)
    {f : α × Bytes → Reading (σ × Bytes)} {g : β × Bytes → Reading (τ × Bytes)}
    (hnext : ∀ a b r, Alike (f (a, r)) (g (b, r))) : Alike (x >>= f) (y >>= g) := by
  cases h with
  | ok a b r => exact hnext a b r
  | error e => exact error e

theorem gather {x : Reading (α × Bytes)} {y : Reading (β × Bytes)} (h : Alike x y) (name : String)
    {f : α × Bytes → Reading (σ × Bytes)} {g : β × Bytes → Reading (τ × Bytes)} {s : α → σ} {t : β → τ}
    (hf : ∀ a r, f (a, r) = .ok (s a, r)) (hg : ∀ b r, g (b, r) = .ok (t b, r)) :
    Alike (Wire.inField name (x >>= f)) (Wire.inField name (y >>= g)) := by
  refine (h.bind fun a b r => ?_).inField name
  rw [hf, hg]
  exact ok (s a) (t b) r

end Alike

/-- What a reader leaves of the octets, and why it refuses them, does not depend on what has been gathered. -/
def Indifferent (field : σ → Key → Bytes → Reading (σ × Bytes)) : Prop :=
  ∀ s s' key bs, Alike (field s key bs) (field s' key bs)

theorem alike_readUnknown (depth : Nat) (s s' : σ) (key : Key) (bs : Bytes) :
    Alike (readUnknown depth s key bs) (readUnknown depth s' key bs) := by
  unfold readUnknown
  cases skip depth key bs with
  | ok r => exact .ok s s' r
  | error e => exact .error _

namespace Indifferent

theorem readFields (h : Indifferent field) (limit : Nat) (s s' : σ) (bs : Bytes) :
    Alike (readFields field limit s bs) (Wire.readFields field limit s' bs) := by
  induction hn : bs.length using Nat.strongRecOn generalizing s s' bs with
  | ind n ih =>
    rw [Wire.readFields, Wire.readFields.eq_def field limit s' bs]
    split
    · exact .ok s s' bs
    · split
      · exact .error _
      · next key r hkey =>
        have hfield := h s s' key r
        generalize field s key r = x at hfield
        generalize field s' key r = y at hfield
        cases hfield with
        | error e => exact .error e
        | ok a b r' =>
          simp only
          split
          · next hless => exact ih r'.length (hn ▸ hless) a b r' rfl
          · exact .ok a b r'

theorem readMessage (h : Indifferent field) (s s' : σ) (bs : Bytes) :
    Alike (readMessage field s bs) (Wire.readMessage field s' bs) := by
  unfold Wire.readMessage
  cases readNumber bs with
  | error e => exact .error e
  | ok found =>
    obtain ⟨n, r⟩ := found
    simp only [Bind.bind, Except.bind]
    split
    · exact .error _
    · refine (h.readFields (r.length - n) s s' r).bind fun a b r' => ?_
      simp only
      split
      · exact .ok a b r'
      · exact .error _

end Indifferent

end Wire

namespace Entry

open Wire

theorem indifferent_readInputField : Indifferent readInputField := by
  intro es es' key bs
  unfold readInputField
  split
  · exact (Alike.refl _).gather _ (fun _ _ => rfl) fun _ _ => rfl
  · exact alike_readUnknown 99 es es' key bs

end Entry

namespace Message

open Wire

theorem indifferent_readField : Indifferent readField := by
  intro m m' key bs
  unfold readField
  split
  · exact (Alike.refl _).gather _ (fun _ _ => rfl) fun _ _ => rfl
  split
  · -- The entries that have been gathered are handed to the reader of the input.
    refine Alike.gather ?_ _ (fun _ _ => rfl) fun _ _ => rfl
    unfold withForm
    split
    · exact Entry.indifferent_readInputField.readMessage m.entries m'.entries bs
    · exact .error _
  split
  · exact (Alike.refl _).gather _ (fun _ _ => rfl) fun _ _ => rfl
  split
  · exact (Alike.refl _).gather _ (fun _ _ => rfl) fun _ _ => rfl
  · exact alike_readUnknown 100 m m' key bs

theorem decode_append_of_error {m : Message} {a b : Bytes} {e : Malformed} (ha : decode a = .ok m)
    (hb : decode b = .error e) : decode (a ++ b) = .error e := by
  obtain ⟨fs, hlayout, rfl⟩ := decode_eq_ok_iff.1 ha
  have hread := readsFields.advances hlayout blank 0 b (Nat.zero_le _)
  have hrest := indifferent_readField.readFields 0 (fs.foldl set blank) blank b
  unfold decode at hb ⊢
  rw [hread]
  generalize readFields readField 0 blank b = x at hb hrest
  generalize readFields readField 0 (fs.foldl set blank) b = y at hrest
  cases hrest with
  | ok m m' r => cases hb
  | error e' =>
    cases hb
    rfl

theorem setAll_append (m : Message) (fs gs : List Field) : m.setAll (fs ++ gs) = (m.setAll fs).setAll gs := by
  rw [← foldl_set, ← foldl_set, ← foldl_set, List.foldl_append]

theorem decode_append_of_laidOut {m : Message} {a b : Bytes} {fs : List Field} (ha : decode a = .ok m)
    (hb : LaidOut fs b) : decode (a ++ b) = .ok (m.setAll fs) := by
  obtain ⟨gs, hlayout, rfl⟩ := decode_eq_ok_iff.1 ha
  exact decode_eq_ok_iff.2 ⟨gs ++ fs, hlayout.append hb, (setAll_append blank gs fs).symm⟩

end Message

namespace Keyed

variable {α : Type}

theorem put_put (key : String) (v w : α) (es : List (String × α)) :
    put key w (put key v es) = put key w es := by
  induction es with
  | nil => simp [put]
  | cons e es ih =>
    obtain ⟨k, u⟩ := e
    by_cases h : k = key <;> simp [put, h, ih]

/-- A key that is there already keeps its place, so that it can be put before or after another. -/
theorem put_comm {key other : String} {es : List (String × α)} (h : key ∈ es.map Prod.fst)
    (hne : key ≠ other) (v w : α) : put key v (put other w es) = put other w (put key v es) := by
  induction es with
  | nil => simp at h
  | cons e es ih =>
    obtain ⟨k, u⟩ := e
    by_cases hkey : k = key
    · subst hkey
      simp [put, hne]
    · by_cases hother : k = other
      · subst hother
        simp [put, hkey]
      · have hmem : key ∈ es.map Prod.fst := by simpa [Ne.symm hkey] using h
        simp [put, hkey, hother, ih hmem]

end Keyed

namespace Assignment

theorem insert_insert (a : Assignment) (name : String) (v w : Value) :
    (a.insert name v).insert name w = a.insert name w :=
  eq_of_entries (Keyed.put_put name v w a.entries)

theorem insert_comm {a : Assignment} {name other : String} (h : name ∈ a.entries.map Prod.fst)
    (hne : name ≠ other) (v w : Value) :
    (a.insert other w).insert name v = (a.insert name v).insert other w :=
  eq_of_entries (Keyed.put_comm h hne v w)

theorem names_insert (a : Assignment) (name : String) (v : Value) :
    (a.insert name v).entries.map Prod.fst =
      if name ∈ a.entries.map Prod.fst then a.entries.map Prod.fst
      else a.entries.map Prod.fst ++ [name] :=
  Keyed.map_fst_put name v a.entries

/-- The assignment with the values of another at its names. -/
def override (a b : Assignment) : Assignment :=
  b.entries.foldl (fun a e => a.insert e.1 e.2) a

theorem foldl_insert_insert {a : Assignment} {name : String} {es : List (String × Value)}
    (h : name ∈ a.entries.map Prod.fst) (hes : name ∉ es.map Prod.fst) (v : Value) :
    (es.foldl (fun a e => a.insert e.1 e.2) a).insert name v =
      es.foldl (fun a e => a.insert e.1 e.2) (a.insert name v) := by
  induction es generalizing a with
  | nil => rfl
  | cons e es ih =>
    simp only [List.map_cons, List.mem_cons, not_or] at hes
    have hmem : name ∈ (a.insert e.1 e.2).entries.map Prod.fst := by
      rw [names_insert]
      split <;> simp [h]
    rw [List.foldl_cons, List.foldl_cons, ih hmem hes.2, insert_comm h hes.1]

theorem foldl_insert_put {es : List (String × Value)} (hes : (es.map Prod.fst).Nodup) (a : Assignment)
    (name : String) (v : Value) :
    (Keyed.put name v es).foldl (fun a e => a.insert e.1 e.2) a =
      (es.foldl (fun a e => a.insert e.1 e.2) a).insert name v := by
  induction es generalizing a with
  | nil => rfl
  | cons e es ih =>
    obtain ⟨k, w⟩ := e
    simp only [List.map_cons, List.nodup_cons] at hes
    by_cases hk : k = name
    · subst hk
      have hmem : k ∈ (a.insert k w).entries.map Prod.fst := by
        rw [names_insert]
        split <;> simp_all
      simp only [Keyed.put, if_true, List.foldl_cons, foldl_insert_insert hmem hes.1, insert_insert]
    · simp only [Keyed.put, if_neg hk, List.foldl_cons, ih hes.2]

theorem override_insert (a b : Assignment) (name : String) (v : Value) :
    a.override (b.insert name v) = (a.override b).insert name v :=
  foldl_insert_put b.nodup a name v

theorem override_ofList (a : Assignment) (es : List (String × Value)) :
    a.override (ofList es) = es.foldl (fun a e => a.insert e.1 e.2) a := by
  have hgeneral : ∀ b, a.override (es.foldl (fun a e => a.insert e.1 e.2) b) =
      es.foldl (fun a e => a.insert e.1 e.2) (a.override b) := by
    intro b
    induction es generalizing b with
    | nil => rfl
    | cons e es ih => rw [List.foldl_cons, ih, override_insert, List.foldl_cons]
  exact hgeneral empty

theorem ofList_append (es fs : List (String × Value)) :
    ofList (es ++ fs) = (ofList es).override (ofList fs) := by
  rw [override_ofList, ofList, List.foldl_append]
  rfl

theorem get?_foldl_insert {es : List (String × Value)} (hes : (es.map Prod.fst).Nodup) (a : Assignment)
    (name : String) :
    (es.foldl (fun a e => a.insert e.1 e.2) a).get? name = (es.lookup name).or (a.get? name) := by
  induction es generalizing a with
  | nil => rfl
  | cons e es ih =>
    obtain ⟨k, v⟩ := e
    simp only [List.map_cons, List.nodup_cons] at hes
    rw [List.foldl_cons, ih hes.2, get?_insert, Keyed.lookup_cons]
    by_cases hk : name = k
    · subst hk
      have hnone : es.lookup name = none := by
        rw [List.lookup_eq_none_iff]
        intro e he
        simp only [bne_iff_ne, ne_eq]
        rintro rfl
        exact hes.1 (List.mem_map_of_mem he)
      simp [hnone]
    · simp [hk]

theorem get?_override (a b : Assignment) (name : String) :
    (a.override b).get? name = (b.get? name).or (a.get? name) :=
  get?_foldl_insert b.nodup a name

theorem decode_append (es fs : List (String × Bytes)) :
    decode (es ++ fs) = do
      let a ← decode es
      let b ← decode fs
      return a.override b := by
  simp only [decode_eq_map, List.mapM_append]
  cases es.mapM fun e => VarName.decodeEntry e.1 e.2 with
  | error f => rfl
  | ok found =>
    cases fs.mapM fun e => VarName.decodeEntry e.1 e.2 with
    | error f => rfl
    | ok found' =>
      simp only [bind, Except.bind, pure, Except.pure, Except.map, ofList_append]

end Assignment

namespace TestCase

open Message

/-- Two records joined are read as one: the last time stamp, output and path identifier of the second count, or
those of the first if the second has none, and the entries are joined, those of the second counting over those
of the first. Octets that are no record are refused after a record for the same reason as alone. -/
theorem decodeRecord_append {a b : Bytes} {m : Message} (ha : Message.decode a = .ok m) :
    (∀ m', Message.decode b = .ok m' → ∃ joined : Message,
      Message.decode (a ++ b) = .ok joined ∧
      (∃ fs, LaidOut fs b) ∧
      (∀ fs, LaidOut fs b →
        joined.timeStamp = (fs.filterMap Field.timeStamp?).getLastD m.timeStamp ∧
        joined.output = (fs.filterMap Field.output?).getLastD m.output ∧
        joined.pathId = (fs.filterMap Field.pathId?).getLastD m.pathId) ∧
      joined.entries = m.entries ++ m'.entries ∧
      decodeRecord (a ++ b) = ofMessage joined ∧
      decodeRecord (a ++ b) = do
        let x ← Assignment.decode (m.entries.map fun e => (e.name, e.octets))
        let y ← Assignment.decode (m'.entries.map fun e => (e.name, e.octets))
        return ⟨joined.timeStamp, x.override y, joined.output, joined.pathId⟩) ∧
    (∀ (x y : Assignment) name, (x.override y).get? name = (y.get? name).or (x.get? name)) ∧
    ∀ e, Message.decode b = .error e →
      Message.decode (a ++ b) = .error e ∧ decodeRecord (a ++ b) = decodeRecord b := by
  refine ⟨fun m' hb => ?joined, Assignment.get?_override, fun e hb => ?refused⟩
  case joined =>
    obtain ⟨fs, hlayout, rfl⟩ := decode_eq_ok_iff.1 hb
    have hjoined := decode_append_of_laidOut ha hlayout
    have hrecord : decodeRecord (a ++ b) = ofMessage (m.setAll fs) := by rw [decodeRecord, hjoined]
    refine ⟨m.setAll fs, hjoined, ⟨fs, hlayout⟩, fun gs hgs => ?_, by simp [setAll, blank], hrecord, ?_⟩
    · have hsame := hjoined.symm.trans (decode_append_of_laidOut ha hgs)
      rw [Except.ok.inj hsame]
      exact ⟨rfl, rfl, rfl⟩
    · have hentries : (m.setAll fs).entries = m.entries ++ (blank.setAll fs).entries := by
        simp [setAll, blank]
      rw [hrecord, ofMessage, hentries, List.map_append, Assignment.decode_append, bind_assoc]
      simp only [bind_assoc, pure_bind]
  case refused =>
    have hrefused := decode_append_of_error ha hb
    exact ⟨hrefused, by rw [decodeRecord, decodeRecord, hrefused, hb]⟩

def firstRecord : Bytes :=
  [0x08, 0x05, 0x12, 0x08, 0x0A, 0x06, 0x0A, 0x01, 0x6E, 0x12, 0x01, 0x61, 0x1A, 0x01, 0x78]

/-- A record with the time stamp 0, which is there, another value of `n`, and no output. -/
def secondRecord : Bytes :=
  [0x08, 0x00, 0x12, 0x08, 0x0A, 0x06, 0x0A, 0x01, 0x6E, 0x12, 0x01, 0x62]

theorem decodeRecord_append_first_second :
    Message.decode firstRecord = .ok ⟨5, [⟨"n", [0x61]⟩], "x", 0⟩ ∧
    Message.decode secondRecord = .ok ⟨0, [⟨"n", [0x62]⟩], "", 0⟩ ∧
    Message.decode [0x12, 0x05] = .error ⟨["TestCaseMessage.input"], .underflow⟩ ∧
    (∃ joined : Message, Message.decode (firstRecord ++ secondRecord) = .ok joined ∧
      joined.entries = [⟨"n", [0x61]⟩, ⟨"n", [0x62]⟩] ∧
      decodeRecord (firstRecord ++ secondRecord) = ofMessage joined) ∧
    decodeRecord (firstRecord ++ [0x12, 0x05]) = decodeRecord [0x12, 0x05] := by
  have hfirst : Message.decode firstRecord = .ok ⟨5, [⟨"n", [0x61]⟩], "x", 0⟩ := by decide +kernel
  have hsecond : Message.decode secondRecord = .ok ⟨0, [⟨"n", [0x62]⟩], "", 0⟩ := by decide +kernel
  have hcut : Message.decode [0x12, 0x05] = .error ⟨["TestCaseMessage.input"], .underflow⟩ := by decide +kernel
  obtain ⟨joined, hdecoded, -, -, hentries, hrecord, -⟩ := (decodeRecord_append hfirst).1 _ hsecond
  obtain ⟨-, hrefused⟩ := (decodeRecord_append hfirst).2.2 _ hcut
  exact ⟨hfirst, hsecond, hcut, ⟨joined, hdecoded, hentries, hrecord⟩, hrefused⟩

end TestCase

end Concolic
