import Concolic.Proofs.RunTrace
import Concolic.Test.Exploration

/-!
# Acquisitions

A request is checked before anything is done about it. One that is not in order is refused in the same words by every
engine and in every replay, and leaves no trace. Of one that is in order the engine hears once, and a replay looks up
its name once.
-/

namespace Concolic

/-- A request for a number is refused if both bounds are given and the lower one exceeds the upper one. -/
inductive IntRequest.Refused (r : IntRequest) : Fault → Prop
  | crossed {min max : Int32} (hmin : r.min = some min) (hmax : r.max = some max) (h : max < min) :
      Refused r (.configuration s!"'{r.name}': min_value {min.toInt} exceeds max_value {max.toInt}")

/-- A request for a byte string is refused if its default is a number, and only then for its sizes: if both are given
and the least one exceeds the greatest one. -/
inductive SequenceRequest.Refused (r : SequenceRequest) : Fault → Prop
  | number {n : Int32} (hdefault : r.default = .int n) :
      Refused r (.configuration s!"'{r.name}': default value must be a byte string, got {toString r.default}")
  | crossed {b : Bytes} {min max : Nat} (hdefault : r.default = .bytes b) (hmin : r.minSize = some min)
      (hmax : r.maxSize = some max) (h : max < min) :
      Refused r (.configuration s!"'{r.name}': min_size {min} exceeds max_size {max}")

/-- What is done about a request in order. The engine is called, and may then be told something of its answer; a replay
looks up a name, shows it with the default if it is missing, and converts its value otherwise. -/
structure Acquisition where
  call : EngineCall
  told : call.Answer → List EngineCall
  name : String
  shown : String
  default : call.Answer
  convert : Value → Except Fault call.Answer

def IntRequest.acquisition (r : IntRequest) : Acquisition where
  call := .symbolicInt r.default r.name r.max r.min
  told _ := []
  name := r.name
  shown := toString r.default.toInt
  default := r.default
  convert := Value.toInt

/-- A byte string is acquired with its default and its sizes, and the engine may be told that it is ASCII text. -/
def SequenceRequest.acquisition (r : SequenceRequest) : Acquisition where
  call := .symbolicSequence r.default.toBytes r.name r.maxSize r.minSize
  told b := if r.asciiOnly then [.assumeAscii b] else []
  name := r.name
  shown := toString r.default
  default := r.default.toBytes
  convert v := .ok v.toBytes

/-- How an acquisition is answered that is refused for some faults. In both modes a refusal is the same fault and does
nothing. In order, the acquisition is one call on the engine, whose answer is given; in a replay it is the default with
one note, or the value of the name, converted, without any. -/
structure Acquisition.Answered (q : Acquisition) (refused : Fault → Prop)
    (explore : {ε : Type} → Engine ε → Run ε (Except Fault q.call.Answer))
    (replay : Assignment → Run (List String) (Except Fault q.call.Answer)) : Prop where
  refused_explored {f : Fault} (h : refused f) {ε : Type} (E : Engine ε) (s : ε) : explore E s = ⟨.error f, s, []⟩
  refused_replayed {f : Fault} (h : refused f) (a : Assignment) (log : List String) :
    replay a log = ⟨.error f, log, []⟩
  explored (h : ∀ f, ¬ refused f) {ε : Type} (E : Engine ε) (s : ε) :
    (explore E s).value = .ok (E.answer q.call s).1 ∧
      (explore E s).trace.engineCalls = q.call :: q.told (E.answer q.call s).1
  unbound (h : ∀ f, ¬ refused f) {a : Assignment} (hget : a.get? q.name = none) (log : List String) :
    replay a log = ⟨.ok q.default, log, [.logged (.plain .info
      s!"Key '{q.name}' not found in assignment. Using default '{q.shown}'.")]⟩
  bound (h : ∀ f, ¬ refused f) {a : Assignment} {v : Value} (hget : a.get? q.name = some v) (log : List String) :
    replay a log = ⟨q.convert v, log, []⟩

/-- An acquisition is so answered, and in no mode is anything but a refusal an error of configuration. -/
structure Acquisition.Checked (q : Acquisition) (refused : Fault → Prop)
    (explore : {ε : Type} → Engine ε → Run ε (Except Fault q.call.Answer))
    (replay : Assignment → Run (List String) (Except Fault q.call.Answer)) : Prop
    extends q.Answered refused explore replay where
  misconfigured_explored {ε : Type} (E : Engine ε) (s : ε) (reason : String) :
    (explore E s).value = .error (.configuration reason) ↔ refused (.configuration reason)
  misconfigured_replayed (a : Assignment) (log : List String) (reason : String) :
    (replay a log).value = .error (.configuration reason) ↔ refused (.configuration reason)

namespace Value

theorem toInt_eq_error_iff {v : Value} {f : Fault} :
    v.toInt = .error f ↔ ∃ b, v = .bytes b ∧
      ((Utf8.decodeChars? b).bind fun s => Decimal.int32? (trim s)) = none ∧
      f = .decoding s!"value '{Utf8.lossy b}' is not an integer" := by
  cases v with
  | int n => simp [toInt]
  | bytes b =>
    simp only [toInt, bytes.injEq, exists_eq_left']
    cases (Utf8.decodeChars? b).bind fun s => Decimal.int32? (trim s) with
    | some n => simp
    | none => simp [eq_comm]

end Value

namespace IntRequest

variable {r : IntRequest}

theorem validate_of_refused {f : Fault} (h : r.Refused f) : r.validate = .error f := by
  cases h with
  | crossed hmin hmax hlt => simp only [validate, hmin, hmax, hlt, if_true]

theorem validate_of_not_refused (h : ∀ f, ¬ r.Refused f) : r.validate = .ok () := by
  unfold validate
  split
  · rename_i min max hmin hmax
    exact if_neg fun hlt => h _ (.crossed hmin hmax hlt)
  · rfl

end IntRequest

namespace SequenceRequest

variable {r : SequenceRequest}

theorem defaultBytes_of_bytes {b : Bytes} (h : r.default = .bytes b) : r.defaultBytes = .ok b := by
  simp only [defaultBytes, h, Value.bytes?]

theorem validate_of_refused {f : Fault} (h : r.Refused f) : r.validate = .error f := by
  cases h with
  | number hdefault => simp [validate, defaultBytes, hdefault, Value.bytes?, bind, Except.bind]
  | crossed hdefault hmin hmax hlt =>
    rw [validate, defaultBytes_of_bytes hdefault]
    simp only [hmin, hmax, hlt, if_true, bind, Except.bind]

theorem exists_default_of_not_refused (h : ∀ f, ¬ r.Refused f) : ∃ b, r.default = .bytes b := by
  cases hdefault : r.default with
  | bytes b => exact ⟨b, rfl⟩
  | int n => exact absurd (.number hdefault) (h _)

theorem defaultBytes_of_not_refused (h : ∀ f, ¬ r.Refused f) : r.defaultBytes = .ok r.default.toBytes := by
  obtain ⟨b, hdefault⟩ := exists_default_of_not_refused h
  rw [defaultBytes_of_bytes hdefault, hdefault, Value.toBytes]

theorem validate_of_not_refused (h : ∀ f, ¬ r.Refused f) : r.validate = .ok () := by
  obtain ⟨b, hdefault⟩ := exists_default_of_not_refused h
  rw [validate, defaultBytes_of_bytes hdefault]
  simp only [bind, Except.bind]
  split
  · rename_i min max hmin hmax
    exact if_neg fun hlt => h _ (.crossed hdefault hmin hmax hlt)
  · rfl

end SequenceRequest

namespace Acquisition

variable {q : Acquisition} {refused : Fault → Prop}
  {explore : {ε : Type} → Engine ε → Run ε (Except Fault q.call.Answer)}
  {replay : Assignment → Run (List String) (Except Fault q.call.Answer)}

theorem eq_error_iff_refused {α : Type} {given : Except Fault α} {f : Fault}
    (hrefused : ∀ g, refused g → given = .error g) (horder : (∀ g, ¬ refused g) → given ≠ .error f) :
    given = .error f ↔ refused f := by
  refine ⟨fun hgiven => ?_, hrefused f⟩
  by_cases h : ∃ g, refused g
  · obtain ⟨g, hg⟩ := h
    rw [hrefused g hg, Except.error.injEq] at hgiven
    rwa [← hgiven]
  · exact absurd hgiven (horder (not_exists.1 h))

theorem Answered.checked (h : q.Answered refused explore replay)
    (hconvert : ∀ v reason, q.convert v ≠ .error (.configuration reason)) :
    q.Checked refused explore replay := by
  refine { h with misconfigured_explored := ?_, misconfigured_replayed := ?_ }
  · intro ε E s reason
    refine eq_error_iff_refused (fun g hg => by rw [h.refused_explored hg]) fun horder => ?_
    rw [(h.explored horder E s).1]
    simp
  · intro a log reason
    refine eq_error_iff_refused (fun g hg => by rw [h.refused_replayed hg]) fun horder => ?_
    cases hget : a.get? q.name with
    | none =>
      rw [h.unbound horder hget]
      simp
    | some v =>
      rw [h.bound horder hget]
      exact hconvert v reason

end Acquisition

theorem IntRequest.answered (r : IntRequest) :
    r.acquisition.Answered r.Refused (fun E => E.reply (.int r)) fun a => a.reply (.int r) where
  refused_explored h ε E s := by
    simp only [Engine.reply, validate_of_refused h]
    rfl
  refused_replayed h a log := by
    simp only [Assignment.reply, validate_of_refused h]
    rfl
  explored h ε E s := by
    simp [Engine.reply, validate_of_not_refused h, acquisition]
  unbound h a hget log := by
    change a.get? r.name = none at hget
    simp [Assignment.reply, validate_of_not_refused h, Assignment.lookUp, acquisition, hget]
  bound h a v hget log := by
    change a.get? r.name = some v at hget
    simp [Assignment.reply, validate_of_not_refused h, Assignment.lookUp, acquisition, hget]

theorem SequenceRequest.answered (t : SequenceRequest) :
    t.acquisition.Answered t.Refused (fun E => E.reply (.sequence t)) fun a => a.reply (.sequence t) where
  refused_explored h ε E s := by
    simp only [Engine.reply, validate_of_refused h]
    rfl
  refused_replayed h a log := by
    simp only [Assignment.reply, validate_of_refused h]
    rfl
  explored h ε E s := by
    cases hascii : t.asciiOnly <;>
      simp [Engine.reply, validate_of_not_refused h, defaultBytes_of_not_refused h, acquisition, hascii]
  unbound h a hget log := by
    change a.get? t.name = none at hget
    simp [Assignment.reply, validate_of_not_refused h, Assignment.lookUp, defaultBytes_of_not_refused h, acquisition,
      hget]
  bound h a v hget log := by
    change a.get? t.name = some v at hget
    simp [Assignment.reply, validate_of_not_refused h, Assignment.lookUp, acquisition, hget]

/-- Requests are checked before anything is done about them, alike in an exploration and in a replay. What is in order
is acquired, and fails only in a replay whose value for a number is a byte string that is the text of none. -/
theorem acquisitions_checked_first (r : IntRequest) (t : SequenceRequest) :
    r.acquisition.Checked r.Refused (fun E => E.reply (.int r)) (fun a => a.reply (.int r)) ∧
      t.acquisition.Checked t.Refused (fun E => E.reply (.sequence t)) (fun a => a.reply (.sequence t)) ∧
      (∀ v f, r.acquisition.convert v = .error f ↔ ∃ b, v = .bytes b ∧
        ((Utf8.decodeChars? b).bind fun s => Decimal.int32? (trim s)) = none ∧
        f = .decoding s!"value '{Utf8.lossy b}' is not an integer") ∧
      ∀ v f, t.acquisition.convert v ≠ .error f := by
  have hint (v : Value) (f : Fault) := v.toInt_eq_error_iff (f := f)
  have hsequence (v : Value) (f : Fault) : t.acquisition.convert v ≠ .error f := by simp [SequenceRequest.acquisition]
  refine ⟨r.answered.checked ?_, t.answered.checked fun v reason => hsequence v _, hint, hsequence⟩
  intro v reason hconvert
  obtain ⟨b, -, -, hdecoding⟩ := (hint v _).1 hconvert
  cases hdecoding

end Concolic
