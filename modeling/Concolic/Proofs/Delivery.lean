import Concolic.Stream.Frame
import Mathlib.Algebra.Group.Nat.Defs

/-!
# Frames however they are delivered

What a source delivers is a sequence of octets and then the end or an error; how the octets are divided among
its answers, and how often it is interrupted, makes no difference to a reader of frames. The frames of octets
are cut off one after another from their start.
-/

namespace Concolic

/-- What a source delivers: octets in non-empty reads, with interruptions anywhere, and then the end or an
error, whatever it would answer after that. -/
inductive Delivers : Feed → Bytes → Option String → Prop
  | exhausted : Delivers [] [] none
  | ended (f : Feed) : Delivers (.octets [] :: f) [] none
  | failed (reason : String) (f : Feed) : Delivers (.failed reason :: f) [] (some reason)
  | interrupted {f : Feed} {b : Bytes} {e : Option String} (h : Delivers f b e) :
      Delivers (.interrupted :: f) b e
  | octets {f : Feed} {a b : Bytes} {e : Option String} (ha : a ≠ []) (h : Delivers f b e) :
      Delivers (.octets a :: f) (a ++ b) e

namespace Feed

theorem take_zero (f : Feed) : take 0 f = (.ok [], f) := by
  cases f <;> rfl

theorem delivers_ofBytes (b : Bytes) : Delivers (ofBytes b) b none := by
  unfold ofBytes
  by_cases hb : b = []
  · subst hb
    exact .exhausted
  · rw [if_neg (by simpa using hb)]
    have h := Delivers.octets hb .exhausted
    rwa [List.append_nil] at h

theorem exists_delivers (f : Feed) : ∃ b e, Delivers f b e := by
  induction f with
  | nil => exact ⟨[], none, .exhausted⟩
  | cons d f ih =>
    obtain ⟨b, e, h⟩ := ih
    cases d with
    | interrupted => exact ⟨b, e, .interrupted h⟩
    | failed reason => exact ⟨[], some reason, .failed reason f⟩
    | octets a =>
      by_cases ha : a = []
      · exact ⟨[], none, ha ▸ .ended f⟩
      · exact ⟨a ++ b, e, .octets ha h⟩

theorem take_of_le {f : Feed} {b : Bytes} {e : Option String} (h : Delivers f b e) {n : Nat}
    (hn : n ≤ b.length) :
    ∃ g, f.take n = (.ok (b.take n), g) ∧ Delivers g (b.drop n) e := by
  induction h generalizing n with
  | exhausted =>
    obtain rfl : n = 0 := by simpa using hn
    exact ⟨[], rfl, .exhausted⟩
  | ended f =>
    obtain rfl : n = 0 := by simpa using hn
    exact ⟨_, take_zero _, .ended f⟩
  | failed reason f =>
    obtain rfl : n = 0 := by simpa using hn
    exact ⟨_, take_zero _, .failed reason f⟩
  | @interrupted f b e h ih =>
    cases n with
    | zero => exact ⟨_, take_zero _, .interrupted h⟩
    | succ n =>
      obtain ⟨g, htake, hg⟩ := ih hn
      exact ⟨g, by rw [take]; exact htake, hg⟩
  | @octets f a b e ha h ih =>
    cases n with
    | zero => exact ⟨_, take_zero _, .octets ha h⟩
    | succ n =>
      have hne : ¬ a.isEmpty = true := by simpa using ha
      by_cases hlt : n + 1 < a.length
      · -- The read leaves the rest of the answer to the next one.
        have hrest : a.drop (n + 1) ≠ [] := by simpa using hlt
        rw [take, if_neg hne, if_pos hlt, List.take_append_of_le_length (by omega),
          List.drop_append_of_le_length (by omega)]
        exact ⟨_, rfl, .octets hrest h⟩
      · have hmore : n + 1 - a.length ≤ b.length := by
          rw [List.length_append] at hn
          omega
        obtain ⟨g, htake, hg⟩ := ih hmore
        have hhead : (a ++ b).take (n + 1) = a ++ b.take (n + 1 - a.length) := by
          rw [List.take_append, List.take_of_length_le (by omega)]
        have htail : (a ++ b).drop (n + 1) = b.drop (n + 1 - a.length) := by
          rw [List.drop_append, List.drop_of_length_le (by omega), List.nil_append]
        refine ⟨g, ?_, ?_⟩
        · rw [take, if_neg hne, if_neg hlt, htake, hhead]
          rfl
        · rw [htail]
          exact hg

theorem take_of_lt {f : Feed} {b : Bytes} {e : Option String} (h : Delivers f b e) {n : Nat}
    (hn : b.length < n) : ∃ g, f.take n = (e.elim (.ok b) .error, g) := by
  induction h generalizing n with
  | exhausted =>
    cases n with
    | zero => cases hn
    | succ n => exact ⟨[], rfl⟩
  | ended f =>
    cases n with
    | zero => cases hn
    | succ n => exact ⟨f, rfl⟩
  | failed reason f =>
    cases n with
    | zero => cases hn
    | succ n => exact ⟨f, rfl⟩
  | @interrupted f b e h ih =>
    cases n with
    | zero => cases hn
    | succ n =>
      obtain ⟨g, htake⟩ := ih hn
      exact ⟨g, by rw [take]; exact htake⟩
  | @octets f a b e ha h ih =>
    cases n with
    | zero => cases hn
    | succ n =>
      rw [List.length_append] at hn
      have hne : ¬ a.isEmpty = true := by simpa using ha
      obtain ⟨g, htake⟩ := ih (n := n + 1 - a.length) (by omega)
      refine ⟨g, ?_⟩
      rw [take, if_neg hne, if_neg (by omega), htake]
      cases e <;> rfl

theorem unread_of_take {n : Nat} {f g : Feed} {b : Bytes} (h : f.take n = (.ok b, g)) :
    f.unread = b ++ g.unread := by
  fun_induction take n f generalizing b with
  | case1 f =>
    cases h
    rfl
  | case2 n =>
    cases h
    rfl
  | case3 n f ih => exact ih h
  | case4 n reason f => cases h
  | case5 n a f ha =>
    cases h
    rw [List.isEmpty_iff.1 ha]
    rfl
  | case6 n a f ha hlt =>
    cases h
    rw [unread_cons_octets, unread_cons_octets, ← List.append_assoc, List.take_append_drop]
  | case7 n a f ha hlt result rest hrec ih =>
    cases result with
    | error reason => cases h
    | ok more =>
      cases h
      rw [unread_cons_octets, ih hrec, List.append_assoc]

end Feed

namespace Frame

/-- The payload of the frame at the start of some octets, and the octets after it. -/
def first? : Bytes → Option (Bytes × Bytes)
  | a :: b :: c :: d :: rest =>
    let declared := (Word32.ofOctets a b c d).toNat
    if declared ≤ rest.length then some (rest.take declared, rest.drop declared) else none
  | _ => none

theorem first?_of_length_lt {b : Bytes} (h : b.length < 4) : first? b = none := by
  unfold first?
  split
  · simp only [List.length_cons] at h
    omega
  · rfl

theorem exists_header_of_le {b : Bytes} (h : 4 ≤ b.length) :
    ∃ x y z w tail, b = x :: y :: z :: w :: tail := by
  rcases b with _ | ⟨x, _ | ⟨y, _ | ⟨z, _ | ⟨w, tail⟩⟩⟩⟩
  · simp at h
  · simp at h
  · simp at h
  · simp at h
  · exact ⟨x, y, z, w, tail, rfl⟩

theorem exists_of_first?_eq_some {b p rest : Bytes} (h : first? b = some (p, rest)) :
    ∃ x y z w tail, b = x :: y :: z :: w :: tail ∧
      (Word32.ofOctets x y z w).toNat ≤ tail.length ∧
      tail.take (Word32.ofOctets x y z w).toNat = p ∧
      tail.drop (Word32.ofOctets x y z w).toNat = rest := by
  by_cases hlt : b.length < 4
  · rw [first?_of_length_lt hlt] at h
    cases h
  · obtain ⟨x, y, z, w, tail, rfl⟩ := exists_header_of_le (Nat.not_lt.1 hlt)
    simp only [first?, Option.ite_none_right_eq_some, Option.some.injEq, Prod.mk.injEq] at h
    exact ⟨x, y, z, w, tail, rfl, h⟩

theorem length_lt_of_first? {b p rest : Bytes} (h : first? b = some (p, rest)) :
    rest.length < b.length := by
  obtain ⟨x, y, z, w, tail, rfl, -, -, rfl⟩ := exists_of_first?_eq_some h
  rw [List.length_drop]
  simp only [List.length_cons]
  omega

/-- The payloads of the complete frames, taken one after another from the start. -/
def payloads (b : Bytes) : List Bytes :=
  match _h : first? b with
  | none => []
  | some (p, rest) => p :: payloads rest
termination_by b.length
decreasing_by exact length_lt_of_first? _h

theorem payloads_of_none {b : Bytes} (h : first? b = none) : payloads b = [] := by
  rw [payloads]
  split
  · rfl
  · next heq => rw [h] at heq; cases heq

theorem payloads_of_some {b p rest : Bytes} (h : first? b = some (p, rest)) :
    payloads b = p :: payloads rest := by
  rw [payloads]
  split
  · next heq => rw [h] at heq; cases heq
  · next heq =>
    rw [h] at heq
    cases heq
    rfl

@[simp] theorem length_encode (payload : Bytes) : (encode payload).length = 4 + payload.length := by
  rw [encode, List.length_append, Word32.length_octets]

theorem first?_octets (w : UInt32) (rest : Bytes) :
    first? (Word32.octets w ++ rest) =
      if w.toNat ≤ rest.length then some (rest.take w.toNat, rest.drop w.toNat) else none := by
  have h := Word32.ofOctets_octets w
  simp only [Word32.octets, List.cons_append, List.nil_append, first?, h]

theorem first?_encode_append {payload : Bytes} (h : payload.length < 2 ^ 32) (rest : Bytes) :
    first? (encode payload ++ rest) = some (payload, rest) := by
  have hword : (UInt32.ofNat payload.length).toNat = payload.length := UInt32.toNat_ofNat_of_lt h
  have hle : payload.length ≤ (payload ++ rest).length := by
    rw [List.length_append]
    omega
  rw [encode, List.append_assoc, first?_octets, hword, if_pos hle, List.take_left, List.drop_left]

theorem first?_take_encode {payload : Bytes} (h : payload.length < 2 ^ 32) {n : Nat}
    (hn : n < (encode payload).length) : first? ((encode payload).take n) = none := by
  have hword : (UInt32.ofNat payload.length).toNat = payload.length := UInt32.toNat_ofNat_of_lt h
  rw [length_encode] at hn
  by_cases hheader : n < 4
  · apply first?_of_length_lt
    rw [List.length_take]
    omega
  · have hlt : ¬ payload.length ≤ (payload.take (n - 4)).length := by
      rw [List.length_take]
      omega
    rw [encode, List.take_append, List.take_of_length_le (by rw [Word32.length_octets]; omega),
      Word32.length_octets, first?_octets, hword, if_neg hlt]

end Frame

namespace FrameReader

theorem next_of_first?_eq_some {r : FrameReader} (hr : r.finished = false) {b p rest : Bytes}
    {e : Option String} (h : Delivers r.feed b e) (hb : Frame.first? b = some (p, rest)) :
    ∃ g, r.next = ⟨.ok (some p), ⟨g, false, r.framesRead + 1⟩, []⟩ ∧ Delivers g rest e ∧
      g.unread.length < r.feed.unread.length := by
  obtain ⟨x, y, z, w, tail, rfl, hle, rfl, rfl⟩ := Frame.exists_of_first?_eq_some hb
  obtain ⟨f, hheader, hf⟩ : ∃ f, r.feed.take 4 = (.ok [x, y, z, w], f) ∧ Delivers f tail e :=
    Feed.take_of_le h (by simp)
  obtain ⟨g, hpayload, hg⟩ := Feed.take_of_le hf hle
  have hfirst := congrArg List.length (Feed.unread_of_take hheader)
  have hsecond := congrArg List.length (Feed.unread_of_take hpayload)
  refine ⟨g, ?_, hg, ?_⟩
  · simp [next, hr, hheader, hpayload, hle]
  · simp only [List.length_append, List.length_cons] at hfirst hsecond
    omega

theorem next_of_short_header {r : FrameReader} (hr : r.finished = false) {header : Bytes} {g : Feed}
    (h : r.feed.take 4 = (.ok header, g)) (hlt : header.length < 4) :
    r.next = ⟨.ok none, ⟨g, true, r.framesRead⟩,
      if header.isEmpty then [] else [shortHeader header.length]⟩ := by
  rcases header with _ | ⟨x, _ | ⟨y, _ | ⟨z, _ | ⟨w, tail⟩⟩⟩⟩
  · simp [next, hr, h]
  · simp [next, hr, h]
  · simp [next, hr, h]
  · simp [next, hr, h]
  · simp only [List.length_cons] at hlt
    omega

theorem next_of_first?_eq_none {r : FrameReader} (hr : r.finished = false) {b : Bytes}
    {e : Option String} (h : Delivers r.feed b e) (hb : Frame.first? b = none) :
    ∃ g events, r.next =
      ⟨e.elim (.ok none) fun reason => .error (.io reason), ⟨g, true, r.framesRead⟩, events⟩ := by
  by_cases hlt : b.length < 4
  · obtain ⟨g, hheader⟩ := Feed.take_of_lt h hlt
    cases e with
    | none => exact ⟨g, _, next_of_short_header hr hheader hlt⟩
    | some reason => exact ⟨g, [], by simp [next, hr, hheader]⟩
  · obtain ⟨x, y, z, w, tail, rfl⟩ := Frame.exists_header_of_le (Nat.not_lt.1 hlt)
    have hshort : tail.length < (Word32.ofOctets x y z w).toNat := by
      simpa [Frame.first?] using hb
    obtain ⟨f, hheader, hf⟩ : ∃ f, r.feed.take 4 = (.ok [x, y, z, w], f) ∧ Delivers f tail e :=
      Feed.take_of_le h (by simp)
    obtain ⟨g, hpayload⟩ := Feed.take_of_lt hf hshort
    cases e with
    | none =>
      refine ⟨g, [shortPayload (Word32.ofOctets x y z w).toNat tail.length], ?_⟩
      simp [next, hr, hheader, hpayload, hshort]
    | some reason => exact ⟨g, [], by simp [next, hr, hheader, hpayload]⟩

end FrameReader

end Concolic
