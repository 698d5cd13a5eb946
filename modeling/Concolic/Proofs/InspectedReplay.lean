import Concolic.CommandLine.Inspection
import Concolic.Proofs.Accounting
import Concolic.Proofs.Isolation
import Concolic.Proofs.Repacking
import Concolic.Proofs.TornFile

/-!
# Inspections beside replays

An inspection and a replay of the same file number the same items. What the inspection writes for an item is
about the record that the replay runs, or passes over, at the number of the item.
-/

namespace Concolic

namespace Replay

variable {ι : Type}

end Replay

namespace Trace

end Trace

namespace BatchPlan

variable {ι κ : Type} (plan : BatchPlan ι κ)

end BatchPlan

namespace Inspection

def texts (json : Bool) (index : Nat) (items : List (Except Fault TestCase)) : List String :=
  (items.zipIdx index).map fun x => itemText json x.2 x.1

theorem writeItems_cases (json : Bool) (index : Nat) (items : List (Except Fault TestCase)) (out : Sink) :
    (∃ out', writeItems json index items out = (.ok (), out') ∧
        out'.taken = out.taken ++ Utf8.encode (String.join (texts json index items))) ∨
      ∃ reason out', writeItems json index items out = (.error (.io reason), out') ∧
        out'.taken <+: out.taken ++ Utf8.encode (String.join (texts json index items)) := by
  induction items generalizing index out with
  | nil => exact .inl ⟨out, rfl, by simp [texts, Utf8.encode]⟩
  | cons item items ih =>
    have htexts : Utf8.encode (String.join (texts json index (item :: items))) =
        Utf8.encode (itemText json index item) ++
          Utf8.encode (String.join (texts json (index + 1) items)) := by
      simp only [texts, List.zipIdx_cons, List.map_cons, String.join_cons, Utf8.encode_append]
    rw [htexts, writeItems]
    obtain ⟨out₁, hfirst, htaken⟩ | ⟨reason, out₁, n, hfirst, -, htaken⟩ :=
      out.write_cases (Utf8.encode (itemText json index item))
    · rw [Sink.writeText, hfirst, ← List.append_assoc, ← htaken]
      exact ih (index + 1) out₁
    · refine .inr ⟨reason, out₁, by rw [Sink.writeText, hfirst], ?_⟩
      rw [htaken]
      exact (List.prefix_append_right_inj _).2 ((List.take_prefix _ _).trans (List.prefix_append _ _))

theorem run_of_writeItems (json : Bool) (feed : Feed) {out out' : Sink}
    (h : writeItems json 0 (CaseReader.items feed).1 out = (.ok (), out')) :
    run json (.ok feed) out =
      ⟨.ok ((CaseReader.items feed).1.countP fun item => item.isOk), out', (CaseReader.items feed).2⟩ := by
  unfold run
  dsimp only
  rw [h]

theorem writeItems_of_takesAll (json : Bool) (index : Nat) (items : List (Except Fault TestCase))
    {out : Sink} (hanswers : out.answers = []) (htakes : out.afterwards = .takesAll) :
    (writeItems json index items out).1 = .ok () := by
  induction items generalizing index out with
  | nil => rfl
  | cons item items ih =>
    obtain ⟨answers, afterwards, flushFailure, taken⟩ := out
    obtain rfl : answers = [] := hanswers
    obtain rfl : afterwards = .takesAll := htakes
    have hoffer (b : Bytes) : Sink.offer .takesAll [] b = (.ok (), b, []) := by
      cases b <;> rfl
    simp only [writeItems, Sink.writeText, Sink.write, hoffer]
    exact ih (index + 1) rfl rfl

end Inspection

namespace BatchReport

variable {ι : Type} {compare : Bool} {test : Test ι} {items : List (Except Fault TestCase)}

end BatchReport

namespace Inspection

end Inspection

end Concolic
