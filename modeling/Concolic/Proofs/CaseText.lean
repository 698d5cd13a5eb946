import Concolic.Proofs.InspectedReplay
import Concolic.Proofs.JsonText

/-!
# Test cases as JSON

The JSON text of a test case tells it from every other test case, and a value is told from every other value: a text
that looks like a number, like hexadecimal octets or like JSON is still a text. An inspection that writes JSON gives
each test case one line.
-/

namespace Concolic

namespace Hex

theorem bytes?_ofBytes (bs : Bytes) : bytes? (ofBytes bs) = some bs := by
  induction bs with
  | nil => rfl
  | cons b bs ih =>
    have hbound : b.toNat < 256 := b.toNat_lt
    have hhigh : digit? (Nat.digitChar (b.toNat / 16)) = some (b.toNat / 16) := digit?_digitChar (by omega)
    have hlow : digit? (Nat.digitChar (b.toNat % 16)) = some (b.toNat % 16) := digit?_digitChar (by omega)
    have hrest : bytes? (bs.flatMap ofByte) = some bs := ih
    have hbyte : UInt8.ofNat (b.toNat / 16 * 16 + b.toNat % 16) = b := by rw [Nat.div_add_mod', UInt8.ofNat_toNat]
    rw [ofBytes, List.flatMap_cons, ofByte, List.cons_append, List.singleton_append, bytes?, hhigh, hlow, hrest]
    simp only [Option.bind_eq_bind, Option.bind_some, Option.pure_def, hbyte]

theorem ofBytes_injective : Function.Injective ofBytes := by
  intro a b h
  have hread := bytes?_ofBytes a
  rw [h, bytes?_ofBytes] at hread
  exact (Option.some.inj hread).symm

theorem text_injective : Function.Injective text :=
  fun _ _ h => ofBytes_injective (String.ofList_injective h)

end Hex

namespace Json

theorem integer_inj {m n : Int} : integer m = integer n ↔ m = n :=
  ⟨fun h => Decimal.eq_of_toString_eq (number.inj h), congrArg integer⟩

theorem natural_inj {m n : Nat} : natural m = natural n ↔ m = n :=
  integer_inj.trans Int.ofNat_inj

end Json

namespace Value

theorem toJson_bytes_cases (b : Bytes) :
    (∃ s, Utf8.decode? b = some s ∧ (bytes b).toJson = .string s) ∨
      (bytes b).toJson = .object [("hex", .string (Hex.text b))] := by
  rw [toJson]
  cases h : Utf8.decode? b with
  | some s => exact .inl ⟨s, rfl, rfl⟩
  | none => exact .inr rfl

theorem isPlain_toJson (v : Value) : v.toJson.IsPlain := by
  cases v with
  | int n => exact .integer n.toInt
  | bytes b =>
    obtain ⟨s, -, h⟩ | h := toJson_bytes_cases b <;> rw [h]
    · exact .string s
    · refine .object fun f hf => ?_
      rw [List.mem_singleton.1 hf]
      exact .string _

theorem toJson_bytes_inj {a b : Bytes} (h : (bytes a).toJson = (bytes b).toJson) : a = b := by
  obtain ⟨s, hs, ha⟩ | ha := toJson_bytes_cases a <;> obtain ⟨t, ht, hb⟩ | hb := toJson_bytes_cases b <;>
    rw [ha, hb] at h
  · rw [← Utf8.encode_of_decode? hs, ← Utf8.encode_of_decode? ht, Json.string.inj h]
  · cases h
  · cases h
  · simp only [Json.object.injEq, List.cons.injEq, Prod.mk.injEq, true_and, and_true, Json.string.injEq] at h
    exact Hex.text_injective h

theorem toJson_int_ne_bytes (n : Int32) (b : Bytes) : (int n).toJson ≠ (bytes b).toJson := by
  obtain ⟨s, -, h⟩ | h := toJson_bytes_cases b <;> rw [h] <;> nofun

theorem toJson_injective : Function.Injective toJson := by
  intro v w h
  cases v with
  | int m =>
    cases w with
    | int n => rw [Int32.toInt_inj.1 (Json.integer_inj.1 h)]
    | bytes b => exact absurd h (toJson_int_ne_bytes m b)
  | bytes a =>
    cases w with
    | int n => exact absurd h.symm (toJson_int_ne_bytes n a)
    | bytes b => rw [toJson_bytes_inj h]

theorem text_toJson_inj {v w : Value} : v.toJson.text = w.toJson.text ↔ v = w := by
  refine ⟨fun h => toJson_injective ?_, fun h => h ▸ rfl⟩
  exact v.isPlain_toJson.eq_of_text_eq w.isPlain_toJson h

end Value

namespace Assignment

theorem isPlain_toJson (a : Assignment) : a.toJson.IsPlain := by
  refine .object fun f hf => ?_
  obtain ⟨⟨name, value⟩, -, rfl⟩ := List.mem_map.1 hf
  exact value.isPlain_toJson

theorem toJson_injective : Function.Injective toJson := by
  intro a b h
  have hfield : Function.Injective fun e : String × Value => (e.1, e.2.toJson) := by
    rintro ⟨m, v⟩ ⟨n, w⟩ hfield
    obtain ⟨hname, hvalue⟩ := Prod.mk.inj hfield
    exact Prod.ext hname (Value.toJson_injective hvalue)
  have hentries : a.entries = b.entries := List.map_injective_iff.2 hfield (Json.object.inj h)
  cases a
  cases b
  cases hentries
  rfl

end Assignment

namespace TestCase

theorem isPlain_toJson (c : TestCase) : c.toJson.IsPlain := by
  refine .object fun f hf => ?_
  simp only [List.mem_cons, List.not_mem_nil, or_false] at hf
  rcases hf with rfl | rfl | rfl | rfl
  · exact .natural _
  · exact c.assignment.isPlain_toJson
  · exact .string _
  · exact .natural _

theorem toJson_injective : Function.Injective toJson := by
  intro c d h
  have hfields := Json.object.inj h
  simp only [List.cons.injEq, Prod.mk.injEq, true_and, and_true, Json.natural_inj, Json.string.injEq,
    Assignment.toJson_injective.eq_iff, UInt64.toNat_inj] at hfields
  obtain ⟨htime, hassignment, houtput, hpath⟩ := hfields
  cases c
  cases d
  simp_all

theorem text_toJson_inj {c d : TestCase} : c.toJson.text = d.toJson.text ↔ c = d := by
  refine ⟨fun h => toJson_injective ?_, fun h => h ▸ rfl⟩
  exact c.isPlain_toJson.eq_of_text_eq d.isPlain_toJson h

theorem visible_text (c : TestCase) : Visible c.toJson.text.toList := by
  rw [Json.text, String.toList_ofList]
  exact c.isPlain_toJson.visible

end TestCase

/-! ## One line -/

namespace Inspection

theorem exists_itemText_eq (json : Bool) (index : Nat) (item : Except Fault TestCase) :
    ∃ s, itemText json index item = s ++ "\n" := by
  cases item with
  | error f => exact ⟨_, rfl⟩
  | ok c => cases json <;> exact ⟨_, rfl⟩

theorem textLines_join_texts (json : Bool) (index : Nat) (items : List (Except Fault TestCase)) :
    textLines (String.join (texts json index items)) = (texts json index items).flatMap textLines := by
  refine textLines_join fun t ht => ?_
  obtain ⟨x, -, rfl⟩ := List.mem_map.1 ht
  exact exists_itemText_eq json x.2 x.1

theorem textLines_itemText_ok (index : Nat) (c : TestCase) :
    textLines (itemText true index (.ok c)) = [c.toJson.text] :=
  c.visible_text.textLines_eq

theorem texts_append (json : Bool) (index : Nat) (items items' : List (Except Fault TestCase)) :
    texts json index (items ++ items') = texts json index items ++ texts json (index + items.length) items' := by
  rw [texts, List.zipIdx_append, List.map_append]
  rfl

end Inspection

/-- The JSON text of a test case, or of a value, belongs to it alone. It has no control characters, and an inspection gives
it a line of its own among the lines for the records around it. -/
theorem TestCase.text_faithful (c d : TestCase) :
    (c.toJson.text = d.toJson.text ↔ c = d) ∧ (∀ v w : Value, v.toJson.text = w.toJson.text ↔ v = w) ∧
      (∀ x ∈ c.toJson.text.toList, 0x20 ≤ x.toNat) ∧
      ∀ before after : List (Except Fault TestCase),
        textLines (String.join (Inspection.texts true 0 (before ++ .ok c :: after))) =
          textLines (String.join (Inspection.texts true 0 before)) ++ c.toJson.text ::
            textLines (String.join (Inspection.texts true (before.length + 1) after)) := by
  refine ⟨text_toJson_inj, fun v w => Value.text_toJson_inj, c.visible_text, fun before after => ?_⟩
  have hcons : Inspection.texts true before.length (.ok c :: after) =
      Inspection.itemText true before.length (.ok c) :: Inspection.texts true (before.length + 1) after := rfl
  simp only [Inspection.textLines_join_texts]
  rw [Inspection.texts_append, Nat.zero_add, hcons, List.flatMap_append, List.flatMap_cons,
    Inspection.textLines_itemText_ok, List.singleton_append]

/-- Octets that are no text, and a text that looks like their JSON. -/
theorem TestCase.text_faithful_lookalikes :
    let raw : Value := .bytes [0xff]
    let text : Value := .ofText "\x7b\"hex\":\"ff\"\x7d"
    let c (v : Value) : TestCase := ⟨1, .ofList [("x\n", v)], "\"\n", 2⟩
    (c raw).toJson.text ≠ (c text).toJson.text ∧ raw.toJson.text ≠ text.toJson.text ∧
      0x20 ≤ ('\x7b').toNat ∧
      textLines (String.join (Inspection.texts true 0 [.error (.decoding "torn"), .ok (c raw)])) =
        textLines (String.join (Inspection.texts true 0 [.error (.decoding "torn")])) ++ [(c raw).toJson.text] := by
  intro raw text c
  obtain ⟨hcases, hvalues, hvisible, hlines⟩ := TestCase.text_faithful (c raw) (c text)
  have hcase : c raw ≠ c text := by decide
  have hvalue : raw ≠ text := by decide
  have hbrace : '\x7b' ∈ (c raw).toJson.text.toList := by
    simp [Json.text, TestCase.toJson, Json.chars]
  refine ⟨fun h => hcase (hcases.1 h), fun h => hvalue ((hvalues raw text).1 h), hvisible _ hbrace, ?_⟩
  exact hlines [.error (.decoding "torn")] []

end Concolic
