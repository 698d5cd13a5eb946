import Concolic.Proofs.Naming
import Mathlib.Data.Nat.Digits.Defs

/-!
# Entries and their octets

A value of a given kind is decoded from its own octets and from no others, so that decoding and encoding undo
each other. The four octets of an integer are its two's complement, the least significant first.
-/

namespace Concolic

namespace Value

theorem decode_eq_ok_iff {k : Kind} {b : Bytes} {v : Value} :
    decode k b = .ok v ↔ v.kind = k ∧ v.encode = b := by
  constructor
  · intro h
    unfold decode at h
    split at h
    · cases h
      exact ⟨rfl, rfl⟩
    · rename_i a b c d
      cases h
      exact ⟨rfl, Word32.octets_ofOctets a b c d⟩
    · cases h
  · rintro ⟨rfl, rfl⟩
    exact decode_encode v

theorem exists_decode_iff {k : Kind} {b : Bytes} :
    (∃ v, decode k b = .ok v) ↔ (k = .integer → b.length = 4) := by
  constructor
  · rintro ⟨v, hv⟩ rfl
    obtain ⟨hkind, rfl⟩ := decode_eq_ok_iff.1 hv
    cases v with
    | bytes b => cases hkind
    | int n => exact Word32.length_octets n.toUInt32
  · intro h
    cases k with
    | sequence => exact ⟨bytes b, rfl⟩
    | integer =>
      match b, h rfl with
      | [c, d, e, f], _ => exact ⟨int (Word32.ofOctets c d e f).toInt32, rfl⟩

/-- The octets of an integer are the digits of a number, the lowest first, and the integer is what is congruent
to the number in the range of 32 bits around zero. -/
theorem toInt_eq_bmod (n : Int32) :
    n.toInt = Int.bmod (Nat.ofDigits 0x100 ((int n).encode.map UInt8.toNat) : Nat) (2 ^ 32) := by
  have hdigits : Nat.ofDigits 0x100 ((int n).encode.map UInt8.toNat) = n.toUInt32.toNat := by
    have h := n.toUInt32.toNat_lt
    simp only [encode, Word32.octets, List.map_cons, List.map_nil, Nat.ofDigits_cons, Nat.ofDigits_nil,
      UInt8.toNat_ofNat']
    omega
  rw [hdigits]
  exact BitVec.toInt_eq_toNat_bmod n.toBitVec

end Value

namespace VarName

theorem decodeEntry_eq_ok_iff {raw base : String} {octets : Bytes} {v : Value} :
    decodeEntry raw octets = .ok (base, v) ↔
      ∃ name, parse raw = .ok name ∧ name.base = base ∧ v.kind = name.kind ∧ v.encode = octets := by
  simp only [← Value.decode_eq_ok_iff]
  unfold decodeEntry
  cases parse raw with
  | error f => simp [bind, Except.bind]
  | ok name =>
    cases hvalue : Value.decode name.kind octets <;>
      simp [bind, Except.bind, pure, Except.pure, hvalue]

theorem exists_decodeEntry_iff {raw : String} {octets : Bytes} :
    (∃ e, decodeEntry raw octets = .ok e) ↔
      ∃ name, parse raw = .ok name ∧ (name.kind = .integer → octets.length = 4) := by
  constructor
  · rintro ⟨⟨base, v⟩, h⟩
    obtain ⟨name, hparse, -, hvalue⟩ := decodeEntry_eq_ok_iff.1 h
    exact ⟨name, hparse, Value.exists_decode_iff.1 ⟨v, Value.decode_eq_ok_iff.2 hvalue⟩⟩
  · rintro ⟨name, hparse, hlength⟩
    obtain ⟨v, hv⟩ := Value.exists_decode_iff.2 hlength
    exact ⟨(name.base, v), decodeEntry_eq_ok_iff.2 ⟨name, hparse, rfl, Value.decode_eq_ok_iff.1 hv⟩⟩

/-- The entries that are decoded, and what comes of them: a value of the kind that the name gives, with the
octets of the entry. Every value comes back from its own entry, whatever the hint. -/
theorem entry_codec_inverse :
    (∀ (raw : String) (octets : Bytes),
      ((∃ e, decodeEntry raw octets = .ok e) ↔
        ∃ name, parse raw = .ok name ∧ (name.kind = .integer → octets.length = 4)) ∧
      ∀ base v, decodeEntry raw octets = .ok (base, v) →
        (∃ name, parse raw = .ok name ∧ name.base = base ∧ v.kind = name.kind) ∧ v.encode = octets) ∧
    (∀ (v : Value) (base : String) (hint : Option String), '.' ∉ base.toList →
      decodeEntry (encode base (some v.kind) hint) v.encode = .ok (base, v)) ∧
    ∀ n : Int32,
      n.toInt = Int.bmod (Nat.ofDigits 0x100 ((Value.int n).encode.map UInt8.toNat) : Nat) (2 ^ 32) := by
  refine ⟨fun raw octets => ⟨exists_decodeEntry_iff, fun base v h => ?_⟩,
    fun v base hint h => decodeEntry_encode h v hint, Value.toInt_eq_bmod⟩
  obtain ⟨name, hparse, hbase, hkind, hencode⟩ := decodeEntry_eq_ok_iff.1 h
  exact ⟨⟨name, hparse, hbase, hkind⟩, hencode⟩

/-- A number below zero, and the least of all under a base with a number sign. -/
theorem entry_codec_inverse_negative :
    decodeEntry "n.i#7" [0xFE, 0xFF, 0xFF, 0xFF] = .ok ("n", .int (-2)) ∧
      (∃ name, parse "n.i#7" = .ok name ∧ name.base = "n" ∧ (Value.int (-2)).kind = name.kind) ∧
      (Value.int (-2)).encode = [0xFE, 0xFF, 0xFF, 0xFF] ∧ '.' ∉ "a#".toList ∧
      decodeEntry (encode "a#" (some .integer) (some "")) (Value.int Int32.minValue).encode =
        .ok ("a#", .int Int32.minValue) := by
  have hentry : decodeEntry "n.i#7" [0xFE, 0xFF, 0xFF, 0xFF] = .ok ("n", .int (-2)) := by decide +kernel
  have hbase : '.' ∉ "a#".toList := by decide
  obtain ⟨hname, hencode⟩ := (entry_codec_inverse.1 _ _).2 _ _ hentry
  exact ⟨hentry, hname, hencode, hbase,
    entry_codec_inverse.2.1 (.int Int32.minValue) "a#" (some "") hbase⟩

end VarName

end Concolic
