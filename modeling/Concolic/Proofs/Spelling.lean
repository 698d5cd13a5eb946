import Concolic.Proofs.Utf8
import Concolic.Wire.Field
import Mathlib.Algebra.Group.Nat.Defs

/-!
# Spellings

A number, a key and the contents of a field can each be spelled in many ways: with more octets than needed, and
in a field that is passed over, with any contents that have its form. A reader takes a spelling off the front of
any octets, whatever follows it, and whatever a reader takes is a spelling.
-/

namespace Concolic

namespace Wire

/-- Groups of seven bits, the least significant first, in octets of which all but the last have the high bit
set. -/
inductive Groups : Nat → Bytes → Prop
  | last {b : UInt8} (h : b < 0x80) : Groups b.toNat [b]
  | more {b : UInt8} {n : Nat} {v : Bytes} (h : ¬ b < 0x80) (hv : Groups n v) :
      Groups (b.toNat % 0x80 + 0x80 * n) (b :: v)

namespace Groups

theorem length_pos {n : Nat} {v : Bytes} (h : Groups n v) : 0 < v.length := by
  cases h <;> simp

theorem encodeVarint (n : Nat) : Groups n (encodeVarint n) := by
  fun_induction Wire.encodeVarint n with
  | case1 n hn =>
    have hoctet : (UInt8.ofNat n).toNat = n := by rw [UInt8.toNat_ofNat']; omega
    have h := last (b := UInt8.ofNat n) (by rw [UInt8.lt_iff_toNat_lt, hoctet]; exact hn)
    rwa [hoctet] at h
  | case2 n hn ih =>
    have hoctet : (UInt8.ofNat (n % 0x80 + 0x80)).toNat = n % 0x80 + 0x80 := by
      rw [UInt8.toNat_ofNat']
      omega
    have h := ih.more (b := UInt8.ofNat (n % 0x80 + 0x80))
      (by simp only [UInt8.lt_iff_toNat_lt, hoctet, UInt8.reduceToNat]; omega)
    have hn' : (n % 0x80 + 0x80) % 0x80 + 0x80 * (n / 0x80) = n := by omega
    rwa [hoctet, hn'] at h

theorem length_encodeVarint_le {room n : Nat} (h : n < 2 ^ (7 * (room + 1))) :
    (Wire.encodeVarint n).length ≤ room + 1 := by
  induction room generalizing n with
  | zero =>
    have hn : n < 0x80 := h
    rw [Wire.encodeVarint, if_pos hn]
    simp
  | succ room ih =>
    rw [Wire.encodeVarint]
    split
    · simp
    · have hpow : 2 ^ (7 * (room + 1 + 1)) = 2 ^ (7 * (room + 1)) * 0x80 := by
        rw [show 7 * (room + 1 + 1) = 7 * (room + 1) + 7 by omega, Nat.pow_add]
      have hrest := ih (n := n / 0x80) (by omega)
      simpa using hrest

/-- With `room + 1` octets left, all but the last of them hold seven bits and the last holds one. -/
theorem varintWithin_append {n room : Nat} {v : Bytes} (h : Groups n v) (hlength : v.length ≤ room + 1)
    (hn : n < 2 ^ (7 * room + 1)) (r : Bytes) : varintWithin (room + 1) (v ++ r) = some (n, r) := by
  induction h generalizing room with
  | @last b hb =>
    have hlast : ¬ (room = 0 ∧ 1 < b) := by
      rintro ⟨rfl, hlt⟩
      have := UInt8.lt_iff_toNat_lt.1 hlt
      simp only [UInt8.reduceToNat] at this
      omega
    simp only [List.singleton_append, varintWithin, if_pos hb, if_neg hlast]
  | @more b n v hb hv ih =>
    have hpos := hv.length_pos
    obtain ⟨room, rfl⟩ : ∃ room', room = room' + 1 := ⟨room - 1, by simp at hlength; omega⟩
    have hpow : 2 ^ (7 * (room + 1) + 1) = 2 ^ (7 * room + 1) * 0x80 := by
      rw [show 7 * (room + 1) + 1 = 7 * room + 1 + 7 by omega, Nat.pow_add]
    have hrest : varintWithin (room + 1) (v ++ r) = some (n, r) :=
      ih (by simpa using hlength) (by omega)
    simp only [List.cons_append, varintWithin, if_neg hb, hrest, Option.map_some]

theorem exists_of_varintWithin {n room : Nat} {bs r : Bytes}
    (h : varintWithin (room + 1) bs = some (n, r)) :
    ∃ v, bs = v ++ r ∧ Groups n v ∧ v.length ≤ room + 1 ∧ n < 2 ^ (7 * room + 1) := by
  induction bs generalizing room n with
  | nil => cases h
  | cons b bs ih =>
    by_cases hb : b < 0x80
    · by_cases hlast : room = 0 ∧ 1 < b
      · simp [varintWithin, hb, hlast] at h
      · simp only [varintWithin, if_pos hb, if_neg hlast, Option.some.injEq, Prod.mk.injEq] at h
        obtain ⟨rfl, rfl⟩ := h
        refine ⟨[b], rfl, last hb, by simp, ?_⟩
        rw [UInt8.lt_iff_toNat_lt] at hb hlast
        simp only [UInt8.reduceToNat] at hb hlast
        cases room with
        | zero => omega
        | succ room =>
          have hpow : 2 ^ 8 ≤ 2 ^ (7 * (room + 1) + 1) := Nat.pow_le_pow_right (by decide) (by omega)
          omega
    · cases room with
      | zero => cases bs <;> simp [varintWithin, hb] at h
      | succ room =>
        simp only [varintWithin, if_neg hb, Option.map_eq_some_iff, Prod.mk.injEq] at h
        obtain ⟨⟨m, s⟩, hm, rfl, rfl⟩ := h
        obtain ⟨v, rfl, hv, hlength, hlt⟩ := ih hm
        have hpow : 2 ^ (7 * (room + 1) + 1) = 2 ^ (7 * room + 1) * 0x80 := by
          rw [show 7 * (room + 1) + 1 = 7 * room + 1 + 7 by omega, Nat.pow_add]
        exact ⟨b :: v, rfl, hv.more hb, by simpa using hlength, by omega⟩

end Groups

structure SpellsNumber (n : Nat) (v : Bytes) : Prop where
  groups : Groups n v
  length_le : v.length ≤ 10
  lt : n < 2 ^ 64

namespace SpellsNumber

theorem encodeVarint {n : Nat} (h : n < 2 ^ 64) : SpellsNumber n (encodeVarint n) where
  groups := Groups.encodeVarint n
  length_le := Groups.length_encodeVarint_le (Nat.lt_of_lt_of_le h (by decide : 2 ^ 64 ≤ 2 ^ (7 * (9 + 1))))
  lt := h

theorem varint?_append {n : Nat} {v : Bytes} (h : SpellsNumber n v) (r : Bytes) :
    varint? (v ++ r) = some (n, r) :=
  h.groups.varintWithin_append h.length_le h.lt r

theorem exists_of_varint? {n : Nat} {bs r : Bytes} (h : varint? bs = some (n, r)) :
    ∃ v, bs = v ++ r ∧ SpellsNumber n v := by
  obtain ⟨v, hv, hgroups, hlength, hlt⟩ := Groups.exists_of_varintWithin h
  exact ⟨v, hv, hgroups, hlength, hlt⟩

theorem readNumber_append {n : Nat} {v : Bytes} (h : SpellsNumber n v) (r : Bytes) :
    readNumber (v ++ r) = .ok (n, r) := by
  simp only [readNumber, h.varint?_append]

theorem exists_of_readNumber {n : Nat} {bs r : Bytes} (h : readNumber bs = .ok (n, r)) :
    ∃ v, bs = v ++ r ∧ SpellsNumber n v := by
  unfold readNumber at h
  split at h
  · next found hfound =>
    cases h
    exact exists_of_varint? hfound
  · cases h

end SpellsNumber

structure SpellsKey (key : Key) (k : Bytes) : Prop where
  number_pos : 0 < key.number
  number_lt : key.number < 2 ^ 29
  spells : SpellsNumber (key.number * 8 + key.form.code) k

namespace Form

theorem code_le (f : Form) : f.code ≤ 5 := by
  cases f <;> decide

theorem code_of_ofCode? {n : Nat} {f : Form} (h : ofCode? n = some f) : f.code = n := by
  unfold ofCode? at h
  split at h <;> cases h <;> rfl

end Form

namespace SpellsKey

theorem encode {key : Key} (hpos : 0 < key.number) (hlt : key.number < 2 ^ 29) : SpellsKey key key.encode := by
  have hcode := key.form.code_le
  exact ⟨hpos, hlt, .encodeVarint (by omega)⟩

theorem length_pos {key : Key} {k : Bytes} (h : SpellsKey key k) : 0 < k.length :=
  h.spells.groups.length_pos

theorem read_append {key : Key} {k : Bytes} (h : SpellsKey key k) (r : Bytes) :
    Key.read (k ++ r) = .ok (key, r) := by
  have hcode := key.form.code_le
  have hpos := h.number_pos
  have hlt := h.number_lt
  have hmod : (key.number * 8 + key.form.code) % 8 = key.form.code := by omega
  have hdiv : (key.number * 8 + key.form.code) / 8 = key.number := by omega
  have hsmall : ¬ UInt32.size ≤ key.number * 8 + key.form.code := by
    rw [UInt32.size]
    omega
  have hne : key.number ≠ 0 := by omega
  simp only [Key.read, h.spells.varint?_append, Key.ofNat, if_neg hsmall, hmod, Form.ofCode?_code,
    hdiv, if_neg hne, Except.map]

theorem of_ofNat {key : Key} {n : Nat} {k : Bytes} (h : Key.ofNat n = .ok key)
    (hk : SpellsNumber n k) : SpellsKey key k := by
  unfold Key.ofNat at h
  split at h
  · cases h
  · next hsmall =>
    split at h
    · cases h
    · next form hform =>
      split at h
      · cases h
      · next hne =>
        cases h
        have hcode := Form.code_of_ofCode? hform
        have hn : n / 8 * 8 + form.code = n := by omega
        rw [UInt32.size] at hsmall
        exact ⟨by simp only; omega, by simp only; omega, by simpa only [hn] using hk⟩

theorem exists_of_read {key : Key} {bs r : Bytes} (h : Key.read bs = .ok (key, r)) :
    ∃ k, bs = k ++ r ∧ SpellsKey key k := by
  unfold Key.read at h
  split at h
  · cases h
  · next n s hfound =>
    obtain ⟨k, rfl, hk⟩ := SpellsNumber.exists_of_varint? hfound
    cases hkey : Key.ofNat n with
    | error e =>
      rw [hkey] at h
      cases h
    | ok key' =>
      rw [hkey] at h
      cases h
      exact ⟨k, rfl, of_ofNat hkey hk⟩

end SpellsKey

/-- The octets `c` are the octets `b` after a spelling of their number. -/
def Delimited (b c : Bytes) : Prop :=
  ∃ v, SpellsNumber b.length v ∧ c = v ++ b

namespace Delimited

variable {b c : Bytes}

theorem encode (h : b.length < 2 ^ 64) : Delimited b (encodeVarint b.length ++ b) :=
  ⟨encodeVarint b.length, .encodeVarint h, rfl⟩

theorem readOctets_append (h : Delimited b c) (r : Bytes) : readOctets (c ++ r) = .ok (b, r) := by
  obtain ⟨v, hv, rfl⟩ := h
  simp [readOctets, hv.readNumber_append, bind, Except.bind]

theorem exists_of_readOctets {bs r : Bytes} (h : readOctets bs = .ok (b, r)) :
    ∃ c, bs = c ++ r ∧ Delimited b c := by
  unfold readOctets at h
  cases hnumber : readNumber bs with
  | error e =>
    rw [hnumber] at h
    cases h
  | ok found =>
    obtain ⟨n, s⟩ := found
    obtain ⟨v, rfl, hv⟩ := SpellsNumber.exists_of_readNumber hnumber
    rw [hnumber] at h
    by_cases hn : n ≤ s.length
    · simp only [bind, Except.bind, if_pos hn, Except.ok.injEq, Prod.mk.injEq] at h
      obtain ⟨rfl, rfl⟩ := h
      refine ⟨v ++ s.take n, by simp, v, ?_, rfl⟩
      rwa [List.length_take, Nat.min_eq_left hn]
    · simp [bind, Except.bind, if_neg hn, failure] at h

theorem readText_append {s : String} (h : Delimited (Utf8.encode s) c) (r : Bytes) :
    readText (c ++ r) = .ok (s, r) := by
  simp [readText, h.readOctets_append, bind, Except.bind]

theorem exists_of_readText {s : String} {bs r : Bytes} (h : readText bs = .ok (s, r)) :
    ∃ c, bs = c ++ r ∧ Delimited (Utf8.encode s) c := by
  unfold readText at h
  cases hoctets : readOctets bs with
  | error e =>
    rw [hoctets] at h
    cases h
  | ok found =>
    obtain ⟨octets, rest⟩ := found
    obtain ⟨c, rfl, hc⟩ := exists_of_readOctets hoctets
    rw [hoctets] at h
    cases htext : Utf8.decode? octets with
    | none => simp [bind, Except.bind, htext, failure] at h
    | some t =>
      simp only [bind, Except.bind, htext, Except.ok.injEq, Prod.mk.injEq] at h
      obtain ⟨rfl, rfl⟩ := h
      exact ⟨c, rfl, by rwa [Utf8.encode_of_decode? htext]⟩

end Delimited

/-- The octets are contents of a form other than a group. -/
inductive Scalar : Form → Bytes → Prop
  | varint {n : Nat} {c : Bytes} (h : SpellsNumber n c) : Scalar .varint c
  | sixtyFourBit {c : Bytes} (h : c.length = 8) : Scalar .sixtyFourBit c
  | lengthDelimited {b c : Bytes} (h : Delimited b c) : Scalar .lengthDelimited c
  | thirtyTwoBit {c : Bytes} (h : c.length = 4) : Scalar .thirtyTwoBit c

/-- The octets are the fields of a group with a number and then its end. `depth` is how many fields may stand in
one another inside the group. -/
inductive Group : (depth number : Nat) → Bytes → Prop
  | finish {depth number : Nat} {k : Bytes} (hk : SpellsKey ⟨number, .endGroup⟩ k) :
      Group depth number k
  | scalar {depth number : Nat} {key : Key} {k c rest : Bytes} (hk : SpellsKey key k)
      (hc : Scalar key.form c) (h : Group (depth + 1) number rest) :
      Group (depth + 1) number (k ++ (c ++ rest))
  | group {depth number inner : Nat} {k c rest : Bytes} (hk : SpellsKey ⟨inner, .startGroup⟩ k)
      (hc : Group depth inner c) (h : Group (depth + 1) number rest) :
      Group (depth + 1) number (k ++ (c ++ rest))

/-- The octets are contents of a field with the given key. `depth` is how many fields may stand in one another,
the field itself among them. -/
inductive Contents : (depth : Nat) → Key → Bytes → Prop
  | scalar {depth : Nat} {key : Key} {c : Bytes} (h : Scalar key.form c) : Contents (depth + 1) key c
  | group {depth number : Nat} {c : Bytes} (h : Group depth number c) :
      Contents (depth + 1) ⟨number, .startGroup⟩ c

theorem skipOctets_append {c : Bytes} {count : Nat} (h : c.length = count) (r : Bytes) :
    skipOctets count (c ++ r) = .ok r := by
  simp [skipOctets, ← h]

theorem exists_of_skipOctets {count : Nat} {bs r : Bytes} (h : skipOctets count bs = .ok r) :
    ∃ c, bs = c ++ r ∧ c.length = count := by
  unfold skipOctets at h
  split at h
  · next hle =>
    cases h
    exact ⟨bs.take count, (List.take_append_drop count bs).symm, List.length_take_of_le hle⟩
  · cases h

theorem Scalar.ne_endGroup {form : Form} {c : Bytes} (h : Scalar form c) : form ≠ .endGroup := by
  cases h <;> decide

theorem Scalar.skip_append {key : Key} {c : Bytes} (h : Scalar key.form c) (depth : Nat) (r : Bytes) :
    skip (depth + 1) key (c ++ r) = .ok r := by
  obtain ⟨number, form⟩ := key
  cases h with
  | varint h => simp only [skip, h.varint?_append]
  | sixtyFourBit h => exact skipOctets_append h r
  | thirtyTwoBit h => exact skipOctets_append h r
  | lengthDelimited h =>
    obtain ⟨v, hv, rfl⟩ := h
    rw [List.append_assoc]
    simp only [skip, hv.varint?_append]
    exact skipOctets_append rfl r

theorem Group.skipGroup_append {depth number : Nat} {c : Bytes} (h : Group depth number c) (r : Bytes) :
    skipGroup (skip depth) number (c ++ r) = .ok r := by
  induction h generalizing r with
  | finish hk =>
    rw [skipGroup, hk.read_append]
    simp only [if_true]
  | @scalar depth number key k c rest hk hc h ih =>
    have hless : (rest ++ r).length < (k ++ (c ++ (rest ++ r))).length := by
      have := hk.length_pos
      simp only [List.length_append]
      omega
    rw [List.append_assoc, List.append_assoc, skipGroup, hk.read_append]
    simp only [if_neg hc.ne_endGroup, hc.skip_append, if_pos hless, ih]
  | @group depth number inner k c rest hk hc h ihc ih =>
    have hless : (rest ++ r).length < (k ++ (c ++ (rest ++ r))).length := by
      have := hk.length_pos
      simp only [List.length_append]
      omega
    have hinner : skip (depth + 1) ⟨inner, .startGroup⟩ (c ++ (rest ++ r)) = .ok (rest ++ r) :=
      ihc (rest ++ r)
    rw [List.append_assoc, List.append_assoc, skipGroup, hk.read_append]
    simp only [reduceCtorEq, if_false, hinner, if_pos hless, ih]

theorem Contents.skip_append {depth : Nat} {key : Key} {c : Bytes} (h : Contents depth key c)
    (r : Bytes) : skip depth key (c ++ r) = .ok r := by
  cases h with
  | scalar h => exact h.skip_append _ r
  | group h => exact h.skipGroup_append r

/-- What is passed over as a group is one, if its fields are what they are passed over as. -/
theorem Group.exists_of_skipGroup {depth number : Nat} {bs r : Bytes}
    (hskip : ∀ {key : Key} {bs r : Bytes}, skip depth key bs = .ok r →
      ∃ c, bs = c ++ r ∧ Contents depth key c)
    (h : skipGroup (skip depth) number bs = .ok r) : ∃ c, bs = c ++ r ∧ Group depth number c := by
  fun_induction skipGroup (skip depth) number bs with
  | case1 bs e hkey => cases h
  | case2 bs key s hkey hend hnumber =>
    cases h
    obtain ⟨number', form⟩ := key
    obtain ⟨k, rfl, hk⟩ := SpellsKey.exists_of_read hkey
    obtain rfl : form = .endGroup := hend
    obtain rfl : number' = number := hnumber
    exact ⟨k, rfl, .finish hk⟩
  | case3 bs key s hkey hend hnumber => cases h
  | case4 bs key s hkey hend e hfield => cases h
  | case5 bs key s hkey hend rest hfield hless ih =>
    obtain ⟨k, rfl, hk⟩ := SpellsKey.exists_of_read hkey
    obtain ⟨c, rfl, hc⟩ := hskip hfield
    obtain ⟨more, rfl, hmore⟩ := ih h
    refine ⟨k ++ (c ++ more), by simp, ?_⟩
    cases hc with
    | scalar hc => exact .scalar hk hc hmore
    | group hc => exact .group hk hc hmore
  | case6 bs key s hkey hend rest hfield hless =>
    -- A field takes at least its key.
    obtain ⟨k, rfl, hk⟩ := SpellsKey.exists_of_read hkey
    obtain ⟨c, rfl, hc⟩ := hskip hfield
    have := hk.length_pos
    simp only [List.length_append] at hless
    omega

theorem Contents.exists_of_skip {depth : Nat} {key : Key} {bs r : Bytes}
    (h : skip depth key bs = .ok r) : ∃ c, bs = c ++ r ∧ Contents depth key c := by
  induction depth generalizing key bs r with
  | zero => cases h
  | succ depth ih =>
    obtain ⟨number, form⟩ := key
    cases form with
    | varint =>
      simp only [skip] at h
      split at h
      · next n s hfound =>
        cases h
        obtain ⟨v, rfl, hv⟩ := SpellsNumber.exists_of_varint? hfound
        exact ⟨v, rfl, .scalar (.varint hv)⟩
      · cases h
    | sixtyFourBit =>
      obtain ⟨c, rfl, hc⟩ := exists_of_skipOctets h
      exact ⟨c, rfl, .scalar (.sixtyFourBit hc)⟩
    | lengthDelimited =>
      simp only [skip] at h
      split at h
      · next n s hfound =>
        obtain ⟨v, rfl, hv⟩ := SpellsNumber.exists_of_varint? hfound
        obtain ⟨c, rfl, rfl⟩ := exists_of_skipOctets h
        exact ⟨v ++ c, by simp, .scalar (.lengthDelimited ⟨v, hv, rfl⟩)⟩
      · cases h
    | startGroup =>
      obtain ⟨c, rfl, hc⟩ := Group.exists_of_skipGroup ih h
      exact ⟨c, rfl, .group hc⟩
    | endGroup => cases h
    | thirtyTwoBit =>
      obtain ⟨c, rfl, hc⟩ := exists_of_skipOctets h
      exact ⟨c, rfl, .scalar (.thirtyTwoBit hc)⟩

end Wire

end Concolic
