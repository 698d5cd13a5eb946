import Concolic.Text.Utf8
import Mathlib.Tactic.SplitIfs

/-!
# Reading UTF-8 back

The octets of a character are cut off as one piece, whatever follows them, so that the octets of a text are
read back as the text. No other octets are read as a text.
-/

namespace Concolic

namespace Utf8

theorem isTail_iff (b : UInt8) : isTail b = true ↔ 0x80 ≤ b.toNat ∧ b.toNat ≤ 0xBF := by
  simp [isTail, UInt8.le_iff_toNat_le]

theorem mayFollow_iff (a b : UInt8) : mayFollow a b = true ↔
    (0x80 ≤ b.toNat ∧ b.toNat ≤ 0xBF) ∧ (a.toNat = 0xE0 → 0xA0 ≤ b.toNat) ∧
      (a.toNat = 0xED → b.toNat ≤ 0x9F) ∧ (a.toNat = 0xF0 → 0x90 ≤ b.toNat) ∧
      (a.toNat = 0xF4 → b.toNat ≤ 0x8F) := by
  simp only [mayFollow, isTail, ← UInt8.toNat_inj, UInt8.reduceToNat]
  split_ifs <;> simp only [Bool.and_eq_true, decide_eq_true_eq, UInt8.le_iff_toNat_le,
    UInt8.reduceToNat] <;> omega

theorem pieces_one {a : UInt8} (ha : a.toNat < 0x80) (r : Bytes) :
    pieces (a :: r) = .char (Char.ofNat a.toNat) :: pieces r := by
  have h : a < 0x80 := UInt8.lt_iff_toNat_lt.2 ha
  rw [pieces.eq_def]
  simp only [h, if_true]

theorem not_lt_of_lead {a : UInt8} (h : 0xC2 ≤ a.toNat) (h' : a.toNat ≤ 0xF4) :
    ¬ a < 0x80 ∧ ¬ (a < 0xC2 || 0xF4 < a) = true := by
  simp only [Bool.or_eq_true, decide_eq_true_eq, UInt8.lt_iff_toNat_lt, UInt8.reduceToNat]
  omega

theorem pieces_two {a b : UInt8} (ha : 0xC2 ≤ a.toNat) (ha' : a.toNat < 0xE0)
    (hb : mayFollow a b = true) (r : Bytes) :
    pieces (a :: b :: r) =
      .char (Char.ofNat (a.toNat % 0x20 * 0x40 + b.toNat % 0x40)) :: pieces r := by
  obtain ⟨h₁, h₂⟩ := not_lt_of_lead ha (by omega)
  have h₃ : a < 0xE0 := UInt8.lt_iff_toNat_lt.2 ha'
  rw [pieces.eq_def]
  simp only [h₁, h₂, h₃, hb, if_false, if_true, Bool.not_true, Bool.false_eq_true]

theorem pieces_three {a b c : UInt8} (ha : 0xE0 ≤ a.toNat) (ha' : a.toNat < 0xF0)
    (hb : mayFollow a b = true) (hc : isTail c = true) (r : Bytes) :
    pieces (a :: b :: c :: r) =
      .char (Char.ofNat (a.toNat % 0x10 * 0x1000 + b.toNat % 0x40 * 0x40 + c.toNat % 0x40)) ::
        pieces r := by
  obtain ⟨h₁, h₂⟩ := not_lt_of_lead (a := a) (by omega) (by omega)
  have h₃ : ¬ a < 0xE0 := fun h => absurd (UInt8.lt_iff_toNat_lt.1 h) (Nat.not_lt.2 ha)
  have h₄ : a < 0xF0 := UInt8.lt_iff_toNat_lt.2 ha'
  rw [pieces.eq_def]
  simp only [h₁, h₂, h₃, h₄, hb, hc, if_false, if_true, Bool.not_true, Bool.false_eq_true]

theorem pieces_four {a b c d : UInt8} (ha : 0xF0 ≤ a.toNat) (ha' : a.toNat ≤ 0xF4)
    (hb : mayFollow a b = true) (hc : isTail c = true) (hd : isTail d = true) (r : Bytes) :
    pieces (a :: b :: c :: d :: r) =
      .char (Char.ofNat (a.toNat % 0x08 * 0x40000 + b.toNat % 0x40 * 0x1000 +
        c.toNat % 0x40 * 0x40 + d.toNat % 0x40)) :: pieces r := by
  obtain ⟨h₁, h₂⟩ := not_lt_of_lead (a := a) (by omega) ha'
  have h₃ : ¬ a < 0xF0 := fun h => absurd (UInt8.lt_iff_toNat_lt.1 h) (Nat.not_lt.2 ha)
  have h₄ : ¬ a < 0xE0 := fun h => by
    have := UInt8.lt_iff_toNat_lt.1 h
    simp only [UInt8.reduceToNat] at this
    omega
  rw [pieces.eq_def]
  simp only [h₁, h₂, h₃, h₄, hb, hc, hd, if_false, Bool.not_true, Bool.false_eq_true]

/-- What follows a character in the octets does not change how it is cut off. -/
theorem pieces_encodeChar (c : Char) (r : Bytes) :
    pieces (encodeChar c ++ r) = .char c :: pieces r := by
  have hvalid : c.toNat < 0xD800 ∨ 0xDFFF < c.toNat ∧ c.toNat < 0x110000 := c.valid
  have hchar : Char.ofNat c.toNat = c := Char.ofNat_toNat c
  have hoctet (k : Nat) (hk : k < 256) : (UInt8.ofNat k).toNat = k := by
    rw [UInt8.toNat_ofNat']
    omega
  simp only [encodeChar]
  split_ifs with h₁ h₂ h₃
  · have ha := hoctet c.toNat (by omega)
    rw [List.singleton_append, pieces_one (by omega), ha, hchar]
  · have ha := hoctet (0xC0 + c.toNat / 0x40) (by omega)
    have hb := hoctet (0x80 + c.toNat % 0x40) (by omega)
    have hn : (0xC0 + c.toNat / 0x40) % 0x20 * 0x40 + (0x80 + c.toNat % 0x40) % 0x40 =
        c.toNat := by omega
    rw [List.cons_append, List.singleton_append,
      pieces_two (by omega) (by omega) ((mayFollow_iff _ _).2 (by omega)), ha, hb, hn, hchar]
  · have ha := hoctet (0xE0 + c.toNat / 0x1000) (by omega)
    have hb := hoctet (0x80 + c.toNat / 0x40 % 0x40) (by omega)
    have hc := hoctet (0x80 + c.toNat % 0x40) (by omega)
    have hn : (0xE0 + c.toNat / 0x1000) % 0x10 * 0x1000 +
        (0x80 + c.toNat / 0x40 % 0x40) % 0x40 * 0x40 + (0x80 + c.toNat % 0x40) % 0x40 =
          c.toNat := by omega
    rw [List.cons_append, List.cons_append, List.singleton_append,
      pieces_three (by omega) (by omega) ((mayFollow_iff _ _).2 (by omega))
        ((isTail_iff _).2 (by omega)), ha, hb, hc, hn, hchar]
  · have ha := hoctet (0xF0 + c.toNat / 0x40000) (by omega)
    have hb := hoctet (0x80 + c.toNat / 0x1000 % 0x40) (by omega)
    have hc := hoctet (0x80 + c.toNat / 0x40 % 0x40) (by omega)
    have hd := hoctet (0x80 + c.toNat % 0x40) (by omega)
    have hn : (0xF0 + c.toNat / 0x40000) % 0x08 * 0x40000 +
        (0x80 + c.toNat / 0x1000 % 0x40) % 0x40 * 0x1000 +
          (0x80 + c.toNat / 0x40 % 0x40) % 0x40 * 0x40 + (0x80 + c.toNat % 0x40) % 0x40 =
            c.toNat := by omega
    rw [List.cons_append, List.cons_append, List.cons_append, List.singleton_append,
      pieces_four (by omega) (by omega) ((mayFollow_iff _ _).2 (by omega))
        ((isTail_iff _).2 (by omega)) ((isTail_iff _).2 (by omega)), ha, hb, hc, hd, hn, hchar]

@[simp] theorem decodeChars?_encodeChars (s : List Char) : decodeChars? (encodeChars s) = some s := by
  induction s with
  | nil => rfl
  | cons c s ih =>
    simp only [decodeChars?] at ih
    simp [decodeChars?, pieces_encodeChar, ih, Piece.char?]

@[simp] theorem decode?_encode (s : String) : decode? (encode s) = some s := by
  simp [decode?, encode]

theorem encode_injective : Function.Injective encode := by
  intro s t h
  have hread := decode?_encode s
  rw [h, decode?_encode] at hread
  exact (Option.some.inj hread).symm

theorem encode_eq_nil_iff {s : String} : encode s = [] ↔ s = "" := by
  constructor
  · exact fun h => encode_injective h
  · rintro rfl
    rfl

theorem encode_append (s t : String) : encode (s ++ t) = encode s ++ encode t := by
  simp [encode, encodeChars]

theorem toNat_ofNat_of_lt {n : Nat} (h : n < 0xD800 ∨ 0xDFFF < n ∧ n < 0x110000) :
    (Char.ofNat n).toNat = n := by
  rw [Char.ofNat, dif_pos h]
  rfl

theorem encodeChar_one {a : UInt8} (ha : a.toNat < 0x80) :
    encodeChar (Char.ofNat a.toNat) = [a] := by
  have hn : (Char.ofNat a.toNat).toNat = a.toNat := toNat_ofNat_of_lt (by omega)
  simp only [encodeChar, hn, if_pos ha, UInt8.ofNat_toNat]

theorem encodeChar_two {a b : UInt8} (ha : 0xC2 ≤ a.toNat) (ha' : a.toNat < 0xE0)
    (hb : mayFollow a b = true) :
    encodeChar (Char.ofNat (a.toNat % 0x20 * 0x40 + b.toNat % 0x40)) = [a, b] := by
  rw [mayFollow_iff] at hb
  have hn := toNat_ofNat_of_lt (n := a.toNat % 0x20 * 0x40 + b.toNat % 0x40) (by omega)
  simp only [encodeChar, hn]
  rw [if_neg (by omega), if_pos (by omega)]
  simp only [List.cons.injEq, and_true]
  refine ⟨?_, ?_⟩ <;> apply UInt8.toNat.inj <;> rw [UInt8.toNat_ofNat'] <;> omega

theorem encodeChar_three {a b c : UInt8} (ha : 0xE0 ≤ a.toNat) (ha' : a.toNat < 0xF0)
    (hb : mayFollow a b = true) (hc : isTail c = true) :
    encodeChar (Char.ofNat
      (a.toNat % 0x10 * 0x1000 + b.toNat % 0x40 * 0x40 + c.toNat % 0x40)) = [a, b, c] := by
  rw [mayFollow_iff] at hb
  rw [isTail_iff] at hc
  have hn := toNat_ofNat_of_lt
    (n := a.toNat % 0x10 * 0x1000 + b.toNat % 0x40 * 0x40 + c.toNat % 0x40) (by omega)
  simp only [encodeChar, hn]
  rw [if_neg (by omega), if_neg (by omega), if_pos (by omega)]
  simp only [List.cons.injEq, and_true]
  refine ⟨?_, ?_, ?_⟩ <;> apply UInt8.toNat.inj <;> rw [UInt8.toNat_ofNat'] <;> omega

theorem encodeChar_four {a b c d : UInt8} (ha : 0xF0 ≤ a.toNat) (ha' : a.toNat ≤ 0xF4)
    (hb : mayFollow a b = true) (hc : isTail c = true) (hd : isTail d = true) :
    encodeChar (Char.ofNat (a.toNat % 0x08 * 0x40000 + b.toNat % 0x40 * 0x1000 +
      c.toNat % 0x40 * 0x40 + d.toNat % 0x40)) = [a, b, c, d] := by
  rw [mayFollow_iff] at hb
  rw [isTail_iff] at hc hd
  have hn := toNat_ofNat_of_lt (n := a.toNat % 0x08 * 0x40000 + b.toNat % 0x40 * 0x1000 +
    c.toNat % 0x40 * 0x40 + d.toNat % 0x40) (by omega)
  simp only [encodeChar, hn]
  rw [if_neg (by omega), if_neg (by omega), if_neg (by omega)]
  simp only [List.cons.injEq, and_true]
  refine ⟨?_, ?_, ?_, ?_⟩ <;> apply UInt8.toNat.inj <;> rw [UInt8.toNat_ofNat'] <;> omega

theorem lead_bounds {a : UInt8} (h : ¬ (a < 0xC2 || 0xF4 < a) = true) :
    0xC2 ≤ a.toNat ∧ a.toNat ≤ 0xF4 := by
  simp only [Bool.or_eq_true, decide_eq_true_eq, UInt8.lt_iff_toNat_lt, UInt8.reduceToNat] at h
  omega

theorem mapM_char?_eq_some {c : Char} {ps : List Piece} {s : List Char}
    (h : (Piece.char c :: ps).mapM Piece.char? = some s) :
    ∃ s', ps.mapM Piece.char? = some s' ∧ s = c :: s' := by
  cases hps : ps.mapM Piece.char? with
  | none => simp [List.mapM_cons, Piece.char?, hps] at h
  | some s' =>
    simp only [List.mapM_cons, Piece.char?, hps, Option.pure_def, Option.bind_eq_bind,
      Option.bind_some, Option.some.injEq] at h
    exact ⟨s', rfl, h.symm⟩

/-- Octets that are read are those of the characters: each piece is what its character is written as. -/
theorem encodeChars_of_decodeChars? {bs : Bytes} {s : List Char} (h : decodeChars? bs = some s) :
    encodeChars s = bs := by
  unfold decodeChars? at h
  fun_induction pieces bs generalizing s with
  | case1 =>
    cases h
    rfl
  | case2 a r ha ih =>
    obtain ⟨s', hs', rfl⟩ := mapM_char?_eq_some h
    rw [encodeChars_cons, encodeChar_one (UInt8.lt_iff_toNat_lt.1 ha), ih hs']
    rfl
  | case3 => cases h
  | case4 => cases h
  | case5 => cases h
  | case6 a _ hlead b r hb htwo ih =>
    obtain ⟨s', hs', rfl⟩ := mapM_char?_eq_some h
    have ha := lead_bounds hlead
    rw [encodeChars_cons, encodeChar_two ha.1 (UInt8.lt_iff_toNat_lt.1 htwo) (by simpa using hb),
      ih hs']
    rfl
  | case7 => cases h
  | case8 => cases h
  | case9 a _ _ b hb htwo c r hc hthree ih =>
    obtain ⟨s', hs', rfl⟩ := mapM_char?_eq_some h
    have ha : 0xE0 ≤ a.toNat := by simpa [UInt8.lt_iff_toNat_lt] using htwo
    rw [encodeChars_cons, encodeChar_three ha (UInt8.lt_iff_toNat_lt.1 hthree) (by simpa using hb)
      (by simpa using hc), ih hs']
    rfl
  | case10 => cases h
  | case11 => cases h
  | case12 a _ hlead b hb htwo c hc hthree d r hd ih =>
    obtain ⟨s', hs', rfl⟩ := mapM_char?_eq_some h
    have ha := lead_bounds hlead
    have ha' : 0xF0 ≤ a.toNat := by simpa [UInt8.lt_iff_toNat_lt] using hthree
    rw [encodeChars_cons, encodeChar_four ha' ha.2 (by simpa using hb) (by simpa using hc)
      (by simpa using hd), ih hs']
    rfl

theorem encode_of_decode? {bs : Bytes} {s : String} (h : decode? bs = some s) : encode s = bs := by
  obtain ⟨cs, hcs, rfl⟩ := Option.map_eq_some_iff.1 h
  rw [encode, String.toList_ofList]
  exact encodeChars_of_decodeChars? hcs

end Utf8

end Concolic
