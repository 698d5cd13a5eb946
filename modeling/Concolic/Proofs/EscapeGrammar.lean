import Concolic.Escape
import Concolic.Proofs.Utf8
import Mathlib.Data.Fintype.Basic

/-!
# The grammar of escaped values

An escaped text is read from the left as tokens. Each stands for octets of its own, whatever comes before and
after it, but an octal escape takes as many digits as follow, up to three. The reading stops before the first
backslash that begins no token.
-/

namespace Concolic

namespace Escape

/-- The octets of the letters, the quotes and the backslash after a backslash, with what they stand for. -/
def letters : List (UInt8 × UInt8) :=
  [(0x5C, 0x5C), (0x27, 0x27), (0x22, 0x22), (0x61, 0x07), (0x62, 0x08), (0x66, 0x0C), (0x6E, 0x0A),
    (0x72, 0x0D), (0x74, 0x09), (0x76, 0x0B)]

def octalDigit (d : Fin 8) : UInt8 :=
  UInt8.ofNat (0x30 + d)

def octalValue (digits : List (Fin 8)) : Nat :=
  digits.foldl (fun n d => n * 8 + d.val) 0

/-- A hexadecimal digit, a letter of which may be a capital. -/
structure HexDigit where
  value : Fin 16
  capital : Bool
  deriving DecidableEq, Repr

namespace HexDigit

def char (d : HexDigit) : Char :=
  if d.capital then (Nat.digitChar d.value).toUpper else Nat.digitChar d.value

def octet (d : HexDigit) : UInt8 :=
  UInt8.ofNat d.char.toNat

end HexDigit

def hexOctet (high low : HexDigit) : UInt8 :=
  UInt8.ofNat (high.value * 16 + low.value)

/-- A piece of an escaped text. -/
inductive Token
  /-- An octet that stands for itself. -/
  | plain (b : UInt8) (h : b ≠ 0x5C)
  /-- A backslash and a letter for one octet. -/
  | letter (e c : UInt8) (h : (e, c) ∈ letters)
  /-- A backslash at the end of a line, for nothing. -/
  | lineEnd
  /-- A backslash, an x and two digits for any octet. -/
  | hex (high low : HexDigit)
  /-- A backslash and one to three digits for their value, of which an octet is kept. -/
  | octal (digits : List (Fin 8)) (h : digits.length ∈ [1, 2, 3])
  /-- A backslash and an octet that it does not change. -/
  | kept (e : UInt8) (h : e ∉ letters.map Prod.fst ∧ e ≠ 0x0A ∧ e ≠ 0x78 ∧ ∀ d, e ≠ octalDigit d)

namespace Token

def spelling : Token → Bytes
  | plain b _ => [b]
  | letter e _ _ => [0x5C, e]
  | lineEnd => [0x5C, 0x0A]
  | hex high low => [0x5C, 0x78, high.octet, low.octet]
  | octal digits _ => 0x5C :: digits.map octalDigit
  | kept e _ => [0x5C, e]

def octets : Token → Bytes
  | plain b _ => [b]
  | letter _ c _ => [c]
  | lineEnd => []
  | hex high low => [hexOctet high low]
  | octal digits _ => [UInt8.ofNat (octalValue digits)]
  | kept e _ => [0x5C, e]

end Token

def BeginsOctal (bs : Bytes) : Prop :=
  ∃ d, bs.head? = some (octalDigit d)

def BeginsHexPair (bs : Bytes) : Prop :=
  ∃ (high low : HexDigit) (rest : Bytes), bs = high.octet :: low.octet :: rest

namespace Token

/-- Whether the token ends before these octets. Three octal digits do, and less do if none follows. -/
def EndsBefore : Token → Bytes → Prop
  | octal digits _, rest => digits.length < 3 → ¬ BeginsOctal rest
  | _, _ => True

end Token

/-- The tokens that are read from octets from the left, and the octets that are left. -/
inductive Tokenises : List Token → Bytes → Bytes → Prop
  | nil (rest : Bytes) : Tokenises [] rest rest
  | cons (t : Token) {ts : List Token} {bs rest : Bytes} (hends : t.EndsBefore bs)
      (h : Tokenises ts bs rest) : Tokenises (t :: ts) (t.spelling ++ bs) rest

theorem letter?_eq_some_iff {e c : UInt8} : letter? e = some c ↔ (e, c) ∈ letters := by
  constructor
  · intro h
    unfold letter? at h
    split_ifs at h with hself
    · cases h
      rcases hself with rfl | rfl | rfl <;> decide
    all_goals simp_all [letters]
  · have hall : ∀ p ∈ letters, letter? p.1 = some p.2 := by simp [letters, letter?]
    exact hall (e, c)

theorem letter?_eq_none_iff {e : UInt8} : letter? e = none ↔ e ∉ letters.map Prod.fst := by
  rw [Option.eq_none_iff_forall_ne_some]
  simp [letter?_eq_some_iff]

theorem ne_of_letter?_eq_some {e c : UInt8} (h : letter? e = some c) : e ≠ 0x0A ∧ e ≠ 0x78 := by
  constructor <;> rintro rfl <;> cases h

theorem octal?_eq_some_iff {b : UInt8} {n : Nat} :
    octal? b = some n ↔ ∃ d : Fin 8, b = octalDigit d ∧ n = d := by
  constructor
  · intro h
    unfold octal? at h
    split_ifs at h with hrange
    have hlow : 0x30 ≤ b.toNat := UInt8.le_iff_toNat_le.1 hrange.1
    have hhigh : b.toNat ≤ 0x37 := UInt8.le_iff_toNat_le.1 hrange.2
    cases h
    refine ⟨⟨b.toNat - 0x30, by omega⟩, UInt8.toNat.inj ?_, rfl⟩
    simp only [octalDigit, UInt8.toNat_ofNat']
    omega
  · rintro ⟨d, rfl, rfl⟩
    have hall : ∀ d : Fin 8, octal? (octalDigit d) = some d.val := by decide
    exact hall d

theorem octal?_eq_none_iff {b : UInt8} : octal? b = none ↔ ∀ d, b ≠ octalDigit d := by
  rw [Option.eq_none_iff_forall_ne_some]
  simp only [ne_eq, octal?_eq_some_iff]
  exact ⟨fun h d hd => h d ⟨d, hd, rfl⟩, fun h n ⟨d, hd, _⟩ => h d hd⟩

theorem hex?_octet (d : HexDigit) : hex? d.octet = some d.value.val := by
  obtain ⟨value, capital⟩ := d
  revert value capital
  decide +kernel

theorem exists_octet_eq {b : UInt8} {n : Nat} (h : hex? b = some n) :
    ∃ d : HexDigit, d.octet = b ∧ d.value.val = n := by
  have hall : ∀ i : Fin 256, ∀ n ∈ hex? (UInt8.ofNat i), ∃ (value : Fin 16) (capital : Bool),
      HexDigit.octet ⟨value, capital⟩ = UInt8.ofNat i ∧ value.val = n := by decide +kernel
  obtain ⟨value, capital, hoctet, hvalue⟩ := hall ⟨b.toNat, b.toNat_lt⟩ n (by simpa using h)
  exact ⟨⟨value, capital⟩, by simpa using hoctet, hvalue⟩

theorem read_nil (k : Nat) : read k [] = .ok [] := by
  rw [read.eq_def]

theorem read_plain {b : UInt8} (h : b ≠ 0x5C) (k : Nat) (bs : Bytes) :
    read k (b :: bs) = (b :: ·) <$> read (k + 1) bs := by
  rw [read.eq_def]
  simp [h]

theorem read_lineEnd (k : Nat) (bs : Bytes) : read k (0x5C :: 0x0A :: bs) = read (k + 2) bs := by
  rw [read.eq_def]
  rfl

theorem read_letter {e c : UInt8} (h : letter? e = some c) (k : Nat) (bs : Bytes) :
    read k (0x5C :: e :: bs) = (c :: ·) <$> read (k + 2) bs := by
  obtain ⟨hline, hx⟩ := ne_of_letter?_eq_some h
  rw [read.eq_def]
  simp [hline, hx, h]

theorem read_kept {e : UInt8} (hline : e ≠ 0x0A) (hx : e ≠ 0x78) (hletter : letter? e = none)
    (hoctal : octal? e = none) (k : Nat) (bs : Bytes) :
    read k (0x5C :: e :: bs) = (fun r => 0x5C :: e :: r) <$> read (k + 2) bs := by
  rw [read.eq_def]
  simp [hline, hx, hletter, hoctal]

theorem read_hex (high low : HexDigit) (k : Nat) (bs : Bytes) :
    read k (0x5C :: 0x78 :: high.octet :: low.octet :: bs) =
      (hexOctet high low :: ·) <$> read (k + 4) bs := by
  rw [read.eq_def]
  simp [hex?_octet, hexOctet]

theorem octalDigit_ne (d : Fin 8) :
    octalDigit d ≠ 0x0A ∧ octalDigit d ≠ 0x78 ∧ letter? (octalDigit d) = none := by
  revert d
  decide

theorem octal?_octalDigit (d : Fin 8) : octal? (octalDigit d) = some d.val :=
  octal?_eq_some_iff.2 ⟨d, rfl, rfl⟩

theorem read_octal (digits : List (Fin 8)) (h : digits.length ∈ [1, 2, 3]) {bs : Bytes}
    (hends : digits.length < 3 → ¬ BeginsOctal bs) (k : Nat) :
    read k (0x5C :: (digits.map octalDigit ++ bs)) =
      (UInt8.ofNat (octalValue digits) :: ·) <$> read (k + (digits.length + 1)) bs := by
  -- What ends less than three digits is looked at and left.
  have hnone (f : UInt8) (s : Bytes) (hbs : bs = f :: s) (hshort : digits.length < 3) : octal? f = none :=
    octal?_eq_none_iff.2 fun d hd => hends hshort ⟨d, by rw [hbs, hd]; rfl⟩
  rw [read.eq_def]
  match digits, h with
  | [d], _ =>
    cases bs with
    | nil => simp [octalDigit_ne, octal?_octalDigit, octalValue, read_nil]
    | cons f s => simp [octalDigit_ne, octal?_octalDigit, octalValue, hnone f s rfl]
  | [d, e], _ =>
    cases bs with
    | nil => simp [octalDigit_ne, octal?_octalDigit, octalValue, read_nil]
    | cons f s => simp [octalDigit_ne, octal?_octalDigit, octalValue, hnone f s rfl]
  | [d, e, f], _ =>
    have hvalue : octalValue [d, e, f] = d.val * 64 + e.val * 8 + f.val := by
      simp only [octalValue, List.foldl_cons, List.foldl_nil]
      omega
    simp [octalDigit_ne, octal?_octalDigit, hvalue]

theorem read_spelling {t : Token} {bs : Bytes} (h : t.EndsBefore bs) (k : Nat) :
    read k (t.spelling ++ bs) = (t.octets ++ ·) <$> read (k + t.spelling.length) bs := by
  cases t with
  | plain b hb => exact read_plain hb k bs
  | letter e c he => exact read_letter (letter?_eq_some_iff.2 he) k bs
  | lineEnd =>
    rw [Token.spelling, List.cons_append, List.singleton_append, read_lineEnd]
    exact (id_map (read (k + 2) bs)).symm
  | hex high low => exact read_hex high low k bs
  | octal digits hdigits =>
    have hlength : (Token.octal digits hdigits).spelling.length = digits.length + 1 := by
      simp [Token.spelling]
    rw [hlength]
    exact read_octal digits hdigits h k
  | kept e he =>
    obtain ⟨hletter, hline, hx, hoctal⟩ := he
    exact read_kept hline hx (letter?_eq_none_iff.2 hletter) (octal?_eq_none_iff.2 hoctal) k bs

/-- Where the reading stops: at the end, or before a backslash that begins no token. -/
inductive Stop : Bytes → Prop
  | atEnd : Stop []
  | trailingBackslash : Stop [0x5C]
  | hexDigits {rest : Bytes} (h : ¬ BeginsHexPair rest) : Stop (0x5C :: 0x78 :: rest)

theorem read_trailingBackslash (k : Nat) : read k [0x5C] = .error .trailingBackslash := by
  rw [read.eq_def]
  rfl

theorem read_hexDigits {rest : Bytes} (h : ¬ BeginsHexPair rest) (k : Nat) :
    read k (0x5C :: 0x78 :: rest) = .error (.hexDigits k) := by
  rw [read.eq_def]
  match rest, h with
  | [], _ => rfl
  | [_], _ => rfl
  | a :: b :: s, h =>
    cases ha : hex? a with
    | none => simp [ha]
    | some m =>
      cases hb : hex? b with
      | none => simp [ha, hb]
      | some n =>
        obtain ⟨high, rfl, -⟩ := exists_octet_eq ha
        obtain ⟨low, rfl, -⟩ := exists_octet_eq hb
        exact absurd ⟨high, low, s, rfl⟩ h

theorem Tokenises.eq_append {ts : List Token} {bs rest : Bytes} (h : Tokenises ts bs rest) :
    bs = ts.flatMap Token.spelling ++ rest := by
  induction h with
  | nil rest => rfl
  | cons t hends h ih => rw [List.flatMap_cons, List.append_assoc, ← ih]

theorem Tokenises.read {ts : List Token} {bs rest : Bytes} (h : Tokenises ts bs rest) (k : Nat) :
    Escape.read k bs =
      (ts.flatMap Token.octets ++ ·) <$> Escape.read (k + (ts.flatMap Token.spelling).length) rest := by
  induction h generalizing k with
  | nil rest => exact (id_map (Escape.read k rest)).symm
  | @cons t ts bs rest hends h ih =>
    rw [read_spelling hends, ih]
    simp [Nat.add_assoc]

theorem exists_octal (d : Fin 8) (bs : Bytes) :
    ∃ digits h r, (Token.octal digits h).EndsBefore r ∧
      0x5C :: octalDigit d :: bs = (Token.octal digits h).spelling ++ r := by
  by_cases hfirst : BeginsOctal bs
  · obtain ⟨e, he⟩ := hfirst
    obtain ⟨s, rfl⟩ := List.head?_eq_some_iff.1 he
    by_cases hsecond : BeginsOctal s
    · obtain ⟨f, hf⟩ := hsecond
      obtain ⟨r, rfl⟩ := List.head?_eq_some_iff.1 hf
      exact ⟨[d, e, f], by simp, r, fun h => absurd h (by simp), rfl⟩
    · exact ⟨[d, e], by simp, s, fun _ => hsecond, rfl⟩
  · exact ⟨[d], by simp, bs, fun _ => hfirst, rfl⟩

/-- Octets begin with a token, or the reading stops at them. The octet after a backslash decides which token it
is, since no two kinds of them have it in common. -/
theorem exists_token_or_stop (bs : Bytes) :
    (∃ (t : Token) (r : Bytes), t.EndsBefore r ∧ bs = t.spelling ++ r) ∨ Stop bs := by
  match bs with
  | [] => exact .inr .atEnd
  | b :: s =>
    by_cases hb : b = 0x5C
    swap
    · exact .inl ⟨.plain b hb, s, trivial, rfl⟩
    subst hb
    match s with
    | [] => exact .inr .trailingBackslash
    | e :: s =>
      by_cases hline : e = 0x0A
      · exact .inl ⟨.lineEnd, s, trivial, by rw [hline]; rfl⟩
      by_cases hx : e = 0x78
      · subst hx
        by_cases hpair : BeginsHexPair s
        · obtain ⟨high, low, r, rfl⟩ := hpair
          exact .inl ⟨.hex high low, r, trivial, rfl⟩
        · exact .inr (.hexDigits hpair)
      cases hletter : letter? e with
      | some c => exact .inl ⟨.letter e c (letter?_eq_some_iff.1 hletter), s, trivial, rfl⟩
      | none =>
        cases hoctal : octal? e with
        | some n =>
          obtain ⟨d, rfl, -⟩ := octal?_eq_some_iff.1 hoctal
          obtain ⟨digits, h, r, hends, hspelling⟩ := exists_octal d s
          exact .inl ⟨.octal digits h, r, hends, hspelling⟩
        | none =>
          exact .inl ⟨.kept e ⟨letter?_eq_none_iff.1 hletter, hline, hx, octal?_eq_none_iff.1 hoctal⟩, s,
            trivial, rfl⟩

theorem Token.length_spelling_pos (t : Token) : 0 < t.spelling.length := by
  cases t <;> simp [spelling]

theorem exists_tokenises (bs : Bytes) : ∃ ts rest, Tokenises ts bs rest ∧ Stop rest := by
  induction hn : bs.length using Nat.strongRecOn generalizing bs with
  | ind n ih =>
    obtain ⟨t, r, hends, rfl⟩ | hstop := exists_token_or_stop bs
    · -- No token is empty, so that less octets are left each time.
      have hless : r.length < n := by
        have hpos := t.length_spelling_pos
        rw [List.length_append] at hn
        omega
      obtain ⟨ts, rest, htokens, hstop⟩ := ih r.length hless r rfl
      exact ⟨t :: ts, rest, .cons t hends htokens, hstop⟩
    · exact ⟨[], bs, .nil bs, hstop⟩

theorem unescape_of_tokenises {s : String} {ts : List Token} {rest : Bytes}
    (h : Tokenises ts (Utf8.encode s) rest) :
    unescape s = (ts.flatMap Token.octets ++ ·) <$> read (ts.flatMap Token.spelling).length rest := by
  rw [unescape, h.read, Nat.zero_add]

theorem unescape_of_whole {s : String} {ts : List Token} (h : Tokenises ts (Utf8.encode s) []) :
    unescape s = .ok (ts.flatMap Token.octets) := by
  rw [unescape_of_tokenises h, read_nil]
  exact congrArg Except.ok (List.append_nil _)

theorem unescape_of_trailingBackslash {s : String} {ts : List Token}
    (h : Tokenises ts (Utf8.encode s) [0x5C]) : unescape s = .error .trailingBackslash := by
  rw [unescape_of_tokenises h, read_trailingBackslash]
  rfl

theorem unescape_of_hexDigits {s : String} {ts : List Token} {rest : Bytes}
    (h : Tokenises ts (Utf8.encode s) (0x5C :: 0x78 :: rest)) (hpair : ¬ BeginsHexPair rest) :
    unescape s = .error (.hexDigits (ts.flatMap Token.spelling).length) := by
  rw [unescape_of_tokenises h, read_hexDigits hpair]
  rfl

theorem unescape_eq_ok_iff {s : String} {out : Bytes} :
    unescape s = .ok out ↔ ∃ ts, Tokenises ts (Utf8.encode s) [] ∧ out = ts.flatMap Token.octets := by
  constructor
  · intro hs
    obtain ⟨ts, rest, h, hstop⟩ := exists_tokenises (Utf8.encode s)
    cases hstop with
    | atEnd => exact ⟨ts, h, Except.ok.inj (hs.symm.trans (unescape_of_whole h))⟩
    | trailingBackslash => cases hs.symm.trans (unescape_of_trailingBackslash h)
    | hexDigits hpair => cases hs.symm.trans (unescape_of_hexDigits h hpair)
  · rintro ⟨ts, h, rfl⟩
    exact unescape_of_whole h

theorem unescape_eq_error_iff {s : String} {m : Malformed} :
    unescape s = .error m ↔
      (∃ ts, Tokenises ts (Utf8.encode s) [0x5C] ∧ m = .trailingBackslash) ∨
      ∃ ts rest, Tokenises ts (Utf8.encode s) (0x5C :: 0x78 :: rest) ∧ ¬ BeginsHexPair rest ∧
        m = .hexDigits (ts.flatMap Token.spelling).length := by
  constructor
  · intro hs
    obtain ⟨ts, rest, h, hstop⟩ := exists_tokenises (Utf8.encode s)
    cases hstop with
    | atEnd => cases hs.symm.trans (unescape_of_whole h)
    | trailingBackslash =>
      exact .inl ⟨ts, h, Except.error.inj (hs.symm.trans (unescape_of_trailingBackslash h))⟩
    | hexDigits hpair =>
      exact .inr ⟨ts, _, h, hpair, Except.error.inj (hs.symm.trans (unescape_of_hexDigits h hpair))⟩
  · rintro (⟨ts, h, rfl⟩ | ⟨ts, rest, h, hpair, rfl⟩)
    · exact unescape_of_trailingBackslash h
    · exact unescape_of_hexDigits h hpair

/-- The offset counts octets, of which the first character has two. -/
example : unescape "é\\x4" = .error (.hexDigits 2) := by decide +kernel

/-- Whether octets are read as tokens the last of which is an octal escape of less than three digits. -/
def EndsShort (bs : Bytes) : Prop :=
  ∃ ts digits h, Tokenises (ts ++ [.octal digits h]) bs [] ∧ digits.length < 3

theorem Token.EndsBefore.append {t : Token} {bs : Bytes} (h : t.EndsBefore bs) (hne : bs ≠ [])
    (cs : Bytes) : t.EndsBefore (bs ++ cs) := by
  cases t with
  | octal digits hdigits =>
    rintro hshort ⟨d, hd⟩
    rw [List.head?_append_of_ne_nil _ hne] at hd
    exact h hshort ⟨d, hd⟩
  | plain | letter | lineEnd | hex | kept => trivial

theorem Tokenises.append {ts us : List Token} {bs cs : Bytes} (h : Tokenises ts bs [])
    (hlast : ∀ t ∈ ts.getLast?, t.EndsBefore cs) (h' : Tokenises us cs []) :
    Tokenises (ts ++ us) (bs ++ cs) [] := by
  generalize hrest : ([] : Bytes) = rest at h
  induction h with
  | nil rest =>
    subst hrest
    exact h'
  | @cons t ts bs rest hends h ih =>
    rw [List.cons_append, List.append_assoc]
    -- Only the last token meets the other octets; before it each is followed by a token still.
    cases h with
    | nil =>
      subst hrest
      exact .cons t (hlast t rfl) h'
    | cons u hends' h =>
      refine .cons t (hends.append ?_ cs) (ih ?_ hrest)
      · simp [← List.length_pos_iff, u.length_spelling_pos]
      · simpa using hlast

/-- An escaped text is read as its tokens, and refused for the first that is malformed. Texts are read one
after the other, unless an octal escape could take a digit of the second. -/
theorem unescape_token_grammar (s : String) :
    (∀ out, unescape s = .ok out ↔
      ∃ ts, Tokenises ts (Utf8.encode s) [] ∧ out = ts.flatMap Token.octets) ∧
    (∀ f, (unescape s).mapError Malformed.fault = .error f ↔
      (∃ ts, Tokenises ts (Utf8.encode s) [0x5C] ∧
        f = .decoding "trailing backslash in escaped value") ∨
      ∃ ts before rest, Tokenises ts (Utf8.encode s) (0x5C :: 0x78 :: rest) ∧ ¬ BeginsHexPair rest ∧
        Utf8.encode s = before ++ 0x5C :: 0x78 :: rest ∧
        f = .decoding s!"invalid \\x escape at offset {before.length}") ∧
    ∀ t b c, unescape s = .ok b → unescape t = .ok c →
      ¬ (EndsShort (Utf8.encode s) ∧ BeginsOctal (Utf8.encode t)) → unescape (s ++ t) = .ok (b ++ c) := by
  refine ⟨fun out => unescape_eq_ok_iff, fun f => ?refused, fun t b c hs ht hjoin => ?joined⟩
  case refused =>
    have hmap : (unescape s).mapError Malformed.fault = .error f ↔
        ∃ m, unescape s = .error m ∧ f = m.fault := by
      cases unescape s <;> simp [Except.mapError, eq_comm]
    simp only [hmap, unescape_eq_error_iff]
    constructor
    · rintro ⟨m, ⟨ts, htokens, rfl⟩ | ⟨ts, rest, htokens, hpair, rfl⟩, rfl⟩
      · exact .inl ⟨ts, htokens, rfl⟩
      · exact .inr ⟨ts, _, rest, htokens, hpair, htokens.eq_append, rfl⟩
    · rintro (⟨ts, htokens, rfl⟩ | ⟨ts, before, rest, htokens, hpair, hbefore, rfl⟩)
      · exact ⟨_, .inl ⟨ts, htokens, rfl⟩, rfl⟩
      · have hlength : before = ts.flatMap Token.spelling :=
          List.append_cancel_right (hbefore.symm.trans htokens.eq_append)
        exact ⟨_, .inr ⟨ts, rest, htokens, hpair, rfl⟩, by rw [hlength]; rfl⟩
  case joined =>
    obtain ⟨ts, hts, rfl⟩ := unescape_eq_ok_iff.1 hs
    obtain ⟨us, hus, rfl⟩ := unescape_eq_ok_iff.1 ht
    have hlast : ∀ last ∈ ts.getLast?, last.EndsBefore (Utf8.encode t) := by
      intro last hmem
      obtain ⟨before, rfl⟩ := List.getLast?_eq_some_iff.1 hmem
      cases last with
      | octal digits h => exact fun hshort hbegins => hjoin ⟨⟨before, digits, h, hts, hshort⟩, hbegins⟩
      | plain | letter | lineEnd | hex | kept => trivial
    refine unescape_eq_ok_iff.2 ⟨ts ++ us, ?_, List.flatMap_append.symm⟩
    rw [Utf8.encode_append]
    exact hts.append hlast hus

/-- An octal escape of two digits and an eight after it, which is no octal digit. -/
theorem unescape_token_grammar_eightAfterOctal :
    unescape "é\\61" = .ok [0xC3, 0xA9, 0x31] ∧ unescape "8\\n" = .ok [0x38, 0x0A] ∧
      ¬ (EndsShort (Utf8.encode "é\\61") ∧ BeginsOctal (Utf8.encode "8\\n")) ∧
      unescape ("é\\61" ++ "8\\n") = .ok ([0xC3, 0xA9, 0x31] ++ [0x38, 0x0A]) := by
  have hs : unescape "é\\61" = .ok [0xC3, 0xA9, 0x31] := by decide +kernel
  have ht : unescape "8\\n" = .ok [0x38, 0x0A] := by decide +kernel
  have height : ∀ d, (Utf8.encode "8\\n").head? ≠ some (octalDigit d) := by decide +kernel
  have hjoin : ¬ (EndsShort (Utf8.encode "é\\61") ∧ BeginsOctal (Utf8.encode "8\\n")) :=
    fun ⟨_, d, hd⟩ => height d hd
  exact ⟨hs, ht, hjoin, (unescape_token_grammar "é\\61").2.2 "8\\n" _ _ hs ht hjoin⟩

def digitsOf (b : UInt8) : HexDigit × HexDigit :=
  (⟨⟨b.toNat / 16, Nat.div_lt_of_lt_mul b.toNat_lt⟩, false⟩, ⟨⟨b.toNat % 16, Nat.mod_lt _ (by decide)⟩, false⟩)

theorem hexOctet_digitsOf (b : UInt8) : hexOctet (digitsOf b).1 (digitsOf b).2 = b := by
  simp only [hexOctet, digitsOf, Nat.div_add_mod', UInt8.ofNat_toNat]

/-- Whether a text spells each of these octets by two hexadecimal digits after a backslash and an x. -/
def SpellsHex (octets : Bytes) (s : String) : Prop :=
  ∃ digits : List (HexDigit × HexDigit), octets = digits.map (fun d => hexOctet d.1 d.2) ∧
    s.toList = digits.flatMap fun d => ['\\', 'x', d.1.char, d.2.char]

theorem exists_spellsHex (octets : Bytes) : ∃ s, SpellsHex octets s :=
  ⟨String.ofList ((octets.map digitsOf).flatMap fun d => ['\\', 'x', d.1.char, d.2.char]),
    octets.map digitsOf, by simp [Function.comp_def, hexOctet_digitsOf], String.toList_ofList⟩

theorem encodeChar_char (d : HexDigit) : Utf8.encodeChar d.char = [d.octet] := by
  obtain ⟨value, capital⟩ := d
  revert value capital
  decide +kernel

theorem unescape_of_spellsHex {octets : Bytes} {s : String} (h : SpellsHex octets s) :
    unescape s = .ok octets := by
  obtain ⟨digits, rfl, hs⟩ := h
  have htokens : Tokenises (digits.map fun d => .hex d.1 d.2) (Utf8.encode s) [] := by
    rw [Utf8.encode, hs]
    clear hs
    induction digits with
    | nil => exact .nil []
    | cons d digits ih =>
      have hbackslash : Utf8.encodeChar '\\' = [0x5C] := rfl
      have hx : Utf8.encodeChar 'x' = [0x78] := rfl
      have hcons := Tokenises.cons (.hex d.1 d.2) trivial ih
      simpa [Utf8.encodeChars, hbackslash, hx, encodeChar_char, Token.spelling] using hcons
  rw [unescape_of_whole htokens, List.flatMap_map, List.map_eq_flatMap]
  rfl

end Escape

end Concolic
