import Concolic.Proofs.SummaryGrammar
import Concolic.Proofs.Utf8
import Mathlib.Data.List.Induction
import Mathlib.Data.Nat.Digits.Defs

/-!
# The grammar of integer text

A byte string is used as an integer if it is the text of a numeral with white space around it, and the number of the
numeral is in the range of 32 bits. A numeral may have any number of digits, and no number out of range is brought into
it. Every other byte string is an error of decoding.
-/

namespace Concolic

theorem trim_append_append {before t after : List Char} (hbefore : ∀ c ∈ before, isBlank c = true)
    (hstarts : StartsSolid t) (hends : EndsSolid t) (hafter : ∀ c ∈ after, isBlank c = true) :
    trim (before ++ t ++ after) = t := by
  have hstart : (before ++ (t ++ after)).dropWhile isBlank = t ++ after := by
    refine (span_append hbefore ?_).2
    obtain ⟨c, hc, hsolid⟩ := hstarts
    intro d hd
    rw [List.head?_append, Option.mem_def.1 hc] at hd
    cases hd
    exact hsolid
  have hend : (after.reverse ++ t.reverse).dropWhile isBlank = t.reverse :=
    (span_append (by simpa using hafter) (StartsSolid.reverse_iff.2 hends).head).2
  rw [List.append_assoc, trim, trimEnd, hstart, List.reverse_append, hend, List.reverse_reverse]

theorem exists_trim (s : List Char) :
    ∃ before after, s = before ++ trim s ++ after ∧ (∀ c ∈ before, isBlank c = true) ∧
      ∀ c ∈ after, isBlank c = true := by
  let rest := s.dropWhile isBlank
  have hstart : s = s.takeWhile isBlank ++ rest := List.takeWhile_append_dropWhile.symm
  have hend : rest = trim s ++ (rest.reverse.takeWhile isBlank).reverse := by
    have hsplit : rest.reverse = rest.reverse.takeWhile isBlank ++ rest.reverse.dropWhile isBlank :=
      List.takeWhile_append_dropWhile.symm
    have hback := congrArg List.reverse hsplit
    rwa [List.reverse_reverse, List.reverse_append] at hback
  refine ⟨s.takeWhile isBlank, (rest.reverse.takeWhile isBlank).reverse, ?_, ?_, ?_⟩
  · rw [List.append_assoc, ← hend, ← hstart]
  · exact fun c hc => List.mem_takeWhile_imp hc
  · exact fun c hc => List.mem_takeWhile_imp (List.mem_reverse.1 hc)

namespace Decimal

inductive Sign
  | plus
  | minus
  deriving DecidableEq, Repr

def Sign.char : Sign → Char
  | plus => '+'
  | minus => '-'

def digitChars (digits : List (Fin 10)) : List Char :=
  digits.map fun d => Nat.digitChar d.val

/-- The number that decimal digits denote, of which the first is the most significant. -/
def magnitude (digits : List (Fin 10)) : Nat :=
  Nat.ofDigits 10 (digits.reverse.map Fin.val)

/-- At most one sign, and then one digit or more. -/
structure Numeral where
  sign : Option Sign
  digits : List (Fin 10)
  digits_ne_nil : digits ≠ []

namespace Numeral

def chars (m : Numeral) : List Char :=
  (m.sign.map Sign.char).toList ++ digitChars m.digits

def value (m : Numeral) : Int :=
  if m.sign = some .minus then -(magnitude m.digits : Int) else magnitude m.digits

end Numeral

theorem toNat_digitChar (d : Fin 10) : (Nat.digitChar d.val).toNat = 48 + d.val :=
  Nat.toNat_digitChar_of_lt_ten d.isLt

theorem isDigit_digitChar (d : Fin 10) : (Nat.digitChar d.val).isDigit = true := by
  rw [Char.isDigit_iff_toNat, toNat_digitChar]
  have h := d.isLt
  simp only [Char.reduceToNat]
  omega

theorem isDigit_of_mem_digitChars {digits : List (Fin 10)} : ∀ c ∈ digitChars digits, c.isDigit = true := by
  intro c hc
  obtain ⟨d, -, rfl⟩ := List.mem_map.1 hc
  exact isDigit_digitChar d

theorem exists_digitChar {c : Char} (h : c.isDigit = true) : ∃ d : Fin 10, c = Nat.digitChar d.val := by
  rw [Char.isDigit_iff_toNat] at h
  simp only [Char.reduceToNat] at h
  refine ⟨⟨c.toNat - 48, by omega⟩, Char.toNat_inj.1 ?_⟩
  rw [toNat_digitChar]
  simp only
  omega

theorem exists_digitChars {s : List Char} (h : ∀ c ∈ s, c.isDigit = true) : ∃ digits, s = digitChars digits := by
  induction s with
  | nil => exact ⟨[], rfl⟩
  | cons c s ih =>
    obtain ⟨d, hd⟩ := exists_digitChar (h c List.mem_cons_self)
    obtain ⟨digits, hdigits⟩ := ih fun x hx => h x (List.mem_cons_of_mem c hx)
    exact ⟨d :: digits, by rw [hd, hdigits]; rfl⟩

/-- Reading digits from the left gives their number. The induction is on the digits from the last one, as each
digit that is read moves those before it up by one place. -/
theorem ofDigitChars_digitChars (digits : List (Fin 10)) :
    Nat.ofDigitChars 10 (digitChars digits) 0 = magnitude digits := by
  induction digits using List.reverseRecOn with
  | nil => rfl
  | append_singleton digits d ih =>
    have hlast (n : Nat) : Nat.ofDigitChars 10 (digitChars [d]) n = 10 * n + d := by
      simp [digitChars, Nat.ofDigitChars_cons, toNat_digitChar]
    have hmagnitude : magnitude (digits ++ [d]) = d + 10 * magnitude digits := by
      simp [magnitude, Nat.ofDigits_cons]
    have happend : digitChars (digits ++ [d]) = digitChars digits ++ digitChars [d] := List.map_append
    rw [happend, Nat.ofDigitChars_append, hlast, ih, hmagnitude, Nat.add_comm]

theorem nat?_eq_some_iff_exists_digits {s : List Char} {n : Nat} :
    nat? s = some n ↔ ∃ digits, digits ≠ [] ∧ s = digitChars digits ∧ magnitude digits = n := by
  rw [nat?_eq_some_iff]
  constructor
  · rintro ⟨hne, hdigits, hread⟩
    obtain ⟨digits, rfl⟩ := exists_digitChars hdigits
    refine ⟨digits, fun hnil => hne (by rw [hnil]; rfl), rfl, ?_⟩
    rw [← ofDigitChars_digitChars, hread]
  · rintro ⟨digits, hne, rfl, hvalue⟩
    refine ⟨fun hnil => hne (List.map_eq_nil_iff.1 hnil), isDigit_of_mem_digitChars, ?_⟩
    rw [ofDigitChars_digitChars, hvalue]

/-- Exactly the texts of numerals are read, as the numbers that they denote. -/
theorem int?_eq_some_iff {s : List Char} {n : Int} :
    int? s = some n ↔ ∃ m : Numeral, m.chars = s ∧ m.value = n := by
  constructor
  · intro h
    unfold int? at h
    split at h
    case h_1 s =>
      obtain ⟨k, hk, rfl⟩ := Option.map_eq_some_iff.1 h
      obtain ⟨digits, hne, rfl, rfl⟩ := nat?_eq_some_iff_exists_digits.1 hk
      exact ⟨⟨some .plus, digits, hne⟩, rfl, rfl⟩
    case h_2 s =>
      obtain ⟨k, hk, rfl⟩ := Option.map_eq_some_iff.1 h
      obtain ⟨digits, hne, rfl, rfl⟩ := nat?_eq_some_iff_exists_digits.1 hk
      exact ⟨⟨some .minus, digits, hne⟩, rfl, rfl⟩
    case h_3 s _ _ =>
      obtain ⟨k, hk, rfl⟩ := Option.map_eq_some_iff.1 h
      obtain ⟨digits, hne, rfl, rfl⟩ := nat?_eq_some_iff_exists_digits.1 hk
      exact ⟨⟨none, digits, hne⟩, rfl, rfl⟩
  · rintro ⟨⟨sign, digits, hne⟩, rfl, rfl⟩
    have hnat : nat? (digitChars digits) = some (magnitude digits) :=
      nat?_eq_some_iff_exists_digits.2 ⟨digits, hne, rfl, rfl⟩
    cases sign with
    | none =>
      show int? (digitChars digits) = _
      rw [int?_of_isDigit isDigit_of_mem_digitChars, hnat]
      rfl
    | some sign =>
      cases sign with
      | plus =>
        show (nat? (digitChars digits)).map Int.ofNat = _
        rw [hnat]
        rfl
      | minus =>
        show (nat? (digitChars digits)).map (fun n => -Int.ofNat n) = _
        rw [hnat]
        rfl

theorem int32?_eq_some_iff {s : List Char} {n : Int32} : int32? s = some n ↔ int? s = some n.toInt := by
  have hrange (m : Int) : (Int32.minValue.toInt ≤ m ∧ m ≤ Int32.maxValue.toInt) ↔ -2 ^ 31 ≤ m ∧ m < 2 ^ 31 := by
    have hmin : Int32.minValue.toInt = -2 ^ 31 := rfl
    have hmax : Int32.maxValue.toInt = 2 ^ 31 - 1 := rfl
    rw [hmin, hmax]
    omega
  cases hread : int? s with
  | none => simp [int32?, hread]
  | some m =>
    simp only [int32?, hread, hrange, Option.bind_eq_bind, Option.bind_some, Option.some.injEq]
    by_cases hm : -2 ^ 31 ≤ m ∧ m < 2 ^ 31
    · rw [if_pos hm, Option.some.injEq, ← Int32.toInt_inj, Int32.toInt_ofInt_of_le hm.1 hm.2]
    · rw [if_neg hm]
      refine iff_of_false (Option.some_ne_none n).symm fun heq => hm ?_
      rw [heq]
      exact ⟨n.le_toInt, n.toInt_lt⟩

theorem Numeral.isBlank_of_mem_chars {m : Numeral} : ∀ c ∈ m.chars, isBlank c = false := by
  intro c hc
  rcases List.mem_append.1 hc with hsign | hdigit
  · rcases m with ⟨_ | _ | _, digits, hne⟩
    · cases hsign
    · cases List.mem_singleton.1 hsign
      decide
    · cases List.mem_singleton.1 hsign
      decide
  · exact isBlank_of_isDigit (isDigit_of_mem_digitChars c hdigit)

theorem Numeral.chars_ne_nil (m : Numeral) : m.chars ≠ [] := by
  intro hnil
  have hdigits := (List.append_eq_nil_iff.1 hnil).2
  exact m.digits_ne_nil (List.map_eq_nil_iff.1 hdigits)

end Decimal

namespace Value

/-- Octets are the text of a numeral for `n`, with any white space around it. -/
def SpellsInteger (b : Bytes) (n : Int) : Prop :=
  ∃ (before after : List Char) (m : Decimal.Numeral), b = Utf8.encodeChars (before ++ m.chars ++ after) ∧
    (∀ c ∈ before, isBlank c = true) ∧ (∀ c ∈ after, isBlank c = true) ∧ m.value = n

theorem spellsInteger_iff {b : Bytes} {n : Int} :
    SpellsInteger b n ↔ ∃ s, Utf8.decodeChars? b = some s ∧ Decimal.int? (trim s) = some n := by
  constructor
  · rintro ⟨before, after, m, rfl, hbefore, hafter, hvalue⟩
    refine ⟨before ++ m.chars ++ after, Utf8.decodeChars?_encodeChars _, ?_⟩
    have hstarts : StartsSolid m.chars :=
      ⟨_, List.head?_eq_some_head m.chars_ne_nil, Decimal.Numeral.isBlank_of_mem_chars _ (List.head_mem _)⟩
    have hends : EndsSolid m.chars :=
      ⟨_, List.getLast?_eq_some_getLast m.chars_ne_nil, Decimal.Numeral.isBlank_of_mem_chars _ (List.getLast_mem _)⟩
    rw [trim_append_append hbefore hstarts hends hafter]
    exact Decimal.int?_eq_some_iff.2 ⟨m, rfl, hvalue⟩
  · rintro ⟨s, hs, hread⟩
    obtain ⟨m, hchars, hvalue⟩ := Decimal.int?_eq_some_iff.1 hread
    obtain ⟨before, after, htrim, hbefore, hafter⟩ := exists_trim s
    refine ⟨before, after, m, ?_, hbefore, hafter, hvalue⟩
    rw [hchars, ← htrim, Utf8.encodeChars_of_decodeChars? hs]

theorem SpellsInteger.unique {b : Bytes} {m n : Int} (hm : SpellsInteger b m) (hn : SpellsInteger b n) : m = n := by
  obtain ⟨s, hs, hread⟩ := spellsInteger_iff.1 hm
  obtain ⟨t, ht, hread'⟩ := spellsInteger_iff.1 hn
  obtain rfl : s = t := Option.some.inj (hs.symm.trans ht)
  exact Option.some.inj (hread.symm.trans hread')

theorem toInt_bytes_eq_ok_iff {b : Bytes} {n : Int32} :
    (bytes b).toInt = .ok n ↔ SpellsInteger b n.toInt := by
  have hread : (bytes b).toInt = .ok n ↔
      ((Utf8.decodeChars? b).bind fun s => Decimal.int32? (trim s)) = some n := by
    simp only [toInt]
    cases (Utf8.decodeChars? b).bind fun s => Decimal.int32? (trim s) with
    | none => simp
    | some k => simp
  rw [hread, spellsInteger_iff, Option.bind_eq_some_iff]
  simp only [Decimal.int32?_eq_some_iff]

theorem toInt_bytes_eq_error_iff {b : Bytes} :
    (bytes b).toInt = .error (.decoding s!"value '{Utf8.lossy b}' is not an integer") ↔
      ¬ ∃ n : Int32, SpellsInteger b n.toInt := by
  simp only [← toInt_bytes_eq_ok_iff]
  constructor
  · rintro herror ⟨n, hok⟩
    rw [hok] at herror
    cases herror
  · intro hnone
    simp only [toInt] at hnone ⊢
    split
    case h_1 n hn => exact absurd ⟨n, by rw [hn]⟩ hnone
    case h_2 => rfl

theorem exists_toInt_eq_iff {m : Int} : (∃ n : Int32, n.toInt = m) ↔ -2 ^ 31 ≤ m ∧ m ≤ 2 ^ 31 - 1 := by
  constructor
  · rintro ⟨n, rfl⟩
    have hlow := n.le_toInt
    have hhigh := n.toInt_lt
    omega
  · rintro ⟨hlow, hhigh⟩
    exact ⟨Int32.ofInt m, Int32.toInt_ofInt_of_le hlow (by omega)⟩

theorem spellsInteger_toBytes (n : Int32) {before after : List Char} (hbefore : ∀ c ∈ before, isBlank c = true)
    (hafter : ∀ c ∈ after, isBlank c = true) :
    SpellsInteger (Utf8.encodeChars before ++ (int n).toBytes ++ Utf8.encodeChars after) n.toInt := by
  obtain ⟨m, hchars, hvalue⟩ := Decimal.int?_eq_some_iff.1 (Decimal.int?_toString n.toInt)
  refine ⟨before, after, m, ?_, hbefore, hafter, hvalue⟩
  rw [hchars]
  simp [toBytes, Utf8.encode, Utf8.encodeChars]

/-- A byte string is used as a number if it spells one in the range of 32 bits, and any other is an error of decoding:
so is the text of a number out of range, which is neither wrapped nor brought to an end of the range. The decimal text
of a number is used as that number, with any white space around it. -/
theorem accepts_integer_text (b : Bytes) :
    let refused := (bytes b).toInt = .error (.decoding s!"value '{Utf8.lossy b}' is not an integer")
    (∀ n : Int32, (bytes b).toInt = .ok n ↔ SpellsInteger b n.toInt) ∧
      ((∃ n, (bytes b).toInt = .ok n) ↔ ∃ m, SpellsInteger b m ∧ -2 ^ 31 ≤ m ∧ m ≤ 2 ^ 31 - 1) ∧
      (refused ↔ ∀ n, (bytes b).toInt ≠ .ok n) ∧
      (∀ m, SpellsInteger b m → (m < -2 ^ 31 ∨ 2 ^ 31 - 1 < m) → refused) ∧
      ∀ (n : Int32) (before after : List Char), (∀ c ∈ before, isBlank c = true) →
        (∀ c ∈ after, isBlank c = true) →
        (bytes (Utf8.encodeChars before ++ (int n).toBytes ++ Utf8.encodeChars after)).toInt = .ok n := by
  intro refused
  have haccepted : (∃ n, (bytes b).toInt = .ok n) ↔ ∃ m, SpellsInteger b m ∧ -2 ^ 31 ≤ m ∧ m ≤ 2 ^ 31 - 1 := by
    simp only [toInt_bytes_eq_ok_iff, ← exists_toInt_eq_iff]
    constructor
    · rintro ⟨n, hn⟩
      exact ⟨n.toInt, hn, n, rfl⟩
    · rintro ⟨m, hm, n, rfl⟩
      exact ⟨n, hm⟩
  have hrefused : refused ↔ ∀ n, (bytes b).toInt ≠ .ok n := by
    simp only [refused, toInt_bytes_eq_error_iff, ne_eq, toInt_bytes_eq_ok_iff, not_exists]
  refine ⟨fun n => toInt_bytes_eq_ok_iff, haccepted, hrefused, ?outOfRange, ?written⟩
  case outOfRange =>
    intro m hm hout
    refine hrefused.2 fun n hn => ?_
    obtain ⟨k, hk, hlow, hhigh⟩ := haccepted.1 ⟨n, hn⟩
    have hsame : m = k := hm.unique hk
    omega
  case written =>
    intro n before after hbefore hafter
    exact toInt_bytes_eq_ok_iff.2 (spellsInteger_toBytes n hbefore hafter)

/-- The number after the last one of 32 bits, with a sign and zeros in front, and the least number of 32 bits between
white space. -/
theorem accepts_integer_text_extremes :
    let b := Utf8.encode " +002147483648"
    SpellsInteger b (2 ^ 31) ∧
      (bytes b).toInt = .error (.decoding "value ' +002147483648' is not an integer") ∧
      (bytes (Utf8.encodeChars ['\u3000', '\t'] ++ (int Int32.minValue).toBytes ++ Utf8.encodeChars ['\n'])).toInt =
        .ok Int32.minValue := by
  intro b
  let m : Decimal.Numeral := ⟨some .plus, [0, 0, 2, 1, 4, 7, 4, 8, 3, 6, 4, 8], by decide⟩
  have hspace : ∀ c ∈ [' '], isBlank c = true := List.all_eq_true.1 (by decide)
  have hspelled : SpellsInteger b (2 ^ 31) := ⟨[' '], [], m, by decide +kernel, hspace, nofun, by decide⟩
  obtain ⟨-, -, -, hout, hwritten⟩ := accepts_integer_text b
  have hlossy : Utf8.lossy b = " +002147483648" := by decide +kernel
  have hbefore : ∀ c ∈ ['\u3000', '\t'], isBlank c = true := List.all_eq_true.1 (by decide)
  have hafter : ∀ c ∈ ['\n'], isBlank c = true := List.all_eq_true.1 (by decide)
  refine ⟨hspelled, ?_, hwritten Int32.minValue ['\u3000', '\t'] ['\n'] hbefore hafter⟩
  rw [hout (2 ^ 31) hspelled (.inr (by decide)), hlossy]
  rfl

end Value

end Concolic
